import RbsSynth.Inflection.Words
import RbsSynth.Template.Value
import RbsSynth.Text.Split

/-!
Attributes and items of values.

Behind a dot an attribute is looked for first and an item next, in square brackets the other way
round.  The fields of a record are both.  An attribute that exists but is hidden gives a value that
must not be used; one that does not exist gives a missing value.
-/

namespace RbsSynth.Template

/-- The attributes that every value hides. -/
def hiddenOfAll : List String :=
  ["__class__", "__delattr__", "__dir__", "__doc__", "__eq__", "__format__", "__ge__",
   "__getattribute__", "__getstate__", "__gt__", "__hash__", "__init__", "__init_subclass__",
   "__le__", "__lt__", "__ne__", "__new__", "__reduce__", "__reduce_ex__", "__repr__",
   "__setattr__", "__sizeof__", "__str__", "__subclasshook__"]

def hiddenOfText : List String :=
  ["__add__", "__contains__", "__getitem__", "__getnewargs__", "__iter__", "__len__", "__mod__",
   "__mul__", "__rmod__", "__rmul__"]

/-- What records and bound texts hide besides. -/
def hiddenOfBound : List String := ["__dict__", "__module__", "__weakref__"]

def hiddenOfRecord : List String := ["__contains__", "__getattr__", "__getitem__", "_values"]

/-- Whether a value hides an attribute. -/
def Value.hides (v : Value) (name : String) : Bool :=
  hiddenOfAll.contains name || match v with
    | .text _ => hiddenOfText.contains name
    | .bound _ => hiddenOfText.contains name || hiddenOfBound.contains name
    | .record _ => hiddenOfRecord.contains name || hiddenOfBound.contains name
    | _ => false

/-- The inflections that a bound text has as attributes, and that are filters. -/
def inflections : List (String × (List Char → List Char)) :=
  [("pluralize", Inflection.pluralize), ("singularize", Inflection.singularize),
   ("camelize", Inflection.camelize), ("underscore", Inflection.underscore),
   ("classify", Inflection.classify), ("tableize", Inflection.tableize)]

def TextMethod.ofName? : String → Option TextMethod
  | "capitalize" => some .capitalize
  | "upper" => some .upper
  | "lower" => some .lower
  | "swapcase" => some .swapCase
  | "replace" => some .replace
  | "startswith" => some .startsWith
  | "endswith" => some .endsWith
  | "strip" => some .strip
  | "split" => some .split
  | _ => none

/-- The state of a loop by name. -/
def loopField? (index length : Nat) : String → Option Value
  | "index" => some (.int (index + 1))
  | "index0" => some (.int index)
  | "revindex" => some (.int (length - index))
  | "revindex0" => some (.int (length - index - 1))
  | "first" => some (.bool (index == 0))
  | "last" => some (.bool (index + 1 == length))
  | "length" => some (.int length)
  | "depth" => some (.int 1)
  | "depth0" => some (.int 0)
  | _ => none

def Value.noAttribute (v : Value) (name : String) : Value :=
  .missing (.undefined (Text.quoted v.kind ++ " has no attribute " ++ Text.quoted name))

def Value.noItem (v index : Value) : Value :=
  .missing (.undefined (v.kind ++ " has no element " ++ index.literal))

/-- An attribute that a value has. -/
def Value.attribute? (v : Value) (name : String) : Option Value :=
  if v.hides name then some (.missing .hidden)
  else match v with
    | .text s => (TextMethod.ofName? name).map (.method s)
    | .bound s =>
      ((inflections.lookup name).map fun f => Value.bound (.ofList (f s.toList))).or
        ((TextMethod.ofName? name).map (.method s))
    | .record fields =>
      (fields.lookup name).map fun v => if name.startsWith "_" then .missing .hidden else v
    | .loop index length => loopField? index length name
    | _ => none

/-- What stands behind a dot. -/
def Value.attribute (v : Value) (name : String) : Except RenderError Value :=
  match v, v.attribute? name with
  | _, some a => .ok a
  | .missing m, none => .error m.error
  | v, none => .ok (v.noAttribute name)

/-- The item of a list at a place, from the end when it is negative. -/
def itemAt? {α : Type} (xs : List α) (i : Int) : Option α :=
  let i := if i < 0 then i + xs.length else i
  if i < 0 then none else xs[i.toNat]?

/-- An item that a value has. -/
def Value.item? (v index : Value) : Option Value :=
  match v, index.int?, index.text? with
  | .text s, some i, _ => (itemAt? s.toList i).map fun c => .text (.singleton c)
  | .bound s, some i, _ => (itemAt? s.toList i).map fun c => .text (.singleton c)
  | .list vs, some i, _ => itemAt? vs i
  | .tuple vs, some i, _ => itemAt? vs i
  | .record fields, _, some k => fields.lookup k
  | _, _, _ => none

/-- What stands in square brackets. -/
def Value.item (v index : Value) : Except RenderError Value :=
  match v, index with
  | .missing m, _ => .error m.error
  | .record _, .missing m => .error m.error
  | _, _ =>
    match v.item? index, index.text? with
    | some i, _ => .ok i
    | none, some name => .ok ((v.attribute? name).getD (v.noAttribute name))
    | none, none => .ok (v.noItem index)

/-- A bound of a slice. -/
def sliceBound : Value → Except RenderError (Option Int)
  | .nothing => .ok none
  | v =>
    match v.int? with
    | some i => .ok (some i)
    | none => .error .type

/-- The items from one place to another. -/
def Value.slice (v start stop step : Value) : Except RenderError Value :=
  let part := fun {α : Type} (xs : List α) (make : List α → Value) => do
    let (start, stop, step) := (← sliceBound start, ← sliceBound stop, ← sliceBound step)
    match Text.slice xs start stop step with
    | some xs => return make xs
    | none => throw RenderError.value
  match v with
  | .text s => part s.toList fun cs => .text (.ofList cs)
  | .bound s => part s.toList fun cs => .text (.ofList cs)
  | .list vs => part vs .list
  | .tuple vs => part vs .tuple
  | .missing m => .error m.error
  | _ => .error .type

end RbsSynth.Template
