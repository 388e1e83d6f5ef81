import RbsSynth.Template.Access
import RbsSynth.Text.Case

/-!
Filters, tests, and what can be called on texts.

A filter gives a plain text, which has no inflections as attributes.  Only an inflection that leaves
its argument as it is gives that argument back.
-/

namespace RbsSynth.Template

/-! ## Arguments -/

/-- The arguments of a call for its parameters, of which so many must be given. -/
def assign (params : List String) (required : Nat) (args : List Value)
    (named : List (String × Value)) : Except RenderError (List (Option Value)) :=
  let given := params.zipIdx.map fun (p, i) => (args[i]?).or (named.lookup p)
  let fits := args.length ≤ params.length &&
    named.all (fun (n, _) => (params.drop args.length).contains n) &&
    (given.take required).all Option.isSome
  if fits then .ok given else .error .type

/-- How often to replace or cut; a negative number means always. -/
def countOf (v : Option Value) : Except RenderError (Option Nat) :=
  match v with
  | none => .ok none
  | some v =>
    match v.int? with
    | some n => .ok (if n < 0 then none else some n.toNat)
    | none => .error .type

def textOf (v : Value) : Except RenderError String :=
  match v.text? with
  | some s => .ok s
  | none => .error .type

/-! ## Calls on texts -/

/-- Whether a text, or one of several, stands at an end of another. -/
def meetsEnd (isAt : List Char → List Char → Bool) (cs : List Char) :
    Value → Except RenderError Bool
  | .tuple vs => do
    let parts ← vs.mapM textOf
    return parts.any fun s => isAt s.toList cs
  | v => do return isAt (← textOf v).toList cs

/-- The part of a text in which an end is looked for; there is none when it would start behind the
end. -/
def partOf? (s : String) (start stop : Option Value) : Except RenderError (Option (List Char)) := do
  let start ← sliceBound (start.getD .nothing)
  let stop ← sliceBound (stop.getD .nothing)
  if start.any (fun i : Int => s.length < i) then return none
  return Text.slice s.toList start stop none

def callMethod (s : String) (m : TextMethod) (args : List Value) (named : List (String × Value)) :
    Except RenderError Value := do
  let plain := fun f : List Char → List Char => do
    let _ ← assign [] 0 args named
    return Value.text (.ofList (f s.toList))
  let atEnd := fun isAt : List Char → List Char → Bool => do
    if !named.isEmpty then throw RenderError.type
    match ← assign ["part", "start", "stop"] 1 args [] with
    | [some part, start, stop] =>
      let found ← meetsEnd isAt [] part *> match ← partOf? s start stop with
        | some cs => meetsEnd isAt cs part
        | none => .ok false
      return Value.bool found
    | _ => throw RenderError.type
  match m with
  | .capitalize => plain Text.capitalize
  | .upper => plain Text.upper
  | .lower => plain Text.lower
  | .swapCase => plain Text.swapCase
  | .startsWith => atEnd List.isPrefixOf
  | .endsWith => atEnd List.isSuffixOf
  | .replace =>
    if !named.isEmpty then throw RenderError.type
    match ← assign ["old", "new", "count"] 2 args [] with
    | [some old, some new, count] =>
      let (old, new) := (← textOf old, ← textOf new)
      return .text (.ofList (Text.replace old.toList new.toList (← countOf count) s.toList))
    | _ => throw RenderError.type
  | .strip =>
    if !named.isEmpty then throw RenderError.type
    match ← assign ["chars"] 0 args [] with
    | [some .nothing] | [none] => return .text (.ofList (Text.trim s.toList))
    | [some chars] => return .text (.ofList (Text.trimOf (← textOf chars).toList s.toList))
    | _ => throw RenderError.type
  | .split =>
    match ← assign ["sep", "maxsplit"] 0 args named with
    | [some .nothing, count] | [none, count] =>
      return .list ((Text.words (← countOf count) s.toList).map fun w => .text (.ofList w))
    | [some sep, count] =>
      let sep ← textOf sep
      let count ← countOf count
      if sep = "" then throw RenderError.value
      return .list ((Text.pieces sep.toList count s.toList).map fun w => .text (.ofList w))
    | _ => throw RenderError.type

/-! ## Filters -/

/-- The inflections that give their argument back when they leave it as it is. -/
def inflectOrKeep (f : List Char → Option (List Char)) (v : Value) : Except RenderError Value := do
  if !(← v.truth) then return v
  match f (← textOf v).toList with
  | some cs => return .text (.ofList cs)
  | none => return v

/-- An inflection that starts with a call on its argument, which is missing on other values. -/
def inflectText (f : List Char → List Char) (first : String) :
    Value → Except RenderError Value
  | .missing m => .error m.error
  | .record fields => .error (if (fields.lookup first).isSome then .type else .attribute)
  | v =>
    match v.text? with
    | some s => .ok (.text (.ofList (f s.toList)))
    | none => .error .attribute

def camelizeValue (v : Value) (upperFirst : Option Value) : Except RenderError Value := do
  let full ← (upperFirst.getD (.bool true)).truth
  match v, v.text? with
  | _, some s =>
    return .text (.ofList (if full then Inflection.camelize s.toList
      else Inflection.camelizeLower s.toList))
  | .missing m, none => throw (if full then .type else m.error)
  | _, none => throw RenderError.type

/-- The text that a value prints, changed. -/
def changeText (f : List Char → List Char) (v : Value) : Except RenderError Value := do
  return .text (.ofList (f (← v.display).toList))

def lengthOf : Value → Except RenderError Value
  | .text s => .ok (.int s.length)
  | .bound s => .ok (.int s.length)
  | .list vs => .ok (.int vs.length)
  | .tuple vs => .ok (.int vs.length)
  | .loop _ length => .ok (.int length)
  | .missing (.skipped _) => .ok (.int 0)
  | .missing m => .error m.error
  | _ => .error .type

/-- The items of a value as the last one is looked for; records have no length. -/
def itemsFromEnd : Value → Except RenderError (List Value)
  | .record _ => .error .type
  | v => v.items

def itemOr (v : Option Value) (why : String) : Value := v.getD (.missing (.undefined why))

def joinValues (v : Value) (d : Value) : Except RenderError Value := do
  let d ← d.display
  return .text (Text.join d (← displayAll (← v.items)))

def isMissing : Value → Bool
  | .missing _ => true
  | _ => false

def defaultFor (v : Value) (other : Value) (whenFalse : Value) : Except RenderError Value := do
  if isMissing v then return other
  if ← whenFalse.truth then return if ← v.truth then v else other
  return v

/-- Puts a text in place of another in what a value prints. -/
def replaceIn (v old new : Value) (count : Option Value) : Except RenderError Value := do
  let count := if count matches some .nothing then none else count
  let s ← v.display
  let old ← old.display
  let new ← new.display
  return .text (.ofList (Text.replace old.toList new.toList (← countOf count) s.toList))

/-- Leaves blanks, or the given characters, out at both ends of what a value prints. -/
def trimValue (v : Value) : Option Value → Except RenderError Value
  | none | some .nothing => changeText Text.trim v
  | some chars => do
    let s ← v.display
    return .text (.ofList (Text.trimOf (← textOf chars).toList s.toList))

/-- A filter: its parameters behind the filtered value, how many of them must be given, and what it
does. -/
structure Filter where
  params : List String
  required : Nat
  apply : Value → List (Option Value) → Except RenderError Value

/-- A filter without parameters. -/
def Filter.plain (f : Value → Except RenderError Value) : Filter := ⟨[], 0, fun v _ => f v⟩

/-- The value of a parameter, or what it is when it is not given. -/
def param (args : List (Option Value)) (i : Nat) (default : Value) : Value :=
  ((args[i]?).join).getD default

def Filter.ofName? : String → Option Filter
  | "pluralize" => some (.plain (inflectOrKeep Inflection.pluralize?))
  | "singularize" => some (.plain (inflectOrKeep Inflection.singularize?))
  | "camelize" => some ⟨["uppercase_first_letter"], 0, fun v args => camelizeValue v args[0]?.join⟩
  | "underscore" => some (.plain (inflectText Inflection.underscore "replace"))
  | "classify" => some (.plain (inflectText Inflection.classify "rsplit"))
  | "tableize" => some (.plain (inflectText Inflection.tableize "replace"))
  | "upcase" => some (.plain fun v => do changeText Text.upper (.text (← textOf v)))
  | "downcase" => some (.plain fun v => do changeText Text.lower (.text (← textOf v)))
  | "upper" => some (.plain (changeText Text.upper))
  | "lower" => some (.plain (changeText Text.lower))
  | "capitalize" => some (.plain (changeText Text.capitalize))
  | "length" | "count" => some (.plain lengthOf)
  | "first" => some (.plain fun v => do
      return itemOr (← v.items).head? "No first item, sequence was empty.")
  | "last" => some (.plain fun v => do
      return itemOr (← itemsFromEnd v).getLast? "No last item, sequence was empty.")
  | "trim" => some ⟨["chars"], 0, fun v args => trimValue v args[0]?.join⟩
  | "replace" => some ⟨["old", "new", "count"], 2, fun v args =>
      replaceIn v (param args 0 .nothing) (param args 1 .nothing) args[2]?.join⟩
  | "join" => some ⟨["d"], 0, fun v args => joinValues v (param args 0 (.text ""))⟩
  | "default" | "d" => some ⟨["default_value", "boolean"], 0, fun v args =>
      defaultFor v (param args 0 (.text "")) (param args 1 (.bool false))⟩
  | _ => none

def Filter.run (f : Filter) (v : Value) (args : List Value) (named : List (String × Value)) :
    Except RenderError Value := do
  f.apply v (← assign f.params f.required args named)

/-- The tests on values. -/
def testOf? : String → Option (Value → Bool)
  | "defined" => some fun v => !isMissing v
  | "undefined" => some isMissing
  | _ => none

end RbsSynth.Template
