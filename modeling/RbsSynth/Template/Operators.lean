import RbsSynth.Template.Expr
import RbsSynth.Template.Number

/-!
Operators on values.

Every operator fails on a missing value with that value's error, the left one's first.
-/

namespace RbsSynth.Template

/-! ## Comparisons -/

mutual

/-- Whether two values are equal.  Truth values count as numbers. -/
def Value.equals (a b : Value) : Except RenderError Bool :=
  match a, b with
  | .missing (.skipped _), .missing (.skipped _) => .ok true
  | .missing (.skipped _), .missing m => .error m.error
  | .missing (.skipped _), _ => .ok false
  | .missing m, _ => .error m.error
  | _, .missing (.skipped _) => .ok false
  | _, .missing m => .error m.error
  | .nothing, .nothing => .ok true
  | .list as, .list bs => listEquals as bs
  | .tuple as, .tuple bs => listEquals as bs
  | .record as, .record bs => fieldsEqual as bs
  | a, b =>
    match a.text?, b.text?, a.number?, b.number? with
    | some s, some t, _, _ => .ok (s == t)
    | _, _, some m, some n => .ok (m.equals n)
    | _, _, _, _ => .ok false
termination_by structural a

def listEquals (as bs : List Value) : Except RenderError Bool :=
  match as, bs with
  | [], [] => .ok true
  | a :: as, b :: bs => do if ← a.equals b then listEquals as bs else return false
  | _, _ => .ok false
termination_by structural as

def fieldsEqual (as bs : List (String × Value)) : Except RenderError Bool :=
  match as, bs with
  | [], [] => .ok true
  | (k, a) :: as, (l, b) :: bs => do
    if k = l then if ← a.equals b then fieldsEqual as bs else return false else return false
  | _, _ => .ok false
termination_by structural as

end

/-- What comes first where two lists differ. -/
inductive Order
  | less | same | greater
deriving DecidableEq

def orderOf (same below : Bool) : Order :=
  if same then .same else if below then .less else .greater

mutual

/-- How two values of one kind are ordered. -/
def Value.order (a b : Value) : Except RenderError Order :=
  match a, b with
  | .missing m, _ => .error m.error
  | _, .missing m => .error m.error
  | .list as, .list bs => listOrder as bs
  | .tuple as, .tuple bs => listOrder as bs
  | a, b =>
    match a.text?, b.text?, a.number?, b.number? with
    | some s, some t, _, _ => .ok (orderOf (s == t) (s < t))
    | _, _, some m, some n => .ok (orderOf (m.equals n) (m.below n))
    | _, _, _, _ => .error .type
termination_by structural a

def listOrder (as bs : List Value) : Except RenderError Order :=
  match as, bs with
  | [], [] => .ok .same
  | [], _ :: _ => .ok .less
  | _ :: _, [] => .ok .greater
  | a :: as, b :: bs => do if ← a.equals b then listOrder as bs else a.order b
termination_by structural as

end

/-- Whether a value is among others. -/
def amongValues (a : Value) : List Value → Except RenderError Bool
  | [] => .ok false
  | b :: bs => do if ← b.equals a then return true else amongValues a bs

/-- Whether a value is in another: a part of a text, an item of a list, or a key of a record. -/
def Value.isWithin (a b : Value) : Except RenderError Bool :=
  match b with
  | .missing (.skipped _) => .ok false
  | .missing m => .error m.error
  | .list vs => amongValues a vs
  | .tuple vs => amongValues a vs
  | .record fields =>
    match a with
    | .missing (.skipped _) => .ok false
    | .missing m => .error m.error
    | .list _ => .error .type
    | a => .ok ((a.text?.bind (fields.lookup ·)).isSome)
  | b =>
    match b.text?, a.text? with
    | some s, some part => .ok (Text.occursIn part.toList s.toList)
    | _, _ => .error .type

def compareValues (c : Comparison) (a b : Value) : Except RenderError Bool :=
  match c with
  | .equal => a.equals b
  | .unequal => return !(← a.equals b)
  | .below => return (← a.order b) == .less
  | .atMost => return (← a.order b) != .greater
  | .above => return (← a.order b) == .greater
  | .atLeast => return (← a.order b) != .less
  | .within => a.isWithin b
  | .notWithin => return !(← a.isWithin b)

/-! ## Arithmetic -/

/-- A list so many times; none at all if the number is negative. -/
def times {α : Type} (xs : List α) (n : Int) : List α := (List.replicate n.toNat xs).flatten

/-- A text or list so many times. -/
def repeated? (n : Int) : Value → Option Value
  | .text s => some (.text (.ofList (times s.toList n)))
  | .bound s => some (.text (.ofList (times s.toList n)))
  | .list vs => some (.list (times vs n))
  | .tuple vs => some (.tuple (times vs n))
  | _ => none

/-- An operation on numbers. -/
def onNumbers (f : Number → Number → Except RenderError Number) (a b : Value) :
    Except RenderError Value :=
  match a.number?, b.number? with
  | some m, some n => return (← f m n).value
  | _, _ => .error .type

def addValues (a b : Value) : Except RenderError Value :=
  match a, b with
  | .list as, .list bs => .ok (.list (as ++ bs))
  | .tuple as, .tuple bs => .ok (.tuple (as ++ bs))
  | a, b =>
    match a.text?, b.text? with
    | some s, some t => .ok (.text (s ++ t))
    | _, _ => onNumbers Number.add a b

def mulValues (a b : Value) : Except RenderError Value :=
  match a.int?.bind (repeated? · b), b.int?.bind (repeated? · a) with
  | some v, _ => .ok v
  | none, some v => .ok v
  | none, none => onNumbers Number.mul a b

/-- Applies an operator. -/
def applyBinary (op : Binary) (a b : Value) : Except RenderError Value :=
  match a, b with
  | .missing m, _ => .error m.error
  | _, .missing m => .error m.error
  | a, b =>
    match op with
    | .add => addValues a b
    | .sub => onNumbers Number.sub a b
    | .mul => mulValues a b
    | .div => onNumbers Number.div a b
    | .floorDiv => onNumbers Number.floorDiv a b
    | .mod => onNumbers Number.mod a b
    | .pow => onNumbers Number.pow a b

/-- A number with a sign. -/
def applySign (negative : Bool) (v : Value) : Except RenderError Value :=
  match v, v.number? with
  | .missing m, _ => .error m.error
  | _, some n => .ok (if negative then n.neg else n).value
  | _, none => .error .type

end RbsSynth.Template
