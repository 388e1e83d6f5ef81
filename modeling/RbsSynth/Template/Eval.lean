import RbsSynth.Template.Filters
import RbsSynth.Template.Operators

/-!
Evaluation of expressions.

Operands are evaluated from the left, and all of them before what is done with them fails; only
`and`, `or`, a chain of comparisons and a choice leave out what they do not need.
-/

namespace RbsSynth.Template

/-- The variables in sight, those of inner scopes first. -/
abbrev Scope := List (String × Value)

def Literal.value : Literal → Value
  | .none => .nothing
  | .bool b => .bool b
  | .int n => .int n
  | .decimal digits e => (Number.ofDigits digits e).value
  | .string s => .text s

def Scope.value (scope : Scope) (n : String) : Value :=
  (scope.lookup n).getD (.missing (.undefined (Text.quoted n ++ " is undefined")))

/-- What stands for a choice whose condition failed. -/
def skippedAt (line : Nat) : Value :=
  .missing (.skipped ("the inline if-expression on line " ++ toString line
    ++ " evaluated to false and no else section was defined."))

def callValue (f : Value) (args : List Value) (named : List (String × Value)) :
    Except RenderError Value :=
  match f with
  | .method s m => callMethod s m args named
  | .missing m => .error m.error
  | _ => .error .type

mutual

def eval (scope : Scope) (e : Expr) : Except RenderError Value :=
  match e with
  | .literal l => .ok l.value
  | .name n => .ok (scope.value n)
  | .list items => do return .list (← evalAll scope items)
  | .tuple items => do return .tuple (← evalAll scope items)
  | .attribute e n => do (← eval scope e).attribute n
  | .item e index => do
    let v ← eval scope e
    v.item (← eval scope index)
  | .slice e start stop step => do
    let v ← eval scope e
    let start ← evalOption scope start
    let stop ← evalOption scope stop
    v.slice start stop (← evalOption scope step)
  | .call f args named => do
    let f ← eval scope f
    let args ← evalAll scope args
    callValue f args (← evalNamed scope named)
  | .filter n e args named => do
    let v ← eval scope e
    let args ← evalAll scope args
    let named ← evalNamed scope named
    match Filter.ofName? n with
    | some f => f.run v args named
    | none => throw .unknownAtUse
  | .test n e args named => do
    let v ← eval scope e
    let args ← evalAll scope args
    let named ← evalNamed scope named
    match testOf? n with
    | some holds =>
      let _ ← assign [] 0 args named
      return .bool (holds v)
    | none => throw .unknownAtUse
  | .neg e => do applySign true (← eval scope e)
  | .pos e => do applySign false (← eval scope e)
  | .not e => do return .bool !(← (← eval scope e).truth)
  | .and a b => do
    let v ← eval scope a
    if ← v.truth then eval scope b else return v
  | .or a b => do
    let v ← eval scope a
    if ← v.truth then return v else eval scope b
  | .binary op a b => do
    let v ← eval scope a
    applyBinary op v (← eval scope b)
  | .concat items => do
    let vs ← evalAll scope items
    return .text (.join (← displayAll vs))
  | .compare e rest => do evalChain scope (← eval scope e) rest
  | .choose test e otherwise line => do
    if ← (← eval scope test).truth then eval scope e
    else match otherwise with
      | some e => eval scope e
      | none => return skippedAt line
termination_by structural e

def evalAll (scope : Scope) (es : List Expr) : Except RenderError (List Value) :=
  match es with
  | [] => .ok []
  | e :: es => do
    let v ← eval scope e
    return v :: (← evalAll scope es)
termination_by structural es

def evalNamed (scope : Scope) (es : List (String × Expr)) :
    Except RenderError (List (String × Value)) :=
  match es with
  | [] => .ok []
  | (n, e) :: es => do
    let v ← eval scope e
    return (n, v) :: (← evalNamed scope es)
termination_by structural es

/-- A bound of a slice. -/
def evalOption (scope : Scope) (e : Option Expr) : Except RenderError Value :=
  match e with
  | some e => eval scope e
  | none => .ok .nothing
termination_by structural e

/-- Comparisons from a value on; the first that fails ends the chain. -/
def evalChain (scope : Scope) (v : Value) (rest : List (Comparison × Expr)) :
    Except RenderError Value :=
  match rest with
  | [] => .ok (.bool true)
  | (c, e) :: rest => do
    let w ← eval scope e
    if ← compareValues c v w then evalChain scope w rest else return .bool false
termination_by structural rest

end

end RbsSynth.Template
