import RbsSynth.Environment.Ancestors

/-!
What the calls of a program are resolved to.

A call is matched with at least one declared method; or its receiver is known and has no such method,
so the call is absent; or the receiver is not known, so the call is dynamic.
-/

namespace RbsSynth

/-- A declared method that a call was resolved to. -/
structure MatchedMethod where
  owner : String
  method : String
  side : Side
  /-- The names of the required parameters, where they have one. -/
  required : List (Option String)
  templates : List String
  annotations : List String
  deriving DecidableEq

inductive Resolution
  | absent (method : String)
  | dynamic (method : String)
  | matched (method : String) (first : MatchedMethod) (rest : List MatchedMethod)
  deriving DecidableEq

inductive ResolutionKind
  | ofAbsent | ofDynamic | ofMatched
  deriving DecidableEq

def ResolutionKind.word : ResolutionKind → String
  | ofAbsent => "absent"
  | ofDynamic => "dynamic"
  | ofMatched => "matched"

/-- Declarations that do not go with a kind of resolution. -/
inductive ResolutionError
  | noDeclaration
  | declarations (kind : ResolutionKind)
  deriving DecidableEq

def ResolutionError.message : ResolutionError → String
  | noDeclaration => "a matched resolution needs at least one declaration"
  | declarations kind => "a " ++ kind.word ++ " resolution carries no declarations"

namespace Resolution

/-- The resolution of a kind, if the declarations go with it. -/
def ofKind (kind : ResolutionKind) (method : String) (ds : List MatchedMethod) :
    Except ResolutionError Resolution :=
  match kind, ds with
  | .ofMatched, d :: ds => .ok (.matched method d ds)
  | .ofMatched, [] => .error .noDeclaration
  | .ofAbsent, [] => .ok (.absent method)
  | .ofDynamic, [] => .ok (.dynamic method)
  | kind, _ :: _ => .error (.declarations kind)

def kind : Resolution → ResolutionKind
  | absent _ => .ofAbsent
  | dynamic _ => .ofDynamic
  | matched _ _ _ => .ofMatched

/-- The name of the method as it was called. -/
def method : Resolution → String
  | absent m => m
  | dynamic m => m
  | matched m _ _ => m

def declarations : Resolution → List MatchedMethod
  | matched _ d ds => d :: ds
  | _ => []

end Resolution

/-- What is known of the calls of a program, by the numbers of their nodes. -/
abbrev Typing := List (Nat × Resolution)

namespace Typing

def of? (typing : Typing) (id : Nat) : Option Resolution := typing.lookup id

/-- Records a resolution, in the place of what was known of the node. -/
def record (id : Nat) (r : Resolution) : Typing → Typing
  | [] => [(id, r)]
  | (i, s) :: rest => if i = id then (i, r) :: rest else (i, s) :: record id r rest

end Typing

end RbsSynth
