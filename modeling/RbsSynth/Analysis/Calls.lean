import RbsSynth.Analysis.Types
import RbsSynth.Program.Resolution

/-!
Resolution of single calls.

A method is looked up on every member of the receiver's type.  If one of them lacks it, or none of its
overloads takes the arguments, the call is absent.
-/

namespace RbsSynth.Analysis

open Signature

/-- The overload that was chosen for one member of the receiver's type. -/
structure Match where
  member : TypeExpr
  entry : MethodEntry
  overload : MethodType

/-- What is known of the arguments of a call. -/
structure Arguments where
  positional : Nat := 0
  /-- There is an argument that stands for an unknown number of them. -/
  splat : Bool := false
  /-- There are arguments with keys. -/
  pairs : Bool := false

/-- Where methods of a type are looked up. -/
def lookupOf : TypeExpr → Option (String × Side)
  | .classInstance n _ => some (n.qualified, .ofInstance)
  | .interfaceInstance n _ => some (n.qualified, .ofInstance)
  | .classSingleton n => some (n.qualified, .ofSingleton)
  | _ => none

/-- Whether an overload takes the arguments.  Pairs make one more argument where there are no
keywords. -/
def takes (args : Arguments) (m : MethodType) : Bool :=
  let f := m.function
  let keywords := !f.requiredKeywords.isEmpty || !f.optionalKeywords.isEmpty || f.restKeywords.isSome
  args.splat || f.acceptsPositional
    (if args.pairs && !keywords then args.positional + 1 else args.positional)

/-- The first overload that takes the arguments, for a member of the receiver's type. -/
def matchMember? (env : Environment) (method : String) (args : Arguments) (member : TypeExpr) :
    Option Match := do
  let (name, side) ← lookupOf member
  let entry ← env.findMethod? name method side
  let overload ← entry.overloads.find? (takes args)
  return ⟨member, entry, overload⟩

/-- The matches of all members, if every member has one. -/
def matchAll? (env : Environment) (method : String) (args : Arguments) :
    List TypeExpr → Option (List Match)
  | [] => some []
  | t :: ts => do
    let m ← matchMember? env method args t
    return m :: (← matchAll? env method args ts)

def Match.declaration (m : Match) : MatchedMethod where
  owner := m.entry.owner
  method := m.entry.name
  side := m.entry.side
  required := m.overload.function.required.map (·.name)
  templates := m.entry.templates
  annotations := m.entry.annotations

/-- The declarations behind matches, each once. -/
def declarationsOf (ms : List Match) : List MatchedMethod :=
  ms.foldl (fun ds m => if ds.contains m.declaration then ds else ds ++ [m.declaration]) []

/-- The resolution of a call on a receiver, and its matches. -/
def resolveCall (env : Environment) (method : String) (receiver : Option TypeExpr)
    (args : Arguments) : Except ResolutionError (Resolution × List Match) :=
  match receiver.bind receiverTypes? with
  | none => .ok (.dynamic method, [])
  | some members =>
    match matchAll? env method args members with
    | none => .ok (.absent method, [])
    | some ms => do
      let r ← Resolution.ofKind .ofMatched method (declarationsOf ms)
      return (r, ms)

/-- What one match gives; `new` of a class gives its instance. -/
def Match.result (env : Environment) (method : String) (m : Match) : Option TypeExpr :=
  match m.member with
  | .classSingleton n =>
    if method = "new" ∧ m.entry.owner = "Class" then some (.classInstance n [])
    else env.returnType m.entry m.overload (some m.member)
  | t => env.returnType m.entry m.overload (some t)

/-- The type of what a call gives. -/
def resultType (env : Environment) (method : String) (ms : List Match) : Option TypeExpr :=
  unionOf (ms.map (Match.result env method))

end RbsSynth.Analysis
