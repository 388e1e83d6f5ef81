import RbsSynth.Generation.Fragment

/-!
The walk through a program that generates fragments.

Each node comes before those under it.  A matched call gives one emission for each template of each of
its declared methods.  Nodes under a matched call are visited only when it passes a block; then the
call stands around them.
-/

namespace RbsSynth

/-- A template that is to be expanded, and its context. -/
structure Emission where
  target : String
  template : String
  context : Context
  method : String

namespace Emission

/-- The emissions of one matched call. -/
def ofCall (stack : List (Call × Resolution)) (c : Call) (r : Resolution) : List Emission :=
  r.declarations.flatMap fun d =>
    d.templates.map fun t => ⟨d.owner, t, Context.ofCall stack c d, r.method⟩

def expand (e : Emission) : Except ExpansionError Fragment :=
  Fragment.expand e.target e.template e.context e.method

end Emission

/-- The resolution of a call that is matched. -/
def Typing.matched? (typing : Typing) (id : Nat) : Option Resolution :=
  (typing.of? id).filter (·.kind = .ofMatched)

mutual

/-- The emissions of a node and those under it, the calls around it being given outermost first. -/
def ProgramNode.emissions (typing : Typing) (stack : List (Call × Resolution)) : ProgramNode → List Emission
  | .call c => c.emissions typing stack
  | .other _ _ _ children => emissionsOfAll typing stack children
termination_by structural n => n

def Call.emissions (typing : Typing) (stack : List (Call × Resolution)) : Call → List Emission
  | ⟨id, method, receiver, arguments, values, block, text⟩ =>
    let c : Call := ⟨id, method, receiver, arguments, values, block, text⟩
    let under := fun stack =>
      emissionsOfReceiver typing stack receiver ++ emissionsOfAll typing stack arguments
        ++ emissionsOfBlock typing stack block
    match typing.matched? id with
    | none => under stack
    | some r =>
      Emission.ofCall stack c r ++ if block.isSome then under (stack ++ [(c, r)]) else []
termination_by structural c => c

def emissionsOfReceiver (typing : Typing) (stack : List (Call × Resolution)) :
    Option ProgramNode → List Emission
  | none => []
  | some n => n.emissions typing stack
termination_by structural n => n

def emissionsOfBlock (typing : Typing) (stack : List (Call × Resolution)) :
    Option CallBlock → List Emission
  | none => []
  | some b => b.emissions typing stack
termination_by structural b => b

def CallBlock.emissions (typing : Typing) (stack : List (Call × Resolution)) :
    CallBlock → List Emission
  | ⟨_, body⟩ => emissionsOfAll typing stack body
termination_by structural b => b

def emissionsOfAll (typing : Typing) (stack : List (Call × Resolution)) : List ProgramNode → List Emission
  | [] => []
  | n :: ns => n.emissions typing stack ++ emissionsOfAll typing stack ns
termination_by structural ns => ns

end

/-- Expands emissions up to the first that fails, if one does. -/
def expandAll : List Emission → List Fragment × Option ExpansionError
  | [] => ([], none)
  | e :: rest =>
    match e.expand with
    | .error failure => ([], some failure)
    | .ok f =>
      let (fs, failure) := expandAll rest
      (f :: fs, failure)

/-- The fragments of a program up to the first template that fails, and that failure. -/
def traverse (typing : Typing) (root : ProgramNode) : List Fragment × Option ExpansionError :=
  expandAll (root.emissions typing [])

end RbsSynth
