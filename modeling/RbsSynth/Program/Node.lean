/-!
Programs.

A program is a tree of calls and other nodes.  Every node has a number, by which what is known of a
call is found.  `values` are the literal values of a call's positional arguments.
-/

namespace RbsSynth

mutual

inductive ProgramNode
  | call (c : Call)
  | other (id : Nat) (kind literal : String) (children : List ProgramNode)

structure Call where
  id : Nat
  method : String
  receiver : Option ProgramNode
  arguments : List ProgramNode
  values : List String
  block : Option CallBlock
  text : String

/-- A literal block that a call passes. -/
structure CallBlock where
  parameters : List String
  body : List ProgramNode

end

/-- The nodes of a call before its block. -/
def Call.head (c : Call) : List ProgramNode := c.receiver.toList ++ c.arguments

def Call.children (c : Call) : List ProgramNode :=
  c.head ++ match c.block with
    | some b => b.body
    | none => []

namespace ProgramNode

def id : ProgramNode → Nat
  | call c => c.id
  | other id _ _ _ => id

def children : ProgramNode → List ProgramNode
  | call c => c.children
  | other _ _ _ children => children

end ProgramNode

mutual

/-- A node and all nodes under it, each before those under it. -/
def ProgramNode.walk : ProgramNode → List ProgramNode
  | .call c => .call c :: c.walkUnder
  | .other id kind literal children => .other id kind literal children :: walkAll children
termination_by structural n => n

/-- The nodes under a call. -/
def Call.walkUnder : Call → List ProgramNode
  | ⟨_, _, receiver, arguments, _, block, _⟩ =>
    walkReceiver receiver ++ walkAll arguments ++ walkBlock block
termination_by structural c => c

def walkReceiver : Option ProgramNode → List ProgramNode
  | none => []
  | some n => n.walk
termination_by structural n => n

def walkBlock : Option CallBlock → List ProgramNode
  | none => []
  | some b => b.walk
termination_by structural b => b

def CallBlock.walk : CallBlock → List ProgramNode
  | ⟨_, body⟩ => walkAll body
termination_by structural b => b

def walkAll : List ProgramNode → List ProgramNode
  | [] => []
  | n :: ns => n.walk ++ walkAll ns
termination_by structural ns => ns

end

/-- The calls of a program, each before those under it. -/
def ProgramNode.calls (n : ProgramNode) : List Call :=
  n.walk.filterMap fun
    | .call c => some c
    | .other _ _ _ _ => none

end RbsSynth
