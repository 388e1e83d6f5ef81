import RbsSynth.Analysis.Tree
import RbsSynth.Json

/-!
Syntax trees written in JSON.

A node is `[kind, start, stop, field, flags, children]`.  The flags are the sum of 1 for a named
node, 2 for a missing and 4 for a faulty one.  Nodes are numbered from zero, each before its
children.
-/

namespace RbsSynth.Analysis

def natOf? : Json → Option Nat
  | .number n => n.toNat?
  | _ => none

namespace Tree

mutual

/-- Reads a node whose number is `next`; also gives the number of the node after its subtree. -/
def read : Nat → Json → Option (Nat × Tree)
  | next, .array [.string kind, start, stop, .string field, flags, .array children] => do
    let bits ← natOf? flags
    let start ← natOf? start
    let stop ← natOf? stop
    let (after, children) ← readAll (next + 1) children
    return (after, { id := next, kind, start, stop, field, named := bits % 2 = 1,
                     missing := bits / 2 % 2 = 1, faulty := bits / 4 % 2 = 1, children })
  | _, _ => none

def readAll : Nat → List Json → Option (Nat × List Tree)
  | next, [] => some (next, [])
  | next, j :: js => do
    let (next, t) ← read next j
    let (next, ts) ← readAll next js
    return (next, t :: ts)

end

def ofJson? (j : Json) : Option Tree := (read 0 j).map (·.2)

end Tree

end RbsSynth.Analysis
