import RbsSynth.Lr.Row

/-!
A shift/reduce machine over a table.

The stack has the newest frame first; below its last frame the machine is in state `0`.  Before a
terminal, `settle` makes the reductions that the table asks for and ends in one of three ways: the
terminal can be shifted, the whole text is accepted, or the terminal is refused, with the stack that
the reductions left.
-/

namespace RbsSynth.Lr

structure Frame (α : Type) where
  state : Nat
  value : α

structure Machine (α : Type) where
  rows : Array Row
  /-- The nonterminal that each production writes, and the length of its body. -/
  productions : Array (Nat × Nat)
  /-- The value of a production, from the values of its body. -/
  build : Nat → List α → Option α

inductive Verdict (α : Type)
  | shift (state : Nat) (stack : List (Frame α))
  | accept (stack : List (Frame α))
  | refuse (stack : List (Frame α))

variable {α : Type}

def top : List (Frame α) → Nat
  | [] => 0
  | f :: _ => f.state

namespace Machine

variable (m : Machine α)

def row? (stack : List (Frame α)) : Option Row := m.rows[top stack]?

/-- The stack with the body of a production replaced by its value. -/
def reduce (production : Nat) (stack : List (Frame α)) : Option (List (Frame α)) := do
  let (head, arity) ← m.productions[production]?
  let value ← m.build production ((stack.take arity).reverse.map (·.value))
  let below := stack.drop arity
  let row ← m.row? below
  let state ← row.goto? head
  return ⟨state, value⟩ :: below

/-- Makes at most `n` moves before the terminal `t`. -/
def settleIn (t : Nat) : Nat → List (Frame α) → Verdict α
  | 0, stack => .refuse stack
  | n + 1, stack =>
    match (m.row? stack).bind (·.action? t) with
    | none => .refuse stack
    | some (.shift state) => .shift state stack
    | some (.reduce 0) => .accept stack
    | some (.reduce p) =>
      match m.reduce p stack with
      | none => .refuse stack
      | some stack' => settleIn t n stack'

theorem settleIn_succ (t n : Nat) (stack : List (Frame α)) :
    m.settleIn t (n + 1) stack =
      match (m.row? stack).bind (·.action? t) with
      | none => .refuse stack
      | some (.shift state) => .shift state stack
      | some (.reduce 0) => .accept stack
      | some (.reduce p) =>
        match m.reduce p stack with
        | none => .refuse stack
        | some stack' => m.settleIn t n stack' := by
  rw [settleIn]

/-- A reduction makes the stack lower or moves up a chain of productions, so that the moves before
one terminal are at most as many as there are states, for each frame. -/
def settle (t : Nat) (stack : List (Frame α)) : Verdict α :=
  m.settleIn t ((stack.length + 1) * m.rows.size) stack

end Machine

end RbsSynth.Lr
