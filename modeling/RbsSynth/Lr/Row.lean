/-!
The rows of an LR table.

A row holds the moves of one state.  Terminals and nonterminals are numbers; a set of terminals is a
natural number read bit by bit.
-/

namespace RbsSynth.Lr

/-- What to do with a terminal. -/
inductive Action
  | shift (state : Nat)
  | reduce (production : Nat)
  deriving DecidableEq

/-- The moves of one state: where a terminal leads, which productions are reduced before which set of
terminals, and where a nonterminal leads. -/
structure Row where
  shifts : List (Nat × Nat)
  reductions : List (Nat × Nat)
  gotos : List (Nat × Nat)
  deriving DecidableEq

/-- The value paired with a number in a list of pairs. -/
def lookup (x : Nat) : List (Nat × Nat) → Option Nat
  | [] => none
  | (y, v) :: rest => bif x.beq y then some v else lookup x rest

/-- Whether `i` is in a set. -/
def mem (i set : Nat) : Bool := ((set.shiftRight i).land 1).beq 1

/-- The first production whose set of terminals has a member. -/
def reductionOn (t : Nat) : List (Nat × Nat) → Option Nat
  | [] => none
  | (p, set) :: rest => bif mem t set then some p else reductionOn t rest

def Row.action? (row : Row) (t : Nat) : Option Action :=
  match lookup t row.shifts with
  | some state => some (.shift state)
  | none => (reductionOn t row.reductions).map .reduce

def Row.goto? (row : Row) (nonterminal : Nat) : Option Nat := lookup nonterminal row.gotos

/-- Whether the state has a move for a terminal. -/
def Row.accepts (row : Row) (t : Nat) : Bool := (row.action? t).isSome

end RbsSynth.Lr
