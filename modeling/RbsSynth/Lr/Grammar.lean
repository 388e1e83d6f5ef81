import RbsSynth.Lr.Row

/-!
Context-free grammars over numbered symbols.

Terminals are numbered below `Grammar.terminals`; every other symbol is a nonterminal.  A set of
numbers is a natural number read bit by bit, and a relation gives each number a row of as many bits
as there are terminals.  The least set closed under a rule is reached by iterating that rule from a
smaller set (`saturate`).

* `nullable` holds the nonterminals that derive the empty word.
* `first` has, in the row of a nonterminal, the terminals that can begin a word derived from it.

All of it is written with the functions on `Nat` that the kernel evaluates itself, so that facts
about one grammar can be checked by evaluation.
-/

namespace RbsSynth.Lr

/-- `head → body`. -/
structure Production where
  head : Nat
  body : List Nat
  deriving DecidableEq

/-- Production `0` is the root: the start symbol is its whole body and its head is used nowhere
else.  `endMark` is the terminal that follows every complete text. -/
structure Grammar where
  terminals : Nat
  symbols : Nat
  endMark : Nat
  productions : List Production

/-- Applies `f` until nothing changes, at most `n` times. -/
def saturate (f : Nat → Nat) : Nat → Nat → Nat
  | 0, x => x
  | n + 1, x => bif (f x).beq x then x else saturate f n (f x)

/-- The set with the one member `i`. -/
def single (i : Nat) : Nat := Nat.shiftLeft 1 i

/-- Whether two sets have no member in common. -/
def disjoint (a b : Nat) : Bool := (a.land b).beq 0

namespace Grammar

variable (g : Grammar)

/-- Row `x` of a relation. -/
def row (relation x : Nat) : Nat :=
  (relation.shiftRight (g.terminals.mul x)).land ((single g.terminals).sub 1)

/-- The relation with only row `x` filled. -/
def asRow (x set : Nat) : Nat := set.shiftLeft (g.terminals.mul x)

/-- Whether every symbol of a word is in a set. -/
def allIn (set : Nat) : List Nat → Bool
  | [] => true
  | x :: xs => bif mem x set then allIn set xs else false

/-- Adds the heads of the productions whose bodies lie in the set. -/
def growNullable : List Production → Nat → Nat
  | [], set => set
  | p :: ps, set => growNullable ps (bif allIn set p.body then set.lor (single p.head) else set)

/-- The nonterminals that derive the empty word. -/
def nullable : Nat := saturate (growNullable g.productions) g.symbols 0

/-- The terminals that can begin a word derived from a sequence of symbols. -/
def firstOfSeq (nullable first : Nat) : List Nat → Nat
  | [] => 0
  | x :: xs =>
    let here := bif x.blt g.terminals then single x else g.row first x
    bif mem x nullable then here.lor (firstOfSeq nullable first xs) else here

/-- Adds to each head what its bodies can begin with. -/
def growFirst (nullable : Nat) : List Production → Nat → Nat
  | [], first => first
  | p :: ps, first =>
    growFirst nullable ps (first.lor (g.asRow p.head (g.firstOfSeq nullable first p.body)))

/-- The terminals that can begin a word derived from each nonterminal. -/
def first : Nat := saturate (g.growFirst g.nullable g.productions) g.symbols 0

end Grammar

end RbsSynth.Lr
