import RbsSynth.Lr.Row
import RbsSynth.Signature.Lexeme

/-!
Cutting a text into tokens, as far as the state of the parser allows.

A `Lexicon` holds the terminals that may come next.  They are tried in their fixed order and the
first that matches wins, be it shorter than another.  A terminal of one spelling that a wider one
covers is not tried by itself: the wider one is, and gives way when its match is that spelling.
-/

namespace RbsSynth.Signature

/-- Lines and columns count from one. -/
structure Position where
  line : Nat := 1
  column : Nat := 1
  deriving DecidableEq

/-- The position behind some text; only a line feed ends a line. -/
def Position.advance : Position → List Char → Position
  | p, [] => p
  | p, '\n' :: cs => advance ⟨p.line + 1, 1⟩ cs
  | p, _ :: cs => advance ⟨p.line, p.column + 1⟩ cs

structure Span where
  start : Position
  stop : Position
  deriving DecidableEq

structure Token where
  terminal : Terminal
  text : String
  span : Span
  deriving DecidableEq

structure Lexicon where
  /-- The terminals that are tried, in order. -/
  tried : List Terminal
  /-- The terminals that may come next. -/
  allowed : List Terminal

namespace Lexicon

def ofAllowed (allows : Terminal → Bool) : Lexicon :=
  let allowed := Terminal.scanOrder.filter fun t => t.isSkipped || allows t
  ⟨allowed.filter fun t => !allowed.any (·.covers.contains t), allowed⟩

def ofRow (row : Lr.Row) : Lexicon := ofAllowed fun t => row.accepts t.number

/-- All terminals together. -/
def full : Lexicon := ofAllowed fun _ => true

/-- The terminal that a match stands for. -/
def resolve (lexicon : Lexicon) (t : Terminal) (text : List Char) : Terminal :=
  match t.covers.find? fun k =>
      lexicon.allowed.contains k && k.spelling?.any (·.toList == text) with
  | some k => k
  | none => t

def matchFirst? (cs : List Char) : List Terminal → Option (Terminal × Nat)
  | [] => none
  | t :: ts =>
    match t.match? cs with
    | some n => some (t, n)
    | none => matchFirst? cs ts

/-- The next token's terminal and length. -/
def next? (lexicon : Lexicon) (cs : List Char) : Option (Terminal × Nat) :=
  match matchFirst? cs lexicon.tried with
  | some (t, n) => some (lexicon.resolve t (cs.take n), n)
  | none => none

/-- The terminals that a message may call expected. -/
def expected (lexicon : Lexicon) : List Terminal := lexicon.tried.filter (!·.isSkipped)

end Lexicon

end RbsSynth.Signature
