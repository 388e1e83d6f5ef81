import RbsSynth.Text.CaseData
import RbsSynth.Text.Printable

/-!
Lower and upper case of whole texts.

A character may have several characters as its form, and the form of a capital sigma hangs on its
place: at the end of a word it is a final one.  A word ends there when a letter with a case stands
before and none behind, the ignored characters being passed over.
-/

namespace RbsSynth.Text

/-- The one-character form that a table of ranges gives. -/
def shifted (n : Nat) : List (Nat × Nat × Nat × Int) → Option Nat
  | [] => none
  | (lo, hi, step, by_) :: rest =>
    if n < lo then none
    else if n ≤ hi && (n - lo) % step == 0 then some (n + by_).toNat
    else shifted n rest

def formIn? (n : Nat) : List (Nat × List Nat) → Option (List Nat)
  | [] => none
  | (m, form) :: rest => if n = m then some form else formIn? n rest

def charsOf (ns : List Nat) : List Char := ns.map Char.ofNat

/-- The lower-case form of a character that is no sigma. -/
def lowerChar (c : Char) : List Char :=
  if c.toNat < 0x80 then [c.toLower]
  else match formIn? c.toNat longLower with
    | some form => charsOf form
    | none => [((shifted c.toNat lowerRanges).map Char.ofNat).getD c]

def upperChar (c : Char) : List Char :=
  if c.toNat < 0x80 then [c.toUpper]
  else match formIn? c.toNat longUpper with
    | some form => charsOf form
    | none => [((shifted c.toNat upperRanges).map Char.ofNat).getD c]

/-- The form at the start of a word. -/
def titleChar (c : Char) : List Char :=
  match formIn? c.toNat titleForms with
  | some form => charsOf form
  | none => upperChar c

def isIgnoredCase (c : Char) : Bool := inRanges c.toNat ignoredRanges

/-- Whether the next character that is not passed over is a letter with a case. -/
def meetsCased (cs : List Char) : Bool :=
  match cs.dropWhile isIgnoredCase with
  | [] => false
  | c :: _ => inRanges c.toNat casedRanges

/-- The lower-case form of a character between others; `before` has the last first. -/
def lowerAt (before : List Char) (c : Char) (after : List Char) : List Char :=
  if c = 'Σ' then [if meetsCased before && !meetsCased after then 'ς' else 'σ'] else lowerChar c

def lowerFrom : List Char → List Char → List Char
  | _, [] => []
  | before, c :: cs => lowerAt before c cs ++ lowerFrom (c :: before) cs

def lower (cs : List Char) : List Char := lowerFrom [] cs

def upper (cs : List Char) : List Char := cs.flatMap upperChar

/-- The first character as at the start of a word, the others in lower case. -/
def capitalize : List Char → List Char
  | [] => []
  | c :: cs => titleChar c ++ lowerFrom [c] cs

def swapFrom : List Char → List Char → List Char
  | _, [] => []
  | before, c :: cs =>
    (if inRanges c.toNat titleRanges then [c]
    else if lowerAt before c cs = [c] then upperChar c
    else lowerAt before c cs) ++ swapFrom (c :: before) cs

/-- Each letter in its other case. -/
def swapCase (cs : List Char) : List Char := swapFrom [] cs

end RbsSynth.Text
