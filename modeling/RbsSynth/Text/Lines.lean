/-!
Blanks and lines of a text.

Blank characters are the spaces, tabs and line ends of Unicode, together with the four information
separators; `trim` leaves out those at both ends of a text, `trimEnd` those at its end.

A line ends at a line feed, a carriage return (with the line feed behind it, if there is one), a
vertical tab, a form feed, one of the first three information separators, the next-line character,
or one of the two separators of Unicode.
-/

namespace RbsSynth.Text

/-! ## Blanks -/

def isBlank (c : Char) : Bool :=
  let n := c.toNat
  (0x09 ≤ n && n ≤ 0x0d) || (0x1c ≤ n && n ≤ 0x20) || n == 0x85 || n == 0xa0 || n == 0x1680
    || (0x2000 ≤ n && n ≤ 0x200a) || n == 0x2028 || n == 0x2029 || n == 0x202f || n == 0x205f
    || n == 0x3000

def trimStart (cs : List Char) : List Char := cs.dropWhile isBlank

def trimEnd (cs : List Char) : List Char := (trimStart cs.reverse).reverse

def trim (cs : List Char) : List Char := trimEnd (trimStart cs)

theorem isBlank_of_isWhitespace (c : Char) (h : c.isWhitespace = true) : isBlank c = true := by
  simp only [Char.isWhitespace, Bool.or_eq_true, decide_eq_true_eq] at h
  rcases h with ((rfl | rfl) | rfl) | rfl <;> decide

/-! ## Lines -/

def isLineEnd (c : Char) : Bool :=
  let n := c.toNat
  (0x0a ≤ n && n ≤ 0x0d) || (0x1c ≤ n && n ≤ 0x1e) || n == 0x85 || n == 0x2028 || n == 0x2029

/-- The lines of a text with their ends; `line` holds the one under construction, last character
first. -/
def linesFrom : List Char → List Char → List (List Char)
  | [], [] => []
  | line, [] => [line.reverse]
  | line, '\r' :: '\n' :: cs => ('\n' :: '\r' :: line).reverse :: linesFrom [] cs
  | line, c :: cs =>
    if isLineEnd c then (c :: line).reverse :: linesFrom [] cs else linesFrom (c :: line) cs

/-- The lines of a text, each with its end. -/
def lines (cs : List Char) : List (List Char) := linesFrom [] cs

/-- What stands before the first line end. -/
def firstLine (cs : List Char) : List Char := cs.takeWhile (!isLineEnd ·)

/-- Line feeds in place of carriage returns, alone or before a line feed. -/
def unifyLineEnds : List Char → List Char
  | '\r' :: '\n' :: cs => '\n' :: unifyLineEnds cs
  | '\r' :: cs => '\n' :: unifyLineEnds cs
  | c :: cs => c :: unifyLineEnds cs
  | [] => []

theorem flatten_linesFrom (line cs : List Char) :
    (linesFrom line cs).flatten = line.reverse ++ cs := by
  fun_induction linesFrom line cs <;> simp_all

/-- Nothing is lost between the lines. -/
theorem flatten_lines (cs : List Char) : (lines cs).flatten = cs := by
  simp [lines, flatten_linesFrom]

end RbsSynth.Text
