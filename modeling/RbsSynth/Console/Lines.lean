import RbsSynth.Console.Columns
import RbsSynth.Text.Lines
import RbsSynth.Text.Split

/-!
Text as a terminal shows it.

Some control characters are left out, and a tab goes on to the next column that is a multiple of
eight.  A line that is too long is broken between words; a word that is too long for any line is
broken, too.
-/

namespace RbsSynth.Console

/-- Bell, backspace, vertical tab, form feed and carriage return are not printed. -/
def isPrinted (c : Char) : Bool :=
  c != '\x07' && c != '\x08' && c != '\x0b' && c != '\x0c' && c != '\r'

def printed (cs : List Char) : List Char := cs.filter isPrinted

def tabWidth : Nat := 8

/-- Spaces in place of the tabs of a line, from a column on. -/
def expandTabs : Nat → List Char → List Char
  | _, [] => []
  | column, c :: cs =>
    if c = '\t' then
      let n := tabWidth - column % tabWidth
      List.replicate n ' ' ++ expandTabs (column + n) cs
    else c :: expandTabs (column + columnsOfChar c) cs

/-- The lines of a text as they are shown. -/
def shownLines (cs : List Char) : List (List Char) :=
  (Text.splitOn ['\n'] (printed cs)).map (expandTabs 0)

/-! ## Breaking lines -/

/-- The words of a line, each with the blanks behind it, and the first with those before it, too;
`word` holds the one under construction, last character first, and `rest` says whether its blanks
have begun. -/
def wordsFrom (word : List Char) (rest : Bool) : List Char → List (List Char)
  | [] => if word.all Text.isBlank then [] else [word.reverse]
  | c :: cs =>
    if Text.isBlank c then wordsFrom (c :: word) (!word.all Text.isBlank) cs
    else if rest then word.reverse :: wordsFrom [c] false cs
    else wordsFrom (c :: word) false cs

def words (cs : List Char) : List (List Char) := wordsFrom [] false cs

/-- Cuts a word where it does not fit; `used` columns are taken by `piece`, which has the last
character first. -/
def chopFrom (width : Nat) (piece : List Char) (used : Nat) : List Char → List (List Char)
  | [] => [piece.reverse]
  | c :: cs =>
    let n := columnsOfChar c
    if used + n ≤ width then chopFrom width (c :: piece) (used + n) cs
    else piece.reverse :: chopFrom width [c] n cs

def chop (width : Nat) (word : List Char) : List (List Char) := chopFrom width [] 0 word

/-- Puts words on lines; `line` has been begun and takes `used` columns.  With `cut` a word that is
too long for a line is cut. -/
def fill (width : Nat) (cut : Bool) : List Char → Nat → List (List Char) → List (List Char)
  | line, _, [] => [line]
  | line, used, word :: rest =>
    let n := columns (Text.trimEnd word)
    let begun := if line.isEmpty then [] else [line]
    if used + n ≤ width then fill width cut (line ++ word) (used + columns word) rest
    else if width < n then
      let pieces := if cut then chop width word else [word]
      let last := pieces.getLastD []
      begun ++ pieces.dropLast ++ fill width cut last (columns last) rest
    else if used = 0 || line.isEmpty then fill width cut (line ++ word) used rest
    else line :: fill width cut word (columns word) rest

/-- Leaves out blanks at the end of a line that is too long. -/
def dropOverhang (width : Nat) (line : List Char) : List Char :=
  line.take (max (Text.trimEnd line).length (min width line.length))

/-- Breaks a line that has no tabs. -/
def breakLine (width : Nat) (cut : Bool) (line : List Char) : List (List Char) :=
  let lines := match words line with
    | [] => [line]
    | ws => fill width cut [] 0 ws
  lines.map (dropOverhang width)

/-- A text in lines of a width. -/
def wrap (width : Nat) (text : String) : String :=
  let lines := (shownLines text.toList).flatMap (breakLine width true)
  .ofList (['\n'].intercalate lines)

/-- A text whose lines may have any length. -/
def shown (text : String) : String := .ofList (['\n'].intercalate (shownLines text.toList))

end RbsSynth.Console
