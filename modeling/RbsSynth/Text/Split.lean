import RbsSynth.Text.Lines

/-!
Cutting text at a separator, and parts of texts and lists.

* `splitOn sep cs` reads from the left; where the separator begins it is left out and the next piece
  starts behind it, so occurrences never overlap.
* `slice xs start stop step` takes every `step`-th item from one place up to before another; places
  count from the end when they are negative.
* `replace` puts a text in place of another, `words` cuts a text at its blanks, and `pieces` at a
  separator; all three stop after a number of times, if one is given.
-/

namespace RbsSynth.Text

/-- Reads on with `skip` characters of a separator still to leave out; `piece` holds the piece under
construction, last character first. -/
def splitFrom (sep : List Char) : Nat → List Char → List Char → List (List Char)
  | _, piece, [] => [piece.reverse]
  | skip + 1, piece, _ :: cs => splitFrom sep skip piece cs
  | 0, piece, c :: cs =>
    if sep.isPrefixOf (c :: cs) then piece.reverse :: splitFrom sep (sep.length - 1) [] cs
    else splitFrom sep 0 (c :: piece) cs

/-- The pieces of a text between the occurrences of a separator that is not empty. -/
def splitOn (sep cs : List Char) : List (List Char) := splitFrom sep 0 [] cs

/-- Whether `part` occurs in a text. -/
def occursIn (part : List Char) : List Char → Bool
  | [] => part.isEmpty
  | c :: cs => part.isPrefixOf (c :: cs) || occursIn part cs

/-- The texts with `sep` between them. -/
def join (sep : String) : List String → String
  | [] => ""
  | [s] => s
  | s :: rest => s ++ sep ++ join sep rest

example : splitOn "::".toList "A::::B".toList = ["A".toList, [], "B".toList] := by decide

/-! ## Parts of texts and lists -/

/-- The place in a list of length `n` that a bound of a slice means. -/
def place (n low high : Int) (bound : Int) : Int :=
  max low (min high (if bound < 0 then bound + n else bound))

def slice {α : Type} (xs : List α) (start stop step : Option Int) : Option (List α) :=
  let n : Int := xs.length
  let step := step.getD 1
  if step = 0 then none
  else if 0 < step then
    let first := (start.map (place n 0 n)).getD 0
    let last := (stop.map (place n 0 n)).getD n
    some ((List.range ((last - first + step - 1) / step).toNat).filterMap fun i : Nat =>
      xs[(first + i * step).toNat]?)
  else
    let first := (start.map (place n (-1) (n - 1))).getD (n - 1)
    let last := (stop.map (place n (-1) (n - 1))).getD (-1)
    some ((List.range ((first - last - step - 1) / -step).toNat).filterMap fun i : Nat =>
      xs[(first + i * step).toNat]?)

/-- Replaces so many occurrences, all with `none`; `skip` characters of one are still to leave
out. -/
def replaceFrom (old new : List Char) : Option Nat → Nat → List Char → List Char
  | _, _, [] => []
  | count, skip + 1, _ :: cs => replaceFrom old new count skip cs
  | count, 0, c :: cs =>
    if count = some 0 then c :: cs
    else if old.isPrefixOf (c :: cs) then
      new ++ replaceFrom old new (count.map (· - 1)) (old.length - 1) cs
    else c :: replaceFrom old new count 0 cs

/-- Puts a text before each of the first so many characters, and at the end when there are fewer. -/
def interleave (new : List Char) : Option Nat → List Char → List Char
  | count, [] => if count = some 0 then [] else new
  | count, c :: cs =>
    if count = some 0 then c :: cs else new ++ c :: interleave new (count.map (· - 1)) cs

def replace (old new : List Char) (count : Option Nat) (cs : List Char) : List Char :=
  if old.isEmpty then interleave new count cs else replaceFrom old new count 0 cs

/-- The pieces between the first so many separators. -/
def pieces (sep : List Char) (count : Option Nat) (cs : List Char) : List (List Char) :=
  let all := splitOn sep cs
  match count with
  | none => all
  | some n =>
    if all.length ≤ n + 1 then all
    else all.take n ++ [sep.intercalate (all.drop n)]

/-- The parts between blanks; `fuel` is at least the length of the text. -/
def wordsFrom : Nat → Option Nat → List Char → List (List Char)
  | 0, _, _ => []
  | fuel + 1, count, cs =>
    match trimStart cs with
    | [] => []
    | c :: rest =>
      if count = some 0 then [c :: rest]
      else (c :: rest).takeWhile (!isBlank ·) ::
        wordsFrom fuel (count.map (· - 1)) ((c :: rest).dropWhile (!isBlank ·))

def words (count : Option Nat) (cs : List Char) : List (List Char) :=
  wordsFrom (cs.length + 1) count cs

/-- Leaves out the given characters at both ends. -/
def trimOf (set cs : List Char) : List Char :=
  ((cs.dropWhile set.contains).reverse.dropWhile set.contains).reverse

end RbsSynth.Text
