/-!
Text inside of markup.

Markup has tags in square brackets: a small letter or one of `#`, `/` and `@`, and then anything but
an opening bracket.  A backslash before a tag makes it plain text.

`plainOfMarkup (escapeMarkup cs)` is not always `cs`: a backslash before a bracket that opens no tag
is lost, and one at the end is doubled.
-/

namespace RbsSynth.Text

/-- What follows the end of a tag whose first character has been read, and how long it is. -/
def tagRest : List Char → Option (Nat × List Char)
  | ']' :: cs => some (1, cs)
  | '[' :: _ => none
  | _ :: cs => (tagRest cs).map fun (n, rest) => (n + 1, rest)
  | [] => none

/-- The length of the tag that a text starts with. -/
def tagLength? : List Char → Option Nat
  | '[' :: c :: cs =>
    if c.isLower || c == '#' || c == '/' || c == '@' then (tagRest cs).map (·.1 + 2) else none
  | _ => none

/-- How long the backslashes and the tag at the start of a text are. -/
def escapable? (cs : List Char) : Option (Nat × Nat) :=
  let slashes := (cs.takeWhile (· == '\\')).length
  (tagLength? (cs.drop slashes)).map (slashes, ·)

/-- Escapes tags; `skip` characters have been dealt with. -/
def escapeFrom : Nat → List Char → List Char
  | _, [] => []
  | skip + 1, _ :: cs => escapeFrom skip cs
  | 0, c :: cs =>
    match escapable? (c :: cs) with
    | some (slashes, n) =>
      List.replicate (2 * slashes + 1) '\\' ++ ((c :: cs).drop slashes).take n
        ++ escapeFrom (slashes + n - 1) cs
    | none => c :: escapeFrom 0 cs

/-- A text whose tags are plain.  A single backslash at its end is doubled. -/
def escapeMarkup (cs : List Char) : List Char :=
  let escaped := escapeFrom 0 cs
  match escaped.reverse with
  | '\\' :: '\\' :: _ => escaped
  | '\\' :: _ => escaped ++ ['\\']
  | _ => escaped

/-- The text that markup shows.  Tags are left out; of the backslashes before one, half are shown,
and with an odd one the tag is, too.  Elsewhere a backslash before a bracket is left out. -/
def plainFrom : Nat → List Char → List Char
  | _, [] => []
  | skip + 1, _ :: cs => plainFrom skip cs
  | 0, c :: cs =>
    match escapable? (c :: cs) with
    | some (slashes, n) =>
      List.replicate (slashes / 2) '\\'
        ++ (if slashes % 2 = 1 then ((c :: cs).drop slashes).take n else [])
        ++ plainFrom (slashes + n - 1) cs
    | none => if c = '\\' ∧ cs.head? = some '[' then plainFrom 0 cs else c :: plainFrom 0 cs

def plainOfMarkup (cs : List Char) : List Char := plainFrom 0 cs

example : plainOfMarkup (escapeMarkup "[b]\\[/b] x".toList) = "[b]\\[/b] x".toList := by decide +kernel

end RbsSynth.Text
