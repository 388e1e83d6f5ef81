import RbsSynth.Text.Quoted

/-!
Escapes in the strings of templates.

A character beyond ASCII stands for the escape that names it, so behind a backslash of its own it
leaves that escape's letters.
-/

namespace RbsSynth.Template

/-- A character beyond ASCII as an escape. -/
def spelled (c : Char) : List Char :=
  if c.toNat < 0x80 then [c]
  else if c.toNat < 0x100 then '\\' :: 'x' :: Text.hexDigits c.toNat 2
  else if c.toNat < 0x10000 then '\\' :: 'u' :: Text.hexDigits c.toNat 4
  else '\\' :: 'U' :: Text.hexDigits c.toNat 8

/-- The value of a digit in a base of at most sixteen. -/
def digit? (base : Nat) (c : Char) : Option Nat :=
  let value :=
    if c.isDigit then some (c.toNat - '0'.toNat)
    else if 'a' ≤ c ∧ c ≤ 'f' then some (c.toNat - 'a'.toNat + 10)
    else if 'A' ≤ c ∧ c ≤ 'F' then some (c.toNat - 'A'.toNat + 10)
    else none
  value.filter (· < base)

/-- The number written in exactly so many digits. -/
def digitsValue? (base : Nat) : List Char → Option Nat
  | cs => cs.foldl (fun n c => do return (← n) * base + (← digit? base c)) (some 0)

def charOf? (n : Nat) : Option Char := if h : n.isValidChar then some ⟨n.toUInt32, by
  simpa [UInt32.isValidChar, Nat.toUInt32, Nat.mod_eq_of_lt (show n < 4294967296 by
    rcases h with h | h <;> omega)] using h⟩ else none

/-- What an escape letter stands for. -/
def escaped? : Char → Option Char
  | 'a' => some '\x07'
  | 'b' => some '\x08'
  | 'f' => some '\x0c'
  | 'n' => some '\n'
  | 'r' => some '\r'
  | 't' => some '\t'
  | 'v' => some '\x0b'
  | '\\' => some '\\'
  | '\'' => some '\''
  | '"' => some '"'
  | _ => none

/-- How many hexadecimal digits follow an escape letter. -/
def hexWidth? : Char → Option Nat
  | 'x' => some 2
  | 'u' => some 4
  | 'U' => some 8
  | _ => none

/-- Reads escapes; `skip` characters are left out first. -/
def unescapeFrom : Nat → List Char → Option (List Char)
  | _, [] => some []
  | skip + 1, _ :: cs => unescapeFrom skip cs
  | 0, '\\' :: c :: cs =>
    match escaped? c, hexWidth? c with
    | some d, _ => do return d :: (← unescapeFrom 0 cs)
    | none, some width => do
      if (cs.take width).length < width then none
      let d ← charOf? (← digitsValue? 16 (cs.take width))
      return d :: (← unescapeFrom width cs)
    | none, none =>
      if c = '\n' then unescapeFrom 0 cs
      else if c = 'N' then none
      else if (digit? 8 c).isSome then do
        let more := (cs.take 2).takeWhile fun c => (digit? 8 c).isSome
        let d ← charOf? (← digitsValue? 8 (c :: more))
        return d :: (← unescapeFrom more.length cs)
      else do return '\\' :: c :: (← unescapeFrom 0 cs)
  | 0, c :: cs => do return c :: (← unescapeFrom 0 cs)

/-- What a string says between its quotes, if its escapes are right. -/
def unescape? (cs : List Char) : Option (List Char) := unescapeFrom 0 (cs.flatMap spelled)

example : unescape? ['a', '\\', 'n', 'é'] = some ['a', '\n', 'é'] := by decide

end RbsSynth.Template
