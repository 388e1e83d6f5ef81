import RbsSynth.Text.Printable

/-!
Text in quotes, as messages show it.

The quotes are single, unless the text has a single quote and no double one.  The quote in use and
the backslash are escaped, and so is every character that does not print: `\n`, `\r` and `\t` by
name, others by their code point in two, four or eight hexadecimal digits.
-/

namespace RbsSynth.Text

def hexDigit (n : Nat) : Char := "0123456789abcdef".toList.getD n '0'

/-- The last `width` hexadecimal digits of a number. -/
def hexDigits (n : Nat) : Nat → List Char
  | 0 => []
  | width + 1 => hexDigits (n / 16) width ++ [hexDigit (n % 16)]

def escapeChar (quote c : Char) : List Char :=
  if c = quote ∨ c = '\\' then ['\\', c]
  else if c = '\n' then ['\\', 'n']
  else if c = '\r' then ['\\', 'r']
  else if c = '\t' then ['\\', 't']
  else if isPrintable c then [c]
  else if c.toNat < 0x100 then '\\' :: 'x' :: hexDigits c.toNat 2
  else if c.toNat < 0x10000 then '\\' :: 'u' :: hexDigits c.toNat 4
  else '\\' :: 'U' :: hexDigits c.toNat 8

def quoted (s : String) : String :=
  let cs := s.toList
  let quote := if cs.contains '\'' && !cs.contains '"' then '"' else '\''
  .ofList (quote :: (cs.flatMap (escapeChar quote) ++ [quote]))

end RbsSynth.Text
