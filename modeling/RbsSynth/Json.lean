import RbsSynth.Text.Split

/-!
JSON values and their text.

Numbers keep the text that they are written with.
-/

namespace RbsSynth

inductive Json
  | null
  | bool (b : Bool)
  | number (text : String)
  | string (s : String)
  | array (items : List Json)
  | object (fields : List (String × Json))
  deriving Inhabited

namespace Json

def isBlank (c : Char) : Bool := c == ' ' || c == '\t' || c == '\n' || c == '\r'

def skipBlanks (cs : List Char) : List Char := cs.dropWhile isBlank

/-- What follows a word that a text starts with. -/
def after? (word : String) (cs : List Char) : Option (List Char) :=
  if word.toList.isPrefixOf cs then some (cs.drop word.length) else none

/-! ## Strings -/

def hexValue? (c : Char) : Option Nat :=
  if '0' ≤ c ∧ c ≤ '9' then some (c.toNat - '0'.toNat)
  else if 'a' ≤ c ∧ c ≤ 'f' then some (c.toNat - 'a'.toNat + 10)
  else if 'A' ≤ c ∧ c ≤ 'F' then some (c.toNat - 'A'.toNat + 10)
  else none

/-- The number that four hexadecimal digits stand for. -/
def unit? : List Char → Option Nat
  | [a, b, c, d] => do
    return (((← hexValue? a) * 16 + (← hexValue? b)) * 16 + (← hexValue? c)) * 16 + (← hexValue? d)
  | _ => none

/-- The character of an escape with a number, and how long the rest of the escape is; characters
beyond the first 65536 have two numbers. -/
def numbered? (cs : List Char) : Option (Char × Nat) := do
  let n ← unit? (cs.take 4)
  if 0xd800 ≤ n ∧ n < 0xdc00 then
    let rest ← after? "\\u" (cs.drop 4)
    let low ← unit? (rest.take 4)
    if 0xdc00 ≤ low ∧ low < 0xe000 then
      return (Char.ofNat (0x10000 + (n - 0xd800) * 0x400 + (low - 0xdc00)), 10)
    else none
  else if 0xdc00 ≤ n ∧ n < 0xe000 then none
  else return (Char.ofNat n, 4)

/-- The character of a short escape. -/
def short? : Char → Option Char
  | '"' => some '"'
  | '\\' => some '\\'
  | '/' => some '/'
  | 'b' => some '\x08'
  | 'f' => some '\x0c'
  | 'n' => some '\n'
  | 'r' => some '\r'
  | 't' => some '\t'
  | _ => none

/-- Reads a string up to its closing quote; `skip` characters have been dealt with, and `done` holds
what has been read, last character first. -/
def readString : Nat → List Char → List Char → Option (String × List Char)
  | _, _, [] => none
  | skip + 1, done, _ :: cs => readString skip done cs
  | 0, done, '"' :: cs => some (.ofList done.reverse, cs)
  | 0, done, '\\' :: 'u' :: cs =>
    match numbered? cs with
    | some (c, n) => readString n (c :: done) cs
    | none => none
  | 0, done, '\\' :: e :: cs =>
    match short? e with
    | some c => readString 0 (c :: done) cs
    | none => none
  | 0, done, c :: cs => if c.toNat < 0x20 then none else readString 0 (c :: done) cs

/-! ## Numbers -/

/-- The digits at the start, of which there is at least one, and the rest. -/
def digits? (cs : List Char) : Option (List Char × List Char) :=
  let ds := cs.takeWhile Char.isDigit
  if ds.isEmpty then none else some (ds, cs.dropWhile Char.isDigit)

/-- A whole number without a sign; it has no needless zero. -/
def whole? : List Char → Option (List Char × List Char)
  | '0' :: cs => some (['0'], cs)
  | cs => digits? cs

def fraction : List Char → List Char × List Char
  | '.' :: cs =>
    match digits? cs with
    | some (ds, rest) => ('.' :: ds, rest)
    | none => ([], '.' :: cs)
  | cs => ([], cs)

def exponent (cs : List Char) : List Char × List Char :=
  match cs with
  | e :: rest =>
    if e = 'e' ∨ e = 'E' then
      let sign := (rest.take 1).filter fun c => c == '+' || c == '-'
      match digits? (rest.drop sign.length) with
      | some (ds, rest) => (e :: sign ++ ds, rest)
      | none => ([], cs)
    else ([], cs)
  | [] => ([], [])

def readNumber (cs : List Char) : Option (Json × List Char) := do
  let sign := (cs.take 1).filter (· == '-')
  let (whole, rest) ← whole? (cs.drop sign.length)
  let (places, rest) := fraction rest
  let (power, rest) := exponent rest
  return (.number (.ofList (sign ++ whole ++ places ++ power)), rest)

/-! ## Values -/

/-- The words that are values. -/
def words : List (String × Json) :=
  [("null", .null), ("true", .bool true), ("false", .bool false), ("NaN", .number "NaN"),
   ("Infinity", .number "Infinity"), ("-Infinity", .number "-Infinity")]

def readWord (cs : List Char) : Option (Json × List Char) :=
  words.findSome? fun (word, v) => (after? word cs).map (v, ·)

mutual

/-- Reads a value after blanks; `fuel` is at least twice the length of the text. -/
def readValue : Nat → List Char → Option (Json × List Char)
  | 0, _ => none
  | fuel + 1, cs =>
    match skipBlanks cs with
    | '"' :: cs => (readString 0 [] cs).map fun (s, rest) => (.string s, rest)
    | '[' :: cs =>
      match skipBlanks cs with
      | ']' :: rest => some (.array [], rest)
      | cs => (readItems fuel cs).map fun (js, rest) => (.array js, rest)
    | '\x7b' :: cs =>
      match skipBlanks cs with
      | '\x7d' :: rest => some (.object [], rest)
      | cs => (readFields fuel cs).map fun (fs, rest) => (.object fs, rest)
    | cs => (readWord cs).orElse fun _ => readNumber cs

/-- Reads the items of an array up to its end. -/
def readItems : Nat → List Char → Option (List Json × List Char)
  | 0, _ => none
  | fuel + 1, cs => do
    let (j, rest) ← readValue fuel cs
    match skipBlanks rest with
    | ',' :: rest =>
      let (js, rest) ← readItems fuel rest
      return (j :: js, rest)
    | ']' :: rest => return ([j], rest)
    | _ => none

/-- Reads the fields of an object up to its end. -/
def readFields : Nat → List Char → Option (List (String × Json) × List Char)
  | 0, _ => none
  | fuel + 1, cs => do
    match skipBlanks cs with
    | '"' :: cs =>
      let (key, rest) ← readString 0 [] cs
      match skipBlanks rest with
      | ':' :: rest =>
        let (j, rest) ← readValue fuel rest
        match skipBlanks rest with
        | ',' :: rest =>
          let (fs, rest) ← readFields fuel rest
          return ((key, j) :: fs, rest)
        | '\x7d' :: rest => return ([(key, j)], rest)
        | _ => none
      | _ => none
    | _ => none

end

/-- The value that a text stands for. -/
def parse? (text : String) : Option Json :=
  let cs := text.toList
  match readValue (2 * cs.length + 2) cs with
  | some (j, rest) => if (skipBlanks rest).isEmpty then some j else none
  | none => none

end Json

end RbsSynth
