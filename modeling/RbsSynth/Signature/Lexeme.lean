import RbsSynth.Signature.Terminal

/-!
The spellings of the terminals.

`Terminal.match? t cs` is how many characters of `cs` the terminal `t` takes from its start, if it
matches there.  Words that end at a word boundary (`wordAt?`) must not go on with a name character;
the terminals of one spelling have no such condition.
-/

namespace RbsSynth.Signature

def isNameChar (c : Char) : Bool := c.isAlphanum || c == '_'

/-- How many characters at the start of a text satisfy a condition. -/
def runLength (p : Char → Bool) : List Char → Nat
  | [] => 0
  | c :: cs => if p c then runLength p cs + 1 else 0

/-- A name whose first character satisfies `first`. -/
def nameAt? (first : Char → Bool) : List Char → Option Nat
  | [] => none
  | c :: cs => if first c then some (runLength isNameChar cs + 1) else none

/-- A name that starts with a lower-case letter or an underscore, but not as an interface does. -/
def lowerNameAt? : List Char → Option Nat
  | '_' :: c :: cs =>
    if c.isUpper then none else some (runLength isNameChar (c :: cs) + 1)
  | cs => nameAt? (fun c => c.isLower || c == '_') cs

def interfaceNameAt? : List Char → Option Nat
  | '_' :: cs => (nameAt? Char.isUpper cs).map (· + 1)
  | _ => none

/-- One of some words, at a word boundary. -/
def wordAt? (words : List String) (cs : List Char) : Option Nat :=
  let word := cs.takeWhile isNameChar
  if words.any (·.toList == word) then some word.length else none

/-- A fixed spelling. -/
def spelledAt? (spelling : List Char) (cs : List Char) : Option Nat :=
  if spelling.isPrefixOf cs then some spelling.length else none

/-- Where a path of names with `::` behind each may go on. -/
inductive PathStage
  | start | name | colon

/-- The length of the longest such path; `pos` counts what was read and `best` ends the last name. -/
def pathLength : PathStage → Nat → Nat → List Char → Nat
  | _, _, best, [] => best
  | .start, pos, best, c :: cs =>
    if c.isUpper then pathLength .name (pos + 1) best cs else best
  | .name, pos, best, c :: cs =>
    if isNameChar c then pathLength .name (pos + 1) best cs
    else if c == ':' then pathLength .colon (pos + 1) best cs
    else best
  | .colon, pos, best, c :: cs =>
    if c == ':' then pathLength .start (pos + 1) (pos + 1) cs else best

/-- A path of names, `::` before a path, or `::` alone. -/
def namespaceAt? : List Char → Option Nat
  | ':' :: ':' :: cs => some (pathLength .start 0 0 cs + 2)
  | cs =>
    match pathLength .start 0 0 cs with
    | 0 => none
    | n + 1 => some (n + 1)

/-- The rest of a quoted text, up to its closing quote; a backslash takes the next character of the
line with it. -/
def quotedRest? (quote : Char) : List Char → Option Nat
  | [] => none
  | '\\' :: [] => none
  | '\\' :: c :: cs => if c == '\n' then none else (quotedRest? quote cs).map (· + 2)
  | c :: cs => if c == quote then some 1 else (quotedRest? quote cs).map (· + 1)

def stringAt? : List Char → Option Nat
  | '"' :: cs => (quotedRest? '"' cs).map (· + 1)
  | '\'' :: cs => (quotedRest? '\'' cs).map (· + 1)
  | _ => none

/-- The characters that a method name may end with, beside those of a name. -/
def isSuffix (c : Char) : Bool := c == '?' || c == '!' || c == '='

def isNameStart (c : Char) : Bool := c.isAlpha || c == '_'

def symbolAt? : List Char → Option Nat
  | ':' :: '"' :: cs => (quotedRest? '"' cs).map (· + 2)
  | ':' :: cs =>
    match nameAt? isNameStart cs with
    | none => none
    | some n =>
      match cs.drop n with
      | c :: _ => if isSuffix c then some (n + 2) else some (n + 1)
      | [] => some (n + 1)
  | _ => none

/-- A lower-case name, perhaps with a question or exclamation mark, and a single colon. -/
def labelAt? (cs : List Char) : Option Nat :=
  match lowerNameAt? cs with
  | none => none
  | some n =>
    let marked := match cs.drop n with
      | '?' :: _ | '!' :: _ => n + 1
      | _ => n
    match cs.drop marked with
    | ':' :: ':' :: _ => none
    | ':' :: _ => some (marked + 1)
    | _ => none

def suffixedAt? (cs : List Char) : Option Nat :=
  match nameAt? isNameStart cs with
  | none => none
  | some n =>
    match cs.drop n with
    | c :: _ => if isSuffix c then some (n + 1) else none
    | [] => none

/-- A name behind a sign. -/
def signedNameAt? (sign : Char) : List Char → Option Nat
  | [] => none
  | c :: cs => if c == sign then (nameAt? isNameStart cs).map (· + 1) else none

def digitsAt? : List Char → Option Nat
  | [] => none
  | c :: cs =>
    if c.isDigit then some (runLength (fun d => d.isDigit || d == '_') cs + 1) else none

def integerAt? : List Char → Option Nat
  | '-' :: cs => (digitsAt? cs).map (· + 1)
  | cs => digitsAt? cs

/-- The operators that are method names; where one begins another, the longer comes first. -/
def operators : List String :=
  ["[]=", "[]", "===", "==", "=~", "!~", "!=", "<=>", "<=", ">=", "<<", ">>", "**", "+@", "-@",
   "+", "-", "*", "/", "%", "<", ">", "!", "~", "^", "&", "|", "\x60"]

def operatorAt? (cs : List Char) : Option Nat :=
  operators.findSome? fun o => spelledAt? o.toList cs

/-- The delimiters of an annotation, in the order in which a writer tries them. -/
def annotationDelimiters : List (Char × Char) :=
  [('\x7b', '\x7d'), ('(', ')'), ('[', ']'), ('<', '>'), ('|', '|')]

/-- What stands up to a closing delimiter, with the delimiter. -/
def delimitedRest? (closing : Char) : List Char → Option Nat
  | [] => none
  | c :: cs => if c == closing then some 1 else (delimitedRest? closing cs).map (· + 1)

def annotationAt? : List Char → Option Nat
  | '%' :: 'a' :: c :: cs =>
    match annotationDelimiters.find? (·.1 == c) with
    | none => none
    | some (_, closing) => (delimitedRest? closing cs).map (· + 3)
  | _ => none

def isBlankChar (c : Char) : Bool :=
  c == ' ' || c == '\t' || c == '\x0c' || c == '\r' || c == '\n'

def blankAt? (cs : List Char) : Option Nat :=
  match runLength isBlankChar cs with
  | 0 => none
  | n + 1 => some (n + 1)

/-- A comment goes on to the line feed. -/
def commentAt? : List Char → Option Nat
  | '#' :: cs => some (runLength (· != '\n') cs + 1)
  | _ => none

def baseTypeWords : List String :=
  ["self", "instance", "class", "void", "untyped", "nil", "top", "bot", "boolish", "bool", "true",
   "false"]

/-- How much of a text a terminal takes from its start. -/
def Terminal.match? : Terminal → List Char → Option Nat
  | namespacePath, cs => namespaceAt? cs
  | label, cs => labelAt? cs
  | suffixedName, cs => suffixedAt? cs
  | attributeWord, cs => wordAt? ["attr_reader", "attr_writer", "attr_accessor"] cs
  | baseType, cs => wordAt? baseTypeWords cs
  | mixinWord, cs => wordAt? ["include", "extend", "prepend"] cs
  | visibilityWord, cs => wordAt? ["public", "private"] cs
  | annotation, cs => annotationAt? cs
  | symbol, cs => symbolAt? cs
  | string, cs => stringAt? cs
  | lowerName, cs => lowerNameAt? cs
  | globalName, cs => signedNameAt? '$' cs
  | instanceVariable, cs => signedNameAt? '@' cs
  | interfaceName, cs => interfaceNameAt? cs
  | upperName, cs => nameAt? Char.isUpper cs
  | integer, cs => integerAt? cs
  | blank, cs => blankAt? cs
  | comment, cs => commentAt? cs
  | uncheckedWord, cs => wordAt? ["unchecked"] cs
  | operator, cs => operatorAt? cs
  | varianceWord, cs => wordAt? ["in", "out"] cs
  | t, cs =>
    match t.spelling? with
    | some s => spelledAt? s.toList cs
    | none => none

end RbsSynth.Signature
