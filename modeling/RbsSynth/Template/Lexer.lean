import RbsSynth.Template.Escape
import RbsSynth.Text.Lines
import RbsSynth.Text.Letter

/-!
The lexer of templates.

Outside of its delimiters a template is plain text; inside stand names, strings, numbers and marks.
`<%= %>` prints, `<% %>` acts and `<%# %>` is a comment.  A minus next to a delimiter takes the blanks
on its outer side away, a plus does nothing.  A closing delimiter counts only where all brackets are
closed.
-/

namespace RbsSynth.Template

/-! ## Lexemes -/

inductive Mark
  | plus | minus | times | power | slash | slashes | modulo | tilde
  | openRound | closeRound | openSquare | closeSquare | openCurly | closeCurly
  | equal | unequal | below | atMost | above | atLeast
  | assign | dot | colon | bar | comma | semicolon
deriving DecidableEq, Repr

/-- How the marks are written; a mark comes before those it starts with. -/
def marks : List (List Char × Mark) :=
  [(['/', '/'], .slashes), (['*', '*'], .power), (['=', '='], .equal), (['!', '='], .unequal),
   (['>', '='], .atLeast), (['<', '='], .atMost), (['+'], .plus), (['-'], .minus), (['/'], .slash),
   (['*'], .times), (['%'], .modulo), (['~'], .tilde), (['['], .openSquare), ([']'], .closeSquare),
   (['('], .openRound), ([')'], .closeRound), (['\x7b'], .openCurly), (['\x7d'], .closeCurly),
   (['>'], .above), (['<'], .below), (['='], .assign), (['.'], .dot), ([':'], .colon),
   (['|'], .bar), ([','], .comma), ([';'], .semicolon)]

inductive Lexeme
  | text (s : String)
  | openOutput | closeOutput
  | openTag | closeTag
  | name (s : String)
  | string (s : String)
  | number (n : Nat)
  /-- A number with a point or an exponent: its digits, and the power of ten they count. -/
  | decimal (digits : Nat) (exponent : Int)
  | mark (m : Mark)
deriving DecidableEq, Repr

structure Token where
  lexeme : Lexeme
  /-- The line it starts on. -/
  line : Nat
deriving DecidableEq, Repr

/-- The bracket that closes an opening one. -/
def Mark.partner? : Mark → Option Mark
  | .openRound => some .closeRound
  | .openSquare => some .closeSquare
  | .openCurly => some .closeCurly
  | _ => none

def Mark.isCloser (m : Mark) : Bool :=
  m == .closeRound || m == .closeSquare || m == .closeCurly

/-! ## Reading -/

open Text

/-! ## Delimiters -/

inductive Opener
  | output | tag | comment
deriving DecidableEq, Repr

def opener? : List Char → Option (Opener × List Char)
  | '<' :: '%' :: '=' :: cs => some (.output, cs)
  | '<' :: '%' :: '#' :: cs => some (.comment, cs)
  | '<' :: '%' :: cs => some (.tag, cs)
  | _ => none

/-- The text before the first delimiter, and what stands behind that one; `seen` has the last
character first. -/
def cutAtOpener : List Char → List Char → List Char × Option (Opener × List Char)
  | seen, [] => (seen.reverse, none)
  | seen, c :: cs =>
    match opener? (c :: cs) with
    | some opened => (seen.reverse, some opened)
    | none => cutAtOpener (c :: seen) cs

/-- What follows the closing delimiter at the start of a text.  What prints has no `+` before it. -/
def closed? (printing : Bool) : List Char → Option (List Char)
  | '%' :: '>' :: cs => some cs
  | '-' :: '%' :: '>' :: cs => some (trimStart cs)
  | '+' :: '%' :: '>' :: cs => if printing then none else some cs
  | _ => none

/-- What follows a comment. -/
def behindComment? : List Char → Option (List Char)
  | [] => none
  | c :: cs => (closed? false (c :: cs)).or (behindComment? cs)

/-! ## Words, numbers and strings -/

/-- Reads digits, each behind at most one underscore. -/
def scanDigits (base : Nat) (value : Nat) : List Char → Nat × List Char
  | '_' :: c :: cs =>
    match digit? base c with
    | some d => scanDigits base (value * base + d) cs
    | none => (value, '_' :: c :: cs)
  | c :: cs =>
    match digit? base c with
    | some d => scanDigits base (value * base + d) cs
    | none => (value, c :: cs)
  | [] => (value, [])

/-- Whether digits of a base come next. -/
def digitsAhead (base : Nat) : List Char → Bool
  | '_' :: c :: _ => (digit? base c).isSome
  | c :: _ => (digit? base c).isSome
  | [] => false

def baseOf? : Char → Option Nat
  | 'b' | 'B' => some 2
  | 'o' | 'O' => some 8
  | 'x' | 'X' => some 16
  | _ => none

/-- A whole number at the start of a text; one that starts with a zero has only zeros, or the letter
of another base and its digits. -/
def scanNumber? : List Char → Option (Nat × List Char)
  | '0' :: c :: cs =>
    match baseOf? c with
    | some base =>
      if digitsAhead base cs then some (scanDigits base 0 cs) else some (0, c :: cs)
    | none => some (scanDigits 1 0 (c :: cs))
  | c :: cs => (digit? 10 c).map fun d => if d = 0 then (0, cs) else scanDigits 10 d cs
  | [] => none

/-- Digits, and underscores that stand between two of them. -/
def digitRun : List Char → List Char × List Char
  | '_' :: c :: cs =>
    if c.isDigit then
      let (ds, rest) := digitRun cs
      (c :: ds, rest)
    else ([], '_' :: c :: cs)
  | c :: cs =>
    if c.isDigit then
      let (ds, rest) := digitRun cs
      (c :: ds, rest)
    else ([], c :: cs)
  | [] => ([], [])

/-- Digits, if a text starts with one. -/
def digitRun? (cs : List Char) : Option (List Char × List Char) :=
  if cs.head?.any Char.isDigit then some (digitRun cs) else none

def valueOf (ds : List Char) : Nat := (scanDigits 10 0 ds).1

/-- The exponent at the start of a text. -/
def scanExponent? : List Char → Option (Int × List Char)
  | c :: cs => do
    guard (c = 'e' ∨ c = 'E')
    let (negative, cs) := match cs with
      | '-' :: cs => (true, cs)
      | '+' :: cs => (false, cs)
      | cs => (false, cs)
    let (ds, rest) ← digitRun? cs
    let n : Int := valueOf ds
    return (if negative then -n else n, rest)
  | [] => none

/-- A number with a point, an exponent or both, at the start of a text. -/
def scanDecimal? (cs : List Char) : Option (Lexeme × List Char) := do
  let (whole, rest) ← digitRun? cs
  let (part, rest) := match rest with
    | '.' :: cs => (digitRun? cs).getD ([], '.' :: cs)
    | cs => ([], cs)
  let digits := valueOf (whole ++ part)
  match scanExponent? rest with
  | some (e, rest) => return (.decimal digits (e - part.length), rest)
  | none =>
    guard !part.isEmpty
    return (.decimal digits (-part.length), rest)

/-- What stands before the next quote that is not escaped, and what behind it. -/
def cutString? (quote : Char) : List Char → Option (List Char × List Char)
  | '\\' :: c :: cs => (cutString? quote cs).map fun (s, rest) => ('\\' :: c :: s, rest)
  | c :: cs =>
    if c = quote then some ([], cs) else (cutString? quote cs).map fun (s, rest) => (c :: s, rest)
  | [] => none

/-- The mark at the start of a text. -/
def scanMark? (cs : List Char) : Option (Mark × List Char) :=
  (marks.find? fun (m, _) => m.isPrefixOf cs).map fun (m, mark) => (mark, cs.drop m.length)

/-- The lexeme at the start of a text that begins with no blank.  Right behind a point a number has
none of its own. -/
def scanLexeme? (behindPoint : Bool) (cs : List Char) : Option (Lexeme × List Char) :=
  match cs with
  | [] => none
  | c :: rest =>
    if c.isDigit then
      (if behindPoint then none else scanDecimal? cs).or
        ((scanNumber? cs).map fun (n, rest) => (.number n, rest))
    else if startsName c then
      some (.name (.ofList (cs.takeWhile continuesName)), cs.dropWhile continuesName)
    else if c = '\'' ∨ c = '"' then do
      let (s, rest) ← cutString? c rest
      return (.string (.ofList (← unescape? s)), rest)
    else (scanMark? cs).map fun (m, rest) => (.mark m, rest)

/-! ## Tokens -/

/-- The brackets that are open behind a lexeme: each stands for the one that closes it. -/
def bracketsBehind? (brackets : List Mark) : Lexeme → Option (List Mark)
  | .mark m =>
    match m.partner?, brackets with
    | some closer, _ => some (closer :: brackets)
    | none, b :: outer =>
      if m.isCloser then (if m = b then some outer else none) else some brackets
    | none, [] => if m.isCloser then none else some []
  | _ => some brackets

/-- Where the lexer stands: in plain text, or in code that prints or acts. -/
inductive Place
  | text
  | code (printing behindPoint : Bool) (brackets : List Mark)

def textTokens (line : Nat) (cs : List Char) : List Token :=
  if cs.isEmpty then [] else [⟨.text (.ofList cs), line⟩]

/-- The tokens from a place on; `lineOf` tells the line on which a rest of the template starts. -/
def scan (lineOf : List Char → Nat) : Nat → Place → List Char → Option (List Token)
  | 0, _, _ => none
  | fuel + 1, .text, cs =>
    match cutAtOpener [] cs with
    | (before, none) => some (textTokens (lineOf cs) before)
    | (before, some (opener, inside)) => do
      let (before, inside) := match inside with
        | '-' :: inside => (trimEnd before, inside)
        | '+' :: inside => (before, inside)
        | _ => (before, inside)
      let rest ← match opener with
        | .comment => (behindComment? inside).bind (scan lineOf fuel .text)
        | .output =>
          (scan lineOf fuel (.code true false []) inside).map (⟨.openOutput, lineOf inside⟩ :: ·)
        | .tag => (scan lineOf fuel (.code false false []) inside).map (⟨.openTag, lineOf inside⟩ :: ·)
      return textTokens (lineOf cs) before ++ rest
  | _ + 1, .code _ _ _, [] => some []
  | fuel + 1, .code printing behindPoint brackets, c :: cs =>
    match if brackets.isEmpty then closed? printing (c :: cs) else none with
    | some rest => do
      let closer := if printing then Lexeme.closeOutput else .closeTag
      return ⟨closer, lineOf (c :: cs)⟩ :: (← scan lineOf fuel .text rest)
    | none =>
      if isBlank c then scan lineOf fuel (.code printing false brackets) cs
      else do
        let (lexeme, rest) ← scanLexeme? behindPoint (c :: cs)
        let place := Place.code printing (lexeme == .mark .dot) (← bracketsBehind? brackets lexeme)
        return ⟨lexeme, lineOf (c :: cs)⟩ :: (← scan lineOf fuel place rest)

/-- The tokens of a template whose line ends are line feeds, if it has no fault. -/
def tokens? (cs : List Char) : Option (List Token) :=
  let lineOf := fun rest : List Char => 1 + cs.count '\n' - rest.count '\n'
  scan lineOf (cs.length + 1) .text cs

end RbsSynth.Template
