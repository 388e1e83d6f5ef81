import RbsSynth.Text.Lines
import RbsSynth.Text.Split

/-!
Lines that assign texts to names.

A line is `NAME=text`, with `export` before it or not.  A text in single or double quotes may go on
over many lines and has escapes; without quotes it ends at the line's end or at blanks with `#`
behind them.  A line that cannot be read is left out, and a name alone has no text.

In a text, `$` with a name in braces stands for what the name has, either here or outside; a default
may follow the name after `:-`.
-/

namespace RbsSynth.Assignments

/-- What is left after a part was read, or what was left when it could not be read. -/
abbrev Reading (α : Type) := Except (List Char) (α × List Char)

def isSpace (c : Char) : Bool := Text.isBlank c && c != '\n' && c != '\r'

def isKeyChar (c : Char) : Bool := !Text.isBlank c && c != '=' && c != '#'

/-! ## Names -/

/-- Leaves out `export` and the spaces behind it. -/
def skipExport (cs : List Char) : List Char :=
  let rest := cs.drop 6
  if "export".toList.isPrefixOf cs && (rest.head?.map isSpace).getD false then rest.dropWhile isSpace
  else cs

/-- Reads a name; a comment has none. -/
def readKey (cs : List Char) : Reading (Option String) :=
  match cs with
  | '#' :: _ => .ok (none, cs)
  | '\'' :: rest =>
    let name := rest.takeWhile (· != '\'')
    let rest := rest.drop name.length
    if name.isEmpty || rest.isEmpty then .error cs else .ok (some (.ofList name), rest.drop 1)
  | cs =>
    let name := cs.takeWhile isKeyChar
    if name.isEmpty then .error cs else .ok (some (.ofList name), cs.drop name.length)

/-! ## Texts -/

/-- How long a text is up to a quote that has no backslash before it. -/
def closing? (quote : Char) : List Char → Option Nat
  | [] => none
  | '\\' :: rest@(c :: cs) =>
    if c = quote then (closing? quote cs).map (· + 2) else (closing? quote rest).map (· + 1)
  | c :: cs => if c = quote then some 0 else (closing? quote cs).map (· + 1)

/-- How long a text is up to its last quote. -/
def lastQuote? (quote : Char) : List Char → Option Nat
  | [] => none
  | c :: cs =>
    match lastQuote? quote cs with
    | some n => some (n + 1)
    | none => if c = quote then some 0 else none

def unescapeSingle : Char → Option Char
  | '\\' => some '\\'
  | '\'' => some '\''
  | _ => none

def unescapeDouble : Char → Option Char
  | '\\' => some '\\'
  | '\'' => some '\''
  | '"' => some '"'
  | 'a' => some '\x07'
  | 'b' => some '\x08'
  | 'f' => some '\x0c'
  | 'n' => some '\n'
  | 'r' => some '\r'
  | 't' => some '\t'
  | 'v' => some '\x0b'
  | _ => none

/-- Resolves the escapes of a text. -/
def unescape (escape : Char → Option Char) : List Char → List Char
  | '\\' :: rest@(c :: cs) =>
    match escape c with
    | some d => d :: unescape escape cs
    | none => '\\' :: unescape escape rest
  | c :: cs => c :: unescape escape cs
  | [] => []

def readQuoted (quote : Char) (escape : Char → Option Char) (cs : List Char) : Reading String :=
  let inside := cs.drop 1
  match (closing? quote inside).orElse fun _ => lastQuote? quote inside with
  | some n => .ok (.ofList (unescape escape (inside.take n)), inside.drop (n + 1))
  | none => .error cs

/-- A line without the comment that follows blanks. -/
def withoutComment : List Char → List Char
  | [] => []
  | c :: cs =>
    if Text.isBlank c && ((c :: cs).dropWhile Text.isBlank).head? = some '#' then []
    else c :: withoutComment cs

def isLineFeed (c : Char) : Bool := c == '\n' || c == '\r'

def readText (cs : List Char) : Reading String :=
  match cs with
  | '\'' :: _ => readQuoted '\'' unescapeSingle cs
  | '"' :: _ => readQuoted '"' unescapeDouble cs
  | cs =>
    let line := cs.takeWhile (!isLineFeed ·)
    .ok (.ofList (Text.trimEnd (withoutComment line)), cs.drop line.length)

/-! ## Lines -/

/-- Leaves out a comment and the end of a line. -/
def readEnd (cs : List Char) : Reading Unit :=
  let rest := cs.dropWhile isSpace
  let rest := if rest.head? = some '#' then rest.dropWhile (!isLineFeed ·) else rest
  match rest with
  | [] => .ok ((), [])
  | '\n' :: rest => .ok ((), rest)
  | _ => .error cs

/-- Reads one assignment, which starts without blanks. -/
def readLine (cs : List Char) :
    Except (List Char) (Option (String × Option String) × List Char) := do
  let (key, rest) ← readKey (skipExport cs)
  let (text, rest) ← match rest.dropWhile isSpace with
    | '=' :: rest => (readText (rest.dropWhile isSpace)).map fun (t, rest) => (some t, rest)
    | rest => .ok (none, rest)
  let (_, rest) ← readEnd rest
  return (key.map (·, text), rest)

/-- Reads lines; `fuel` is more than their length. -/
def readLines : Nat → List Char → List (String × Option String)
  | 0, _ => []
  | fuel + 1, cs =>
    match cs.dropWhile Text.isBlank with
    | [] => []
    | cs =>
      match readLine cs with
      | .ok (some a, rest) => a :: readLines fuel rest
      | .ok (none, rest) => readLines fuel rest
      | .error rest => readLines fuel ((rest.dropWhile (!isLineFeed ·)).drop 1)

/-! ## Names inside of texts -/

/-- The name and the default after `$` and a brace, and how many characters they and the closing
brace have. -/
def reference? (cs : List Char) : Option (String × String × Nat) :=
  let name := cs.takeWhile fun c => c != '\x7d' && c != ':'
  match cs.drop name.length with
  | '\x7d' :: _ => some (.ofList name, "", name.length + 1)
  | ':' :: '-' :: rest =>
    let default := rest.takeWhile (· != '\x7d')
    if (rest.drop default.length).isEmpty then none
    else some (.ofList name, .ofList default, name.length + default.length + 3)
  | _ => none

/-- Puts texts in place of names; `skip` characters have been dealt with. -/
def resolveFrom (valueOf : String → Option (Option String)) : Nat → List Char → List Char
  | _, [] => []
  | skip + 1, _ :: cs => resolveFrom valueOf skip cs
  | 0, '$' :: '\x7b' :: cs =>
    match reference? cs with
    | some (name, default, n) =>
      (((valueOf name).getD (some default)).getD "").toList ++ resolveFrom valueOf n cs
    | none => '$' :: '\x7b' :: resolveFrom valueOf 0 cs
  | 0, c :: cs => c :: resolveFrom valueOf 0 cs

/-- Resolves texts one after another; `done` holds those before, last first. -/
def resolveAll (outside : List (String × String)) :
    List (String × Option String) → List (String × Option String) → List (String × Option String)
  | done, [] => done.reverse
  | done, (name, text) :: rest =>
    let valueOf := fun key =>
      ((done.find? (·.1 = key)).map (·.2)).orElse fun _ =>
        (outside.find? (·.1 = key)).map fun (_, text) => some text
    let text := text.map fun t => String.ofList (resolveFrom valueOf 0 t.toList)
    resolveAll outside ((name, text) :: done) rest

/-- The names with a text that some lines assign to them. -/
def read (outside : List (String × String)) (text : String) : List (String × String) :=
  let cs := Text.unifyLineEnds text.toList
  (resolveAll outside [] (readLines (cs.length + 1) cs)).filterMap fun (name, text) =>
    text.map (name, ·)

end RbsSynth.Assignments
