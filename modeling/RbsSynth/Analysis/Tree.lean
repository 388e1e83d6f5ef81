/-!
Syntax trees of Ruby programs.

A node knows the part of the program's text that it stands for, by bytes of UTF-8, and its field in
the node above.  Nodes are told apart by numbers.
-/

namespace RbsSynth.Analysis

structure Tree where
  id : Nat
  kind : String
  start : Nat
  stop : Nat
  /-- The field it has in the node above, or an empty text. -/
  field : String
  named : Bool
  /-- It was put in where the text lacks something. -/
  missing : Bool
  /-- It or a node under it does not fit the language. -/
  faulty : Bool
  children : List Tree

/-! ## Text -/

/-- What follows so many bytes. -/
def dropBytes : Nat → List Char → List Char
  | 0, cs => cs
  | _, [] => []
  | n, c :: cs => dropBytes (n - c.utf8Size) cs

/-- The first so many bytes. -/
def takeBytes : Nat → List Char → List Char
  | 0, _ => []
  | _, [] => []
  | n, c :: cs => c :: takeBytes (n - c.utf8Size) cs

/-- The part of a text between two places, counted in bytes. -/
def between (source : List Char) (start stop : Nat) : String :=
  .ofList (takeBytes (stop - start) (dropBytes start source))

namespace Tree

def text (source : List Char) (t : Tree) : String := between source t.start t.stop

/-- The line and the byte in it on which a node starts, both counted from one. -/
def position (source : List Char) (t : Tree) : Nat × Nat :=
  let before := takeBytes t.start source
  let line := (before.reverse.takeWhile (· != '\n')).foldl (fun n c => n + c.utf8Size) 0
  (before.count '\n' + 1, line + 1)

/-! ## Children -/

/-- The first child that has a field. -/
def child? (t : Tree) (field : String) : Option Tree := t.children.find? (·.field == field)

def namedChildren (t : Tree) : List Tree := t.children.filter (·.named)

def isCode (t : Tree) : Bool := t.named && t.kind != "comment"

/-- The named children that are no comments. -/
def parts (t : Tree) : List Tree := t.children.filter isCode

mutual

/-- How many levels of nodes there are. -/
def height : Tree → Nat
  | ⟨_, _, _, _, _, _, _, _, children⟩ => heightOfAll children + 1
termination_by structural t => t

def heightOfAll : List Tree → Nat
  | [] => 0
  | t :: ts => max t.height (heightOfAll ts)
termination_by structural ts => ts

end

/-! ## Values -/

/-- The text inside of a node's delimiters. -/
def innerText (source : List Char) (t : Tree) : String :=
  match t.namedChildren.head?, t.namedChildren.getLast? with
  | some first, some last => between source first.start last.stop
  | _, _ => ""

/-- What a node gives as an argument: a symbol its name, a string what it says, `nil` nothing, and
every other node its text. -/
def value (source : List Char) (t : Tree) : String :=
  match t.kind with
  | "nil" => ""
  | "simple_symbol" => .ofList ((t.text source).toList.drop 1)
  | "string" | "delimited_symbol" | "bare_string" | "bare_symbol" => t.innerText source
  | _ => t.text source

/-- The nodes whose value counts even where they have children. -/
def isLiteral (t : Tree) : Bool :=
  ["string", "simple_symbol", "delimited_symbol", "hash_key_symbol", "integer", "float", "nil",
    "true", "false"].contains t.kind

/-! ## Calls, blocks and parameters -/

def isBlock (t : Tree) : Bool := t.kind == "block" || t.kind == "do_block"

/-- The literal block of a call. -/
def block? (t : Tree) : Option Tree :=
  (t.child? "block").or (t.namedChildren.find? isBlock)

def arguments (t : Tree) : List Tree :=
  match t.child? "arguments" with
  | some a => a.parts
  | none => []

/-- The kinds of arguments that no positional parameter is bound to. -/
def otherArguments : List String :=
  ["pair", "block_argument", "splat_argument", "hash_splat_argument", "forward_argument", "comment"]

/-- Whether an argument is bound to a positional parameter. -/
def isPositional (t : Tree) : Bool := !otherArguments.contains t.kind

/-- Whether an argument stands for a number of arguments that is not known. -/
def isSplat (t : Tree) : Bool := t.kind == "splat_argument" || t.kind == "forward_argument"

/-- The statements of a block. -/
def body (t : Tree) : List Tree :=
  t.parts.flatMap fun c =>
    if c.kind = "block_parameters" then []
    else if c.kind = "block_body" ∨ c.kind = "body_statement" then c.parts
    else [c]

/-- The parameters of a block. -/
def blockParameters? (t : Tree) : Option Tree :=
  (t.child? "parameters").or (t.namedChildren.find? (·.kind == "block_parameters"))

/-- The name of a parameter; one that takes values apart has none. -/
def parameterName? (source : List Char) (t : Tree) : Option String :=
  if t.kind = "identifier" then some (t.text source) else (t.child? "name").map (·.text source)

/-- The names of parameters in order. -/
def parameterNames (source : List Char) (t : Tree) : List (Option String) :=
  (t.parts.filter (·.kind != "block_parameters")).map (parameterName? source)

mutual

/-- The identifiers at and under a node. -/
def identifiers (source : List Char) : Tree → List String
  | ⟨id, kind, start, stop, field, named, missing, faulty, children⟩ =>
    (if kind = "identifier" then
        [text source ⟨id, kind, start, stop, field, named, missing, faulty, children⟩]
      else []) ++ identifiersOfAll source children
termination_by structural t => t

/-- The identifiers at and under those nodes that are named. -/
def identifiersOfAll (source : List Char) : List Tree → List String
  | [] => []
  | t :: ts =>
    (if t.named then t.identifiers source else []) ++ identifiersOfAll source ts
termination_by structural ts => ts

end

/-! ## Faults -/

mutual

/-- The first node that is a fault or was put in; only nodes that are marked are looked into. -/
def firstFault? : Tree → Option Tree
  | ⟨id, kind, start, stop, field, named, missing, faulty, children⟩ =>
    if kind = "ERROR" ∨ missing then
      some ⟨id, kind, start, stop, field, named, missing, faulty, children⟩
    else if faulty then firstFaultOfAll? children
    else none
termination_by structural t => t

def firstFaultOfAll? : List Tree → Option Tree
  | [] => none
  | t :: ts => (firstFault? t).or (firstFaultOfAll? ts)
termination_by structural ts => ts

end

end Tree

end RbsSynth.Analysis
