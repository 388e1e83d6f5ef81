import RbsSynth.Signature.Declaration

/-!
Comments and the declarations they belong to.

The commented lines of a text fall into blocks: maximal runs of consecutive lines.  A block belongs
to what starts on the line below it.
-/

namespace RbsSynth.Signature

/-- A comment as it was read: its text with the sign, and where it starts. -/
structure CommentLine where
  text : List Char
  line : Nat
  column : Nat
  deriving DecidableEq

namespace CommentLine

/-- The text without the sign and at most one space behind it. -/
def content (c : CommentLine) : String :=
  match c.text.drop 1 with
  | ' ' :: cs => .ofList cs
  | cs => .ofList cs

/-- The order of places in a text. -/
def before (a b : CommentLine) : Bool :=
  decide (a.line < b.line) || (a.line == b.line && decide (a.column ≤ b.column))

def insertSorted (c : CommentLine) : List CommentLine → List CommentLine
  | [] => [c]
  | d :: ds => if c.before d then c :: d :: ds else d :: insertSorted c ds

def sort : List CommentLine → List CommentLine
  | [] => []
  | c :: cs => insertSorted c (sort cs)

end CommentLine

/-- Consecutive commented lines, from the first to `lastLine`. -/
structure CommentBlock where
  first : CommentLine
  texts : List String
  lastLine : Nat
  deriving DecidableEq

namespace CommentBlock

def single (c : CommentLine) : CommentBlock := ⟨c, [c.content], c.line⟩

/-- Goes on with a block that is still open. -/
def blocksFrom (block : CommentBlock) : List CommentLine → List CommentBlock
  | [] => [block]
  | c :: cs =>
    if c.line = block.lastLine + 1 then
      blocksFrom ⟨block.first, block.texts ++ [c.content], c.line⟩ cs
    else block :: blocksFrom (single c) cs

/-- The blocks of some commented lines. -/
def ofLines (cs : List CommentLine) : List CommentBlock :=
  match CommentLine.sort cs with
  | [] => []
  | c :: rest => blocksFrom (single c) rest

def toComment (name : String) (b : CommentBlock) : Comment :=
  ⟨Text.join "\n" b.texts, some ⟨name, b.first.line, b.first.column, b.lastLine, 0⟩⟩

/-- The comment whose block ends on a line. -/
def endingAt? (name : String) (blocks : List CommentBlock) (line : Nat) : Option Comment :=
  (blocks.find? (·.lastLine == line)).map (toComment name)

end CommentBlock

/-- Gives what starts on a line the comment that ends on the line above. -/
def Notes.attach (name : String) (blocks : List CommentBlock) (n : Notes) : Notes :=
  match n.location with
  | none => n
  | some l => { n with comment := CommentBlock.endingAt? name blocks (l.startLine - 1) }

end RbsSynth.Signature
