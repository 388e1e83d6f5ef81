import RbsSynth.Lr.Machine
import RbsSynth.Signature.Fault
import RbsSynth.Signature.Table
import RbsSynth.Signature.Value

/-!
Reading a signature text.

The text is cut into tokens one after another, each by the lexicon of the state that the machine is
in, and each token is given to the machine at once.  Blanks and comments are left out, but comments
are kept for the declarations below them.

`parse text name` is the declarations of a text; `name` is for places and messages.
-/

namespace RbsSynth.Signature

/-- A value with the part of the text that it was read from, if it was read from any. -/
structure Node where
  value : Value
  span : Option Span

/-- The span from the first token to the last. -/
def hull (nodes : List Node) : Option Span :=
  let spans := nodes.filterMap (·.span)
  match spans.head?, spans.getLast? with
  | some first, some last => some ⟨first.start, last.stop⟩
  | _, _ => none

def productionTable : Array Production := productions.toArray

/-- For each production, its nonterminal's number and the length of its body. -/
def productionShapes : Array (Nat × Nat) :=
  (productions.map fun p => (p.head.number, p.body.length)).toArray

/-- The lexicon of each state. -/
def lexicons : Array Lexicon := (table.toList.map Lexicon.ofRow).toArray

def buildNode (name : String) (production : Nat) (nodes : List Node) : Option Node :=
  match productionTable[production]? with
  | none => none
  | some p =>
    let span := hull nodes
    (p.rule.build name span (nodes.map (·.value))).map (⟨·, span⟩)

def machine (name : String) : Lr.Machine Node :=
  ⟨table, productionShapes, buildNode name⟩

/-- How far a text has been read. -/
structure Progress where
  stack : List (Lr.Frame Node) := []
  position : Position := {}
  /-- The comments so far, the last first. -/
  comments : List CommentLine := []
  /-- Where the last token starts. -/
  lastStart : Position := {}

/-- The terminals with a move in the state on top of a stack. -/
def movesOf (stack : List (Lr.Frame Node)) : List Terminal :=
  match table[Lr.top stack]? with
  | none => []
  | some row => Terminal.all.filter fun t => row.accepts t.number

/-- Gives a token to the machine. -/
def Progress.feed (name : String) (st : Progress) (t : Token) : Except Fault Progress :=
  match (machine name).settle t.terminal.number st.stack with
  | .shift state stack =>
    .ok { st with
      stack := ⟨state, ⟨.token t, some t.span⟩⟩ :: stack
      position := t.span.stop
      lastStart := t.span.start }
  | .accept stack | .refuse stack =>
    .error ⟨name, t.span.start, .unexpected t.terminal t.text, movesOf stack⟩

/-- Reads what stands next in a text that has not ended; also gives its length. -/
def Progress.step (name : String) (st : Progress) (cs : List Char) : Except Fault (Progress × Nat) :=
  let lexicon := lexicons.getD (Lr.top st.stack) Lexicon.full
  match lexicon.next? cs with
  | some (t, n) =>
    let text := cs.take n
    let stop := st.position.advance text
    if t.isSkipped then
      let comments :=
        if t = .comment then ⟨text, st.position.line, st.position.column⟩ :: st.comments
        else st.comments
      .ok ({ st with position := stop, comments := comments }, n)
    else (st.feed name ⟨t, .ofList text, ⟨st.position, stop⟩⟩).map (·, n)
  | none =>
    match Lexicon.full.next? cs with
    | some (t, n) =>
      .error ⟨name, st.position, .unexpected t (.ofList (cs.take n)), lexicon.expected⟩
    | none => .error ⟨name, st.position, .unmatched (cs.headD ' '), lexicon.expected⟩

/-- Reads a text, leaving out the first `skip` characters, which have been read. -/
def Progress.run (name : String) : Nat → Progress → List Char → Except Fault Progress
  | _, st, [] => .ok st
  | skip + 1, st, _ :: cs => run name skip st cs
  | 0, st, c :: cs =>
    match st.step name (c :: cs) with
    | .error f => .error f
    | .ok (st, n) => run name (n - 1) st cs

/-- The declarations of a text that has been read to its end. -/
def Progress.finish (name : String) (st : Progress) : Except Fault (List Declaration) :=
  match (machine name).settle Terminal.endOfText.number st.stack with
  | .accept [⟨_, ⟨.declarations ds, _⟩⟩] =>
    let blocks := CommentBlock.ofLines st.comments.reverse
    .ok (ds.map (Declaration.mapNotes (Notes.attach name blocks)))
  | .accept stack | .refuse stack | .shift _ stack =>
    .error ⟨name, st.lastStart, .unexpected .endOfText "", movesOf stack⟩

def parse (text : String) (name : String := "a.rbs") : Except Fault (List Declaration) :=
  match Progress.run name 0 {} text.toList with
  | .error f => .error f
  | .ok st => st.finish name

end RbsSynth.Signature
