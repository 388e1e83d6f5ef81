import RbsSynth.Analysis.Program

/-!
The table of the calls of a program and what they are resolved to.
-/

namespace RbsSynth

structure CallRow where
  /-- The start of the call's text. -/
  call : String
  method : String
  resolution : ResolutionKind
  owners : String
  templates : Nat
  deriving DecidableEq

/-- How much of a call's text is shown. -/
def snippetWidth : Nat := 48

/-- The first line of a text, cut where it is too long. -/
def snippet (text : String) : String :=
  let line := Text.firstLine (Text.trim text.toList)
  if line.length ≤ snippetWidth then .ofList line
  else .ofList (line.take (snippetWidth - 3) ++ ['.', '.', '.'])

/-- A method with its owner, as `Owner#method` or `Owner.method`. -/
def MatchedMethod.title (m : MatchedMethod) : String :=
  m.owner ++ (if m.side = .ofSingleton then "." else "#") ++ m.method

def callRow (c : Call) (r : Resolution) : CallRow where
  call := snippet (if c.text.isEmpty then c.method else c.text)
  method := c.method
  resolution := r.kind
  owners := Text.join ", " (r.declarations.map MatchedMethod.title)
  templates := (r.declarations.flatMap (·.templates)).length

/-- The rows of all calls of which something is known, in the order of the program. -/
def AnalyzedProgram.callRows (p : AnalyzedProgram) : List CallRow :=
  p.root.calls.filterMap fun c => (p.typing.of? c.id).map (callRow c)

def CallRow.headers : List String := ["Call", "Method", "Resolution", "Owners", "Templates"]

end RbsSynth
