import RbsSynth.Analysis.Resolver
import RbsSynth.Text.Lines
import RbsSynth.Text.Quoted

/-!
Analysis of programs.

A tree with faults is refused at the first of them.
-/

namespace RbsSynth

open Analysis

/-- A place where the text of a program does not fit the language. -/
structure ProgramFault where
  name : String
  line : Nat
  column : Nat
  details : String
  deriving DecidableEq

def ProgramFault.message (f : ProgramFault) : String :=
  "Syntax error in program " ++ f.name ++ ":" ++ toString f.line ++ ":" ++ toString f.column ++ ": "
    ++ f.details

/-- Why a program cannot be analyzed. -/
inductive AnalysisError
  | fault (f : ProgramFault)
  | resolution (e : ResolutionError)
  deriving DecidableEq

def AnalysisError.message : AnalysisError → String
  | fault f => f.message
  | resolution e => e.message

/-- A program with what is known of its calls. -/
structure AnalyzedProgram where
  name : String
  root : ProgramNode
  typing : Typing

/-- What a faulty node says. -/
def faultDetails (source : List Char) (t : Tree) : String :=
  if t.missing then "missing " ++ t.kind
  else
    match Text.trim (t.text source).toList with
    | [] => "unexpected input"
    | cs => "unexpected " ++ Text.quoted (.ofList (Text.firstLine cs))

/-- The fault that a tree is refused for. -/
def programFault (name : String) (source : List Char) (t : Tree) : ProgramFault :=
  let node := t.firstFault?.getD t
  let (line, column) := node.position source
  ⟨name, line, column, faultDetails source node⟩

/-- Resolves the calls of a program against an environment. -/
def analyzeProgram (env : Environment) (name text : String) (t : Tree) :
    Except AnalysisError AnalyzedProgram :=
  if t.faulty then .error (.fault (programFault name text.toList t))
  else match (Program.mk env text.toList).resolveTree t with
    | .ok (root, typing) => .ok ⟨name, root, typing⟩
    | .error e => .error (.resolution e)

end RbsSynth
