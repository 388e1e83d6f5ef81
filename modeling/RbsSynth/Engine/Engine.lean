import RbsSynth.Analysis.Program
import RbsSynth.Settings.Basic
import RbsSynth.Environment.Loading
import RbsSynth.Generation.Traversal
import RbsSynth.Signature.Merge
import RbsSynth.Signature.Writer

/-!
The engine: signatures, the program analyzed last, and what is generated for it.

A step that fails leaves the engine as it was.
-/

namespace RbsSynth

open Signature

structure Engine where
  settings : Settings
  env : Environment
  program : Option AnalyzedProgram := none

/-- Why nothing is generated. -/
inductive GenerationError
  | noProgram
  | expansion (e : ExpansionError)
  | fragment (e : FragmentError)
  | write (e : WriteError)

def GenerationError.message : GenerationError → String
  | noProgram => "Nothing to generate: no program has been analyzed"
  | expansion e => e.message
  | fragment e => e.message
  | write e => e.message

/-- The declarations of emissions in order, up to the first that fails; none if there are no
emissions. -/
def declarationsOfEmissions : List Emission → Except GenerationError (List Declaration)
  | [] => .ok []
  | e :: rest => do
    let f ← e.expand.mapError .expansion
    let ds ← f.declarations.mapError .fragment
    return ds ++ (← declarationsOfEmissions rest)

/-- Leaves out the lines that are blank. -/
def dropBlankLines (text : String) : String :=
  .ofList ((Text.lines text.toList).filter fun line => !(Text.trim line).isEmpty).flatten

/-- The signature text for a program; it is empty when no call has a template. -/
def AnalyzedProgram.generate (p : AnalyzedProgram) : Except GenerationError String := do
  let emissions := p.root.emissions p.typing []
  let ds ← declarationsOfEmissions emissions
  if emissions.isEmpty then return ""
  match write (merge ds) with
  | .ok text => return dropBlankLines text
  | .error e => throw (.write e)

namespace Engine

/-- A name, or the one in its place when there is none. -/
def nameOr (name : Option String) (default : String) : String :=
  match name with
  | some n => if n.isEmpty then default else n
  | none => default

def addSignature (e : Engine) (text : String) (name : Option String) :
    Except SignatureError (Engine × List Declaration) :=
  match e.env.addSignature text (nameOr name e.settings.signatureName) with
  | .ok (env, ds) => .ok ({ e with env := env }, ds)
  | .error err => .error err

/-- Analyzes a program, which then takes the place of the one before. -/
def analyzeProgram (e : Engine) (text : String) (name : Option String) (t : Analysis.Tree) :
    Except AnalysisError (Engine × AnalyzedProgram) :=
  match RbsSynth.analyzeProgram e.env (nameOr name e.settings.programName) text t with
  | .ok p => .ok ({ e with program := some p }, p)
  | .error err => .error err

def generate (e : Engine) : Except GenerationError String :=
  match e.program with
  | some p => p.generate
  | none => .error .noProgram

end Engine

end RbsSynth
