import RbsSynth.CommandLine.Arguments
import RbsSynth.Console.Table
import RbsSynth.Engine.Calls
import RbsSynth.Engine.Project
import RbsSynth.Settings.Reader
import RbsSynth.Text.Markup

/-!
What a command does: what it prints and writes, and how it ends.

It ends with 0, or with 2 when its arguments are wrong, or else with 1.  Errors that signatures,
programs and templates cause are told; one in the settings or in writing a file ends the command
without a word.
-/

namespace RbsSynth.CommandLine

/-- What a command starts from. -/
structure Workplace where
  project : Project
  environment : List (String × String) := []

structure Outcome where
  exit : Nat
  stdout : String := ""
  stderr : String := ""
  /-- The files afterwards. -/
  files : Files

/-- The columns of a terminal. -/
def screenWidth : Nat := 400

def usage : String :=
  "Usage: siggen [-v] generate PATH [-s PATH]... [--no-core] [-o FILE]\n" ++
  "       siggen [-v] calls PATH [-s PATH]... [--no-core]\n"

namespace Workplace

def succeed (w : Workplace) (stdout : String) : Outcome := ⟨0, stdout, "", w.project.files⟩

def refuse (w : Workplace) : Outcome := ⟨2, "", usage, w.project.files⟩

/-- Ends with an error that is not told. -/
def stop (w : Workplace) : Outcome := ⟨1, "", "", w.project.files⟩

/-- A text as it is shown in places that take markup. -/
def literally (text : String) : String :=
  .ofList (Text.plainOfMarkup (Text.escapeMarkup text.toList))

/-- Ends with an error that is told. -/
def fail (w : Workplace) (message : String) : Outcome :=
  ⟨1, "", Console.wrap screenWidth ("Error: " ++ literally message) ++ "\n", w.project.files⟩

end Workplace

/-! ## Errors -/

/-- What is told of an error, if it is. -/
def told? : ProjectError → Option String
  | .pattern _ => none
  | .analysis (.resolution _) => none
  | .generation (.write _) => none
  | .generation (.expansion e) => if e.cause = .attribute then none else some e.explanation
  | e => some e.message

def Workplace.failWith (w : Workplace) (e : ProjectError) : Outcome :=
  match told? e with
  | some message => w.fail message
  | none => w.stop

/-! ## Commands -/

namespace Workplace

def settings (w : Workplace) : Except SettingsError Settings :=
  Settings.read
    { environment := w.environment
      assignments := w.project.files.read? (Path.ofText ".env") }

/-- Whether there is something that a path, as it was written, can mean. -/
def reaches (w : Workplace) (target : String) (directories : Bool) : Bool :=
  match w.project.files.entry? (Path.ofText target) with
  | some (.file _ _) => !Path.meansDirectory target
  | some (.directory _) => directories && target != ""
  | none => false

/-- The engine's settings for a request: its signatures come after those of the settings. -/
def settingsFor (r : Request) (s : Settings) : Settings :=
  { s with
    signaturePaths := s.signaturePaths ++ r.signatures
    loadCore := s.loadCore && r.loadCore }

/-- Runs the engine on the path of a request. -/
def run {α : Type} (w : Workplace) (s : Settings) (r : Request)
    (look : Engine → Except GenerationError α) :
    Except ProjectError (Engine × List (Path × α) × List Path) := do
  let e ← Engine.ofProject (settingsFor r s) w.project
  let (e, run) := e.run w.project look (Path.ofText r.target)
  return (e, run.seen, ← run.outcome)

/-- Generates declarations and prints or writes them. -/
def generate (w : Workplace) (s : Settings) (r : Request) (output : Option Path) : Outcome :=
  match w.run s r Engine.generate with
  | .error e => w.failWith e
  | .ok (_, seen, files) =>
    let text := Text.join "" (seen.map (·.2))
    match output with
    | none => w.succeed (Console.shown text)
    | some path =>
      match w.project.files.write? path text with
      | none => w.stop
      | some after =>
        let report := "✓ Generated declarations for " ++ toString files.length ++ " files\n"
        let place := Console.wrap screenWidth ("  Output: " ++ literally path.render) ++ "\n"
        ⟨0, report ++ place, "", after⟩

/-- The cells of a row of calls. -/
def cells (r : CallRow) : List String :=
  [literally r.call, literally r.method, r.resolution.word, literally r.owners,
   toString r.templates]

/-- The columns of the table of calls; the last one holds numbers. -/
def callColumns : List Console.Column :=
  CallRow.headers.map fun title => ⟨title, title == "Templates"⟩

def callTable (p : AnalyzedProgram) : String :=
  Console.renderTable callColumns (p.callRows.map cells)

/-- Prints the calls of a program. -/
def calls (w : Workplace) (s : Settings) (r : Request) : Outcome :=
  match w.run s r fun _ => .ok () with
  | .error e => w.failWith e
  | .ok (e, _, _) => w.succeed ((e.program.map callTable).getD "")

/-- Runs a command in a directory. -/
def execute (w : Workplace) : Command → Outcome
  | .help => w.succeed usage
  | .generate r output =>
    if !w.reaches r.target true then w.refuse
    else match w.settings with
      | .error _ => w.stop
      | .ok s => w.generate s r output
  | .calls r =>
    if !w.reaches r.target false then w.refuse
    else match w.settings with
      | .error _ => w.stop
      | .ok s => w.calls s r

/-- Runs the command that the arguments ask for. -/
def perform (w : Workplace) (args : List String) : Outcome :=
  match command? args with
  | none => w.refuse
  | some c => w.execute c

end Workplace

end RbsSynth.CommandLine
