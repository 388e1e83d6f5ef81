import RbsSynth.Engine.Engine
import RbsSynth.Files.Pattern
import RbsSynth.Text.Lines

/-!
Projects: an engine for signature and program files.

Signature files are loaded in the order of their paths, and those of a directory in the order of
their names; the core files come first.  The programs below a path are analyzed one after another,
and what is done with each happens before the next one is analyzed.
-/

namespace RbsSynth

open Signature

/-- Files, and the syntax trees of program texts. -/
structure Project where
  files : Files
  trees : Index Analysis.Tree

inductive ProjectError
  | noSignatures (path : Path)
  | noPrograms (path : Path)
  | pattern (e : PatternError)
  | signature (e : SignatureError)
  | analysis (e : AnalysisError)
  | generation (e : GenerationError)
  /-- The syntax tree of a program is not known. -/
  | noTree (path : Path)

def ProjectError.message : ProjectError → String
  | noSignatures path => "Signature path does not exist: " ++ path.render
  | noPrograms path => "Program path does not exist: " ++ path.render
  | pattern e => e.message
  | signature e => e.message
  | analysis e => e.message
  | generation e => e.message
  | noTree path => "No syntax tree for program " ++ path.render

namespace Project

/-- The text of a file, with line feeds at the ends of its lines. -/
def readText (text : String) : String := .ofList (Text.unifyLineEnds text.toList)

/-- The files below a directory that are of a pattern. -/
def found (files : Files) (glob : String) (path : Path) :
    Except ProjectError (List (Path × String)) :=
  match Pattern.ofText glob with
  | .ok pattern => .ok (pattern.find files path)
  | .error e => .error (.pattern e)

/-- The files at a path: the file itself, or those of a pattern below the directory. -/
def filesAt (p : Project) (glob : String) (missing : Path → ProjectError) (path : Path) :
    Except ProjectError (List (Path × String)) :=
  match p.files.entry? path with
  | some (.file _ text) => .ok [(path, text)]
  | some (.directory _) => found p.files glob path
  | none => .error (missing path)

/-- What a program file's name ends with. -/
def programSuffix : String := ".rb"

/-- The programs at a path; below a directory they have the suffix of programs. -/
def programsAt (p : Project) (glob : String) (path : Path) :
    Except ProjectError (List (Path × String)) :=
  match p.files.entry? path with
  | some (.directory _) =>
    (found p.files glob path).map (·.filter fun (q, _) => q.suffix = programSuffix)
  | _ => p.filesAt glob .noPrograms path

end Project

/-- The core signatures whose files are of a pattern. -/
def Core.chosen (glob : String) :
    Except ProjectError (List (String × Except Fault (List Declaration))) := do
  let files ← Project.found (Files.ofList Core.files) glob .here
  let sources := files.map fun (path, _) => "core/" ++ path.render
  return Core.declarations.filter fun (source, _) => sources.contains source

namespace Environment

def addFiles (env : Environment) : List (Path × String) → Except ProjectError Environment
  | [] => .ok env
  | (path, text) :: rest =>
    match env.addSignature (Project.readText text) path.render with
    | .ok (env, _) => env.addFiles rest
    | .error e => .error (.signature e)

/-- Adds the signatures at paths; a path is looked at when those before it are loaded. -/
def addPaths (env : Environment) (p : Project) (glob : String) :
    List Path → Except ProjectError Environment
  | [] => .ok env
  | path :: rest => do
    let env ← env.addFiles (← p.filesAt glob .noSignatures path)
    env.addPaths p glob rest

end Environment

namespace Engine

/-- An engine with the signatures that its settings ask for. -/
def ofProject (settings : Settings) (p : Project) : Except ProjectError Engine := do
  let core ← if settings.loadCore then Core.chosen settings.signatureGlob else pure []
  let env ← (Environment.addRead { marker := settings.marker } core).mapError .signature
  return { settings, env := ← env.addPaths p settings.signatureGlob settings.signaturePaths }

/-- Analyzes the program of a file. -/
def analyzeFile (e : Engine) (p : Project) (path : Path) (text : String) :
    Except ProjectError Engine :=
  let text := Project.readText text
  match p.trees.find? text with
  | none => .error (.noTree path)
  | some t =>
    match e.analyzeProgram text (some path.render) t with
    | .ok (e, _) => .ok e
    | .error err => .error (.analysis err)

/-- What came of the programs at a path. -/
structure Run (α : Type) where
  /-- What was seen after each program, up to the first error. -/
  seen : List (Path × α)
  /-- The programs that were analyzed, if there was no error. -/
  outcome : Except ProjectError (List Path)

/-- Analyzes files one after another and looks at the engine after each. -/
def analyzeFiles {α : Type} (p : Project) (look : Engine → Except GenerationError α) :
    Engine → List (Path × String) → Engine × List (Path × α) × Except ProjectError (List Path)
  | e, [] => (e, [], .ok [])
  | e, (path, text) :: rest =>
    match e.analyzeFile p path text with
    | .error err => (e, [], .error err)
    | .ok e =>
      match look e with
      | .error err => (e, [], .error (.generation err))
      | .ok a =>
        let (e, seen, outcome) := analyzeFiles p look e rest
        (e, (path, a) :: seen, outcome.map (path :: ·))

/-- Analyzes the programs at a path, and looks at the engine after each. -/
def run {α : Type} (e : Engine) (p : Project) (look : Engine → Except GenerationError α)
    (path : Path) : Engine × Run α :=
  match p.programsAt e.settings.programGlob path with
  | .error err => (e, ⟨[], .error err⟩)
  | .ok files =>
    let (e, seen, outcome) := analyzeFiles p look e files
    (e, ⟨seen, outcome⟩)

/-- One run after another, each with the engine that the one before leaves. -/
def runAll {α : Type} (p : Project) (look : Engine → Except GenerationError α) :
    Engine → List Path → List (Engine × Run α)
  | _, [] => []
  | e, path :: rest =>
    let (e, r) := e.run p look path
    (e, r) :: runAll p look e rest

end Engine

end RbsSynth
