import RbsSynth.Engine.Engine
import RbsSynth.Proofs.Environment.Additions

/-!
# What the steps of an engine share

The steps of an engine share more than its environment and program: one buffer in which the comments
of a text are collected, which is cleared when a text is begun and not when it is done or fails, and
the templates that have been read, which are read once.  A `Session` is an engine with these, and the
programs here change it in place.  For each of them one law says what it gives, in every session whose
templates are those of their texts (`Session.Sound`):

    reading text name      gives  parse text name                                  (gives_reading)
    expanding e            gives  e.expand                                        (gives_expanding)
    generating             gives  the text of the engine                         (gives_generating)
-/

namespace RbsSynth

open Signature

/-! ## Templates in two steps -/

namespace Template

/-- Reads a template. -/
def compile (template : String) : Except RenderError (List Statement) :=
  match parse? template with
  | none => .error .malformed
  | some body => if anyRefused false body then .error .unknownName else .ok body

/-- The text that a template gives once it has been read. -/
def renderBody (body : List Statement) (scope : Scope) : Except RenderError String := do
  let p ← runAll ⟨scope, []⟩ body
  return .join p.printed.reverse

end Template

/-! ## Sessions -/

/-- An engine with what its steps leave behind. -/
structure Session where
  engine : Engine
  /-- The comments of the text that was begun last. -/
  comments : List CommentLine := []
  /-- The templates read so far. -/
  compiled : Index (List Template.Statement) := []

/-- Programs that change a session in place. -/
abbrev Working := StateM Session

namespace Session

/-- The templates are those of their texts. -/
def Sound (s : Session) : Prop :=
  ∀ text body, s.compiled.find? text = some body → Template.compile text = .ok body

end Session

/-- In every sound session a program gives `a`, and leaves the session sound and its engine as it
was. -/
def Working.Gives {α : Type} (x : Working α) (e : Engine) (a : α) : Prop :=
  ∀ s : Session, s.Sound → s.engine = e →
    ∃ s' : Session, x.run s = (a, s') ∧ s'.Sound ∧ s'.engine = e

namespace Working

variable {α β : Type} {e : Engine}

theorem gives_pure (a : α) : Gives (pure a) e a := fun s hs he => ⟨s, rfl, hs, he⟩

/-- Programs one after the other. -/
theorem Gives.bind {x : Working α} {a : α} {f : α → Working β} {b : β} (hx : x.Gives e a)
    (hf : (f a).Gives e b) : Gives (x >>= f) e b := by
  intro s hs he
  obtain ⟨s', hrun, hs', he'⟩ := hx s hs he
  obtain ⟨s'', hrun', hs'', he''⟩ := hf s' hs' he'
  refine ⟨s'', ?_, hs'', he''⟩
  rw [StateT.run_bind, hrun]
  exact hrun'

end Working

/-! ## Texts -/

namespace Signature

/-- Where the reading of a text stops: at its end or at a fault. -/
def Progress.reached (name : String) : Nat → Progress → List Char → Progress
  | _, st, [] => st
  | skip + 1, st, _ :: cs => reached name skip st cs
  | 0, st, c :: cs =>
    match st.step name (c :: cs) with
    | .error _ => st
    | .ok (st, n) => reached name (n - 1) st cs

end Signature

namespace Working

open Working

/-- Clears the buffer and reads a text, whose comments are then in the buffer. -/
def reading (text name : String) : Working (Except Fault (List Declaration)) := do
  modify fun s => { s with comments := [] }
  let start : Progress := { comments := (← get).comments }
  modify fun s => { s with comments := (start.reached name 0 text.toList).comments }
  match Progress.run name 0 start text.toList with
  | .error f => return .error f
  | .ok st => return st.finish name

/-- Reads a fragment, and once more as members of its target. -/
def readingFragment (f : Fragment) : Working (Except FragmentError (List Declaration)) := do
  match ← reading f.text f.label with
  | .ok ds => return .ok ds
  | .error fault =>
    if fault.cannotStart then
      match ← reading f.wrapped f.label with
      | .ok ds => return .ok ds
      | .error fault => return .error ⟨f.target, fault⟩
    else return .error ⟨f.target, fault⟩

/-- Reads a template unless that has been done. -/
def compiling (template : String) : Working (Except Template.RenderError (List Template.Statement)) := do
  match (← get).compiled.find? template with
  | some body => return .ok body
  | none =>
    match Template.compile template with
    | .error e => return .error e
    | .ok body =>
      modify fun s => { s with compiled := s.compiled.put template body }
      return .ok body

/-- Expands an emission. -/
def expanding (m : Emission) : Working (Except ExpansionError Fragment) := do
  match ← compiling m.template with
  | .error cause => return .error ⟨m.target, cause⟩
  | .ok body =>
    match Template.renderBody body (bindingValues m.context) with
    | .error cause => return .error ⟨m.target, cause⟩
    | .ok text => return .ok ⟨m.target, text, m.method, m.template⟩

/-- The declarations of emissions, each expanded and read before the next. -/
def declaring : List Emission → Working (Except GenerationError (List Declaration))
  | [] => return .ok []
  | m :: rest => do
    match ← expanding m with
    | .error x => return .error (.expansion x)
    | .ok f =>
      match ← readingFragment f with
      | .error x => return .error (.fragment x)
      | .ok ds =>
        match ← declaring rest with
        | .error x => return .error x
        | .ok more => return .ok (ds ++ more)

/-- Generates the text for a program. -/
def generatingFor (p : AnalyzedProgram) : Working (Except GenerationError String) := do
  let emissions := p.root.emissions p.typing []
  match ← declaring emissions with
  | .error x => return .error x
  | .ok ds =>
    if emissions.isEmpty then return .ok ""
    else match write (merge ds) with
      | .ok text => return .ok (dropBlankLines text)
      | .error x => return .error (.write x)

/-- Generates the text for the program of the session. -/
def generating : Working (Except GenerationError String) := do
  match (← get).engine.program with
  | none => return .error .noProgram
  | some p => generatingFor p

end Working

end RbsSynth
