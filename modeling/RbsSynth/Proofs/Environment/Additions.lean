import RbsSynth.Environment.Methods
import RbsSynth.Proofs.Environment.Kinds
import RbsSynth.Proofs.Environment.Writes

/-!
# Adding is all or nothing

Here an addition is a program on an environment that changes it in place: it reads the text, checks
the kinds, makes its writes one by one, each of which may fail, and notes the source.  What it has
changed when it stops stays changed.  Still

    (adding text source).run.run env
      = (.ok ds, env')              when env.addSignature text source = .ok (env', ds)
      = (.error (.refused e), env)  when env.addSignature text source = .error e      (run_adding)

because everything that is refused is refused before the first write, and no write of a batch fails.
-/

namespace RbsSynth

open Signature

namespace Environment

/-! ## Queries -/

/-- What an environment can be asked. -/
inductive Query
  | findMethod (name method : String) (side : Side)
  | ancestors (name : String) (side : Side)
  | module (name : String)
  | resolveConstant (name : TypeName) (nesting : List String)
  | resolveAlias (name : TypeName) (nesting : List String)
  | constantType (name : String)
  | globalType (name : String)
  | isSubclass (name ancestor : String)
  | sources

/-- What is known of a class, module or interface. -/
structure ModuleFacts where
  known : Bool
  kind : Option ModuleKind
  superclass : Option String
  typeParams : List String
  declarations : List Nestable

inductive Answer
  | method (e : Option MethodEntry)
  | ancestors (as : List Ancestor)
  | module (m : ModuleFacts)
  | name (n : Option String)
  | typeAlias (d : Option AliasDecl)
  | type (t : Option TypeExpr)
  | truth (b : Bool)
  | sources (names : List String)

def answer (env : Environment) : Query → Answer
  | .findMethod name method side => .method (env.findMethod? name method side)
  | .ancestors name side => .ancestors (env.ancestors name side)
  | .module name =>
    .module ⟨env.hasModule name, env.kindOf? name, env.superclassOf? name, env.typeParamsOf name,
      env.declaredAs name⟩
  | .resolveConstant name nesting => .name (env.resolveConstant? name nesting)
  | .resolveAlias name nesting => .typeAlias (env.resolveAlias? name nesting)
  | .constantType name => .type (env.constantType? name)
  | .globalType name => .type (env.globalType? name)
  | .isSubclass name ancestor => .truth (env.isSubclass name ancestor)
  | .sources => .sources env.sources

end Environment

/-! ## Adding in place -/

namespace Signature.Member

/-- The annotations that are searched for templates when a member is written. -/
def annotationBodies : Member → List String
  | .method m => m.notes.annotations.map (·.body)
  | .attribute m => m.notes.annotations.map (·.body)
  | _ => []

end Signature.Member

/-- Makes a write, unless the declaration is of no kind, the entry is missing, or the annotations
cannot be cut at the marker. -/
def Write.attempt (env : Environment) : Write → Option Environment
  | .entry r => r.declaration.kind?.map fun kind => env.addModule r.name kind r.declaration
  | .member here m =>
    if env.hasModule here && (templatesBehind? env.marker.text m.annotationBodies).isSome then
      some (env.addOwnMember here m)
    else none
  | .typeAlias name d => some (Write.perform env (.typeAlias name d))
  | .constant name d => some (Write.perform env (.constant name d))
  | .global d => some (Write.perform env (.global d))

namespace Environment

/-- Why an addition stops: it is refused, or a write fails. -/
inductive AdditionFailure
  | refused (e : SignatureError)
  | stuck (w : Write)

/-- Programs that change an environment in place and may stop. -/
abbrev Adding := ExceptT AdditionFailure (StateM Environment)

def makeWrite (w : Write) : Adding Unit := do
  match w.attempt (← get) with
  | some env => set env
  | none => throw (.stuck w)

/-- Adds the declarations of one source in place. -/
def addingDeclarations (ds : List Declaration) (source : String) : Adding Unit := do
  match (← get).checkDeclarations [] ds with
  | .error c => throw (.refused (.conflict c))
  | .ok () =>
    (batchWrites ds).forM makeWrite
    modify fun env => { env with sources := env.sources ++ [source] }

/-- Adds a signature text in place; also gives its declarations. -/
def adding (text source : String) : Adding (List Declaration) :=
  match parse text source with
  | .error f => throw (.refused (.fault f))
  | .ok ds => do
    addingDeclarations ds source
    return ds

/-! ## No write fails -/

theorem isSome_templatesBehind? (m : Marker) (bodies : List String) :
    (templatesBehind? m.text bodies).isSome = true := by
  unfold templatesBehind?
  split
  · rfl
  · rw [Option.isSome_map, Marker.ofText?, dif_neg m.nonempty]
    rfl

theorem attempt_of_fits {env : Environment} {w : Write} (h : env.Fits w) :
    w.attempt env = some (w.perform env) := by
  cases w with
  | entry r =>
    have hk : r.declaration.kind? = some r.kind := h
    show r.declaration.kind?.map _ = _
    rw [hk]
    rfl
  | member here m =>
    have hhere : env.hasModule here = true := h
    show (if _ then _ else _) = _
    rw [hhere, isSome_templatesBehind?, Bool.and_true, if_pos rfl]
    rfl
  | typeAlias name d => rfl
  | constant name d => rfl
  | global d => rfl

/-! ## Runs -/

/-- What a program gives in an environment, and the environment that it leaves. -/
def Adding.result {α : Type} (x : Adding α) (env : Environment) :
    Except AdditionFailure α × Environment := x.run.run env

variable {α β : Type} {env env' : Environment}

theorem Adding.result_bind_ok {x : Adding α} {a : α} (h : x.result env = (.ok a, env'))
    (f : α → Adding β) : Adding.result (x >>= f) env = (f a).result env' := by
  have hx : x.run.run env = (.ok a, env') := h
  show (x >>= f).run.run env = _
  rw [ExceptT.run_bind, StateT.run_bind, hx]
  rfl

theorem Adding.result_bind_error {x : Adding α} {e : AdditionFailure}
    (h : x.result env = (.error e, env')) (f : α → Adding β) :
    Adding.result (x >>= f) env = (.error e, env') := by
  have hx : x.run.run env = (.error e, env') := h
  show (x >>= f).run.run env = _
  rw [ExceptT.run_bind, StateT.run_bind, hx]
  rfl

theorem result_makeWrite {w : Write} (h : env.Fits w) :
    (makeWrite w).result env = (.ok (), w.perform env) := by
  show Adding.result (match w.attempt env with
    | some env' => set env'
    | none => throw (.stuck w)) env = _
  rw [attempt_of_fits h]
  rfl

/-- All writes of a run are made. -/
theorem result_forM_makeWrite {ws : List Write} (h : env.Fit ws) :
    Adding.result (ws.forM makeWrite) env = (.ok (), ws.foldl Write.perform env) := by
  induction ws generalizing env with
  | nil => rfl
  | cons w ws ih =>
    rw [List.forM_eq_forM, List.forM_cons, Adding.result_bind_ok (result_makeWrite h.1)]
    exact ih h.2

/-- The environment with the declarations of one source. -/
def withBatch (env : Environment) (ds : List Declaration) (source : String) : Environment :=
  let written := (batchWrites ds).foldl Write.perform env
  { written with sources := written.sources ++ [source] }

theorem addDeclarations_eq (env : Environment) (ds : List Declaration) (source : String) :
    env.addDeclarations ds source =
      match env.checkDeclarations [] ds with
      | .error c => .error c
      | .ok () => .ok (env.withBatch ds source) := by
  rw [addDeclarations, foldl_addDeclaration]
  rfl

theorem addSignature_of_parse {text source : String} {ds : List Declaration}
    (h : parse text source = .ok ds) (env : Environment) :
    env.addSignature text source =
      match env.checkDeclarations [] ds with
      | .error c => .error (.conflict c)
      | .ok () => .ok (env.withBatch ds source, ds) := by
  rw [addSignature, h]
  simp only [addDeclarations_eq]
  cases env.checkDeclarations [] ds with
  | error c => rfl
  | ok u => rfl

theorem result_addingDeclarations (env : Environment) (ds : List Declaration) (source : String) :
    (addingDeclarations ds source).result env =
      match env.checkDeclarations [] ds with
      | .error c => (.error (.refused (.conflict c)), env)
      | .ok () => (.ok (), env.withBatch ds source) := by
  show Adding.result (match env.checkDeclarations [] ds with
    | .error c => throw (.refused (.conflict c))
    | .ok () => do
      (batchWrites ds).forM makeWrite
      modify fun env => { env with sources := env.sources ++ [source] }) env = _
  cases env.checkDeclarations [] ds with
  | error c => rfl
  | ok u =>
    show Adding.result ((batchWrites ds).forM makeWrite >>= _) env = _
    rw [Adding.result_bind_ok (result_forM_makeWrite (fit_batchWrites env ds))]
    rfl

/-- An addition in place gives what the addition gives, and leaves its environment, or the one from
before when it is refused. -/
theorem result_adding (env : Environment) (text source : String) :
    (adding text source).result env =
      match env.addSignature text source with
      | .ok (env', ds) => (.ok ds, env')
      | .error e => (.error (.refused e), env) := by
  unfold adding
  cases hparse : parse text source with
  | error f =>
    rw [addSignature, hparse]
    rfl
  | ok ds =>
    show Adding.result (addingDeclarations ds source >>= fun _ => pure ds) env = _
    have hrun := result_addingDeclarations env ds source
    rw [addSignature_of_parse hparse]
    cases hc : env.checkDeclarations [] ds with
    | error c =>
      rw [hc] at hrun
      rw [Adding.result_bind_error hrun]
    | ok u =>
      rw [hc] at hrun
      rw [Adding.result_bind_ok hrun]
      rfl

/-! ## What a batch leaves -/

/-- All that a batch declares is in an environment, behind or in front of what was there. -/
structure Holds (env : Environment) (ds : List Declaration) (source : String) (env' : Environment) :
    Prop where
  /-- Each name has its old declarations and then those of the batch. -/
  declarations : ∀ n, env'.recorded n = recordAll (batchRegistered ds) n (env.recorded n)
  members : ∀ n,
    env'.ownMembers n = env.ownMembers n ++ (batchWrites ds).filterMap (Write.memberOf? n)
  aliases : env'.aliases = ((batchWrites ds).filterMap Write.typeAlias?).reverse ++ env.aliases
  constants : env'.constants = ((batchWrites ds).filterMap Write.constant?).reverse ++ env.constants
  globals : env'.globals = ((batchWrites ds).filterMap Write.global?).reverse ++ env.globals
  sources : env'.sources = env.sources ++ [source]
  marker : env'.marker = env.marker

theorem holds_withBatch (env : Environment) (ds : List Declaration) (source : String) :
    Holds env ds source (env.withBatch ds source) where
  declarations n := by
    show ((batchWrites ds).foldl Write.perform env).recorded n = _
    rw [← foldl_addDeclaration]
    exact recorded_foldl_addDeclaration env ds n
  members n := ownMembers_foldl (fit_batchWrites env ds) n
  aliases := foldl_in_front (·.aliases) Write.typeAlias? (fun _ w => by cases w <;> rfl) env _
  constants := foldl_in_front (·.constants) Write.constant? (fun _ w => by cases w <;> rfl) env _
  globals := foldl_in_front (·.globals) Write.global? (fun _ w => by cases w <;> rfl) env _
  sources := congrArg (· ++ [source]) (foldl_unchanged (·.sources) (fun _ w => by cases w <;> rfl) env _)
  marker := foldl_unchanged (·.marker) (fun _ w => by cases w <;> rfl) env _

/-- The writes of a batch leave nothing out: each declaration at each of its levels is written under
its qualified name, and each of its members that is no declaration. -/
def NothingLeftOut (ds : List Declaration) : Prop :=
  (∀ o level, Within none (nestables ds) o level → ∀ d ∈ level,
    d.write o ∈ batchWrites ds ∧
      ∀ m ∈ d.members, m.nested? = none → .member (qualify o d.name) m ∈ batchWrites ds) ∧
  ∀ g, .globalDecl g ∈ ds → .global g ∈ batchWrites ds

theorem nothingLeftOut (ds : List Declaration) : NothingLeftOut ds := by
  constructor
  · intro o level hw d hd
    obtain ⟨hwrite, hmembers⟩ := hw.mem_writes hd
    exact ⟨mem_batchWrites _ hwrite, fun m hm hn => mem_batchWrites _ (hmembers m hm hn)⟩
  · intro g hg
    exact List.mem_flatMap.mpr ⟨.globalDecl g, hg, List.mem_cons_self⟩

/-! ## Top theorem -/

/-- **Adding is all or nothing.**  When an addition in place stops with an error, the text was refused,
and every query is answered as before.  When the text can be read and its kinds pass the check, it
does not stop: all that the text declares is there, and one more source. -/
theorem adding_all_or_nothing (env : Environment) (text source : String) :
    (∀ e env', (adding text source).result env = (.error e, env') →
      (∃ r, e = .refused r ∧ env.addSignature text source = .error r) ∧
        ∀ q, env'.answer q = env.answer q) ∧
    ∀ ds, parse text source = .ok ds → env.checkDeclarations [] ds = .ok () →
      ∃ env', (adding text source).result env = (.ok ds, env') ∧
        env.addSignature text source = .ok (env', ds) ∧ Holds env ds source env' ∧
          NothingLeftOut ds := by
  have hrun := result_adding env text source
  constructor
  · intro e env' h
    rw [h] at hrun
    cases hadd : env.addSignature text source with
    | ok p =>
      rw [hadd] at hrun
      cases (Prod.mk.inj hrun).1
    | error r =>
      rw [hadd] at hrun
      obtain ⟨he, rfl⟩ := Prod.mk.inj hrun
      exact ⟨⟨r, Except.error.inj he, rfl⟩, fun _ => rfl⟩
  · intro ds hparse hcheck
    have hadd : env.addSignature text source = .ok (env.withBatch ds source, ds) := by
      rw [addSignature_of_parse hparse, hcheck]
    rw [hadd] at hrun
    exact ⟨env.withBatch ds source, hrun, hadd, holds_withBatch env ds source, nothingLeftOut ds⟩

end Environment

end RbsSynth
