import RbsSynth.Proofs.Environment.Additions
import RbsSynth.Proofs.Environment.Alike

/-!
# Independent batches commute

Every write has a slot, the name whose thing it changes in one of the four tables, and the slots of a
batch are the names it declares something under.  Writes with different slots commute up to the order
of the tables (`Reordered`), which no query reads but for the list of sources:

    (w.perform (v.perform env)).Reordered (v.perform (w.perform env))               (perform_comm)
    env.Reordered env' → env.SameReads env'                                  (Reordered.sameReads)

The check of kinds asks for the kinds of the batch's own names, so of two batches without a common
slot each is accepted or refused whether or not the other was added (`check_withBatch`).
-/

namespace RbsSynth

open Signature

/-! ## Slots -/

/-- A name in one of the tables of an environment. -/
inductive Slot
  | module (name : String)
  | typeAlias (name : String)
  | constant (name : String)
  | global (name : String)
  deriving DecidableEq

namespace Write

/-- Where a write puts something. -/
def slot : Write → Slot
  | .entry r => .module r.name
  | .member here _ => .module here
  | .typeAlias name _ => .typeAlias name
  | .constant name _ => .constant name
  | .global d => .global d.name

/-- The slot of a declaration; a member declares nothing. -/
def declared? : Write → Option Slot
  | .member _ _ => none
  | w => some w.slot

end Write

namespace Environment

/-- The names under which a batch declares something, at every depth. -/
def declaredSlots (ds : List Declaration) : List Slot := (batchWrites ds).filterMap Write.declared?

/-- Members are written to what is declared around them. -/
theorem slot_mem_writes (d : Nestable) : ∀ outer, ∀ w ∈ d.writes outer,
    w.slot ∈ (d.writes outer).filterMap Write.declared? := by
  induction d using Nestable.induct with
  | h d ih =>
    intro outer w hw
    have hkind : d.members ≠ [] → (d.write outer).declared? = some (.module (qualify outer d.name)) := by
      intro hne
      match d with
      | .classDecl _ | .moduleDecl _ | .interfaceDecl _ => rfl
      | .aliasDecl _ | .constantDecl _ => exact absurd rfl hne
    have hhead : (d.write outer).declared? = some (d.write outer).slot := by
      match d with
      | .classDecl _ | .moduleDecl _ | .interfaceDecl _ | .aliasDecl _ | .constantDecl _ => rfl
    rw [Nestable.writes_eq] at hw ⊢
    rcases List.mem_cons.mp hw with rfl | hw
    · exact List.mem_filterMap.mpr ⟨_, List.mem_cons_self, hhead⟩
    · rw [Member.writesAll_eq] at hw ⊢
      obtain ⟨m, hm, hw⟩ := List.mem_flatMap.mp hw
      cases hn : m.nested? with
      | none =>
        rw [Member.writes_of_none _ hn, List.mem_singleton] at hw
        subst hw
        exact List.mem_filterMap.mpr ⟨_, List.mem_cons_self, hkind (List.ne_nil_of_mem hm)⟩
      | some e =>
        rw [Member.writes_of_some _ hn] at hw
        obtain ⟨v, hv, hslot⟩ := List.mem_filterMap.mp
          (ih e (List.mem_filterMap.mpr ⟨m, hm, hn⟩) _ w hw)
        refine List.mem_filterMap.mpr ⟨v, List.mem_cons_of_mem _ (List.mem_flatMap.mpr ⟨m, hm, ?_⟩), hslot⟩
        rwa [Member.writes_of_some _ hn]

theorem slot_mem_declaredSlots {ds : List Declaration} {w : Write} (hw : w ∈ batchWrites ds) :
    w.slot ∈ declaredSlots ds := by
  obtain ⟨d, hd, hw⟩ := List.mem_flatMap.mp hw
  have hin : w.slot ∈ d.writes.filterMap Write.declared? := by
    cases d with
    | nestable d => exact slot_mem_writes d none w hw
    | globalDecl d =>
      obtain rfl := List.mem_singleton.mp hw
      exact List.mem_singleton.mpr rfl
  obtain ⟨v, hv, hslot⟩ := List.mem_filterMap.mp hin
  exact List.mem_filterMap.mpr ⟨v, List.mem_flatMap.mpr ⟨d, hd, hv⟩, hslot⟩

/-- What a batch registers is among its slots. -/
theorem module_mem_declaredSlots {ds : List Declaration} {r : Registered}
    (hr : r ∈ batchRegistered ds) : .module r.name ∈ declaredSlots ds := by
  rw [batchRegistered_eq] at hr
  obtain ⟨d, hd, hr⟩ := List.mem_flatMap.mp hr
  obtain ⟨o, level, hw, hmem, hkind, hname⟩ := exists_within d none (nestables ds) hd r hr
  have hwrite := slot_mem_declaredSlots (mem_batchWrites _ (hw.mem_writes hmem).1)
  have hslot : (r.declaration.write o).slot = .module r.name := by
    rw [hname]
    cases hd : r.declaration with
    | classDecl _ | moduleDecl _ | interfaceDecl _ => rfl
    | aliasDecl _ | constantDecl _ =>
      rw [hd] at hkind
      cases hkind
  rwa [hslot] at hwrite

/-! ## Environments up to order -/

/-- Two environments with the same things in their tables, perhaps in another order. -/
structure Reordered (env env' : Environment) : Prop where
  marker : env.marker = env'.marker
  modules : env.modules.Reordered env'.modules
  aliases : env.aliases.Reordered env'.aliases
  constants : env.constants.Reordered env'.constants
  globals : env.globals.Reordered env'.globals

namespace Reordered

variable {env env' env'' : Environment}

theorem refl (env : Environment) : env.Reordered env :=
  ⟨rfl, .refl _, .refl _, .refl _, .refl _⟩

theorem symm (h : env.Reordered env') : env'.Reordered env :=
  ⟨h.marker.symm, h.modules.symm, h.aliases.symm, h.constants.symm, h.globals.symm⟩

theorem trans (h : env.Reordered env') (h' : env'.Reordered env'') : env.Reordered env'' :=
  ⟨h.marker.trans h'.marker, h.modules.trans h'.modules, h.aliases.trans h'.aliases,
    h.constants.trans h'.constants, h.globals.trans h'.globals⟩

theorem sameReads (h : env.Reordered env') : env.SameReads env' where
  marker := h.marker
  entry?_cases name := by
    show (env.modules.find? name = none ∧ _) ∨ ∃ e e', env.modules.find? name = some e ∧ _
    rw [show env'.entry? name = env.modules.find? name from (h.modules.find? name).symm]
    cases env.modules.find? name with
    | none => exact .inl ⟨rfl, rfl⟩
    | some e => exact .inr ⟨e, e, rfl, rfl, .refl e⟩
  aliases := h.aliases.find?
  constants := h.constants.find?
  globals := h.globals.find?
  entries := h.modules.perm.length_eq
  aliasTargets := (h.modules.perm.flatMap_right _).length_eq

/-- Every query but that for the sources is answered alike. -/
theorem answer_eq (h : env.Reordered env') {q : Query} (hq : q ≠ .sources) :
    env.answer q = env'.answer q := by
  have hreads := h.sameReads
  have hlookups := hreads.sameLookups
  have hentry : ∀ name, env.entry? name = env'.entry? name := h.modules.find?
  cases q with
  | findMethod name method side => exact congrArg _ (hlookups.findMethod name method side)
  | ancestors name side => exact congrArg _ (hlookups.ancestors name side)
  | module name =>
    simp only [answer, typeParamsOf, declaredAs, hentry, hreads.heads.hasModule_eq,
      hreads.heads.kindOf?_eq, hreads.heads.superclassOf?_eq]
  | resolveConstant name nesting => exact congrArg _ (hlookups.resolveConstant name nesting)
  | resolveAlias name nesting => exact congrArg _ (hlookups.resolveAlias name nesting)
  | constantType name => exact congrArg _ (hlookups.constantType name)
  | globalType name => exact congrArg _ (hlookups.globalType name)
  | isSubclass name ancestor => exact congrArg _ (hreads.isSubclass_eq name ancestor)
  | sources => exact absurd rfl hq

/-- The step: a write respects the order. -/
theorem perform (h : env.Reordered env') (w : Write) :
    (w.perform env).Reordered (w.perform env') := by
  cases w with
  | entry r => exact ⟨h.marker, h.modules.update r.name _, h.aliases, h.constants, h.globals⟩
  | member here m => exact ⟨h.marker, h.modules.modify here _, h.aliases, h.constants, h.globals⟩
  | typeAlias name d => exact ⟨h.marker, h.modules, h.aliases.cons _, h.constants, h.globals⟩
  | constant name d => exact ⟨h.marker, h.modules, h.aliases, h.constants.cons _, h.globals⟩
  | global d => exact ⟨h.marker, h.modules, h.aliases, h.constants, h.globals.cons _⟩

theorem foldl_perform (h : env.Reordered env') (ws : List Write) :
    (ws.foldl Write.perform env).Reordered (ws.foldl Write.perform env') := by
  induction ws generalizing env env' with
  | nil => exact h
  | cons w ws ih => exact ih (h.perform w)

end Reordered

/-! ## Writes commute -/

theorem Reordered.ofModules {env : Environment} {modules modules' : Index ModuleEntry}
    (h : modules.Reordered modules') :
    Reordered { env with modules := modules } { env with modules := modules' } :=
  ⟨rfl, h, .refl _, .refl _, .refl _⟩

theorem Reordered.ofEqModules {env : Environment} {modules modules' : Index ModuleEntry}
    (h : modules = modules') :
    Reordered { env with modules := modules } { env with modules := modules' } :=
  h ▸ .refl _

/-- **Writes with different slots commute.** -/
theorem perform_comm {v w : Write} (h : v.slot ≠ w.slot) (env : Environment) :
    (w.perform (v.perform env)).Reordered (v.perform (w.perform env)) := by
  have hnames : ∀ {C : String → Slot} {a b : String}, C a ≠ C b → a ≠ b := fun hne he => hne (he ▸ rfl)
  -- writes to different tables commute as they stand
  cases v <;> cases w <;> try exact .refl _
  case entry.entry r s =>
    exact .ofModules (Index.reordered_update_update (hnames h).symm _ _ env.modules)
  case entry.member r here m =>
    exact .ofEqModules (Index.modify_update_comm (hnames h).symm _ _ env.modules)
  case member.entry here m r =>
    exact .ofEqModules (Index.modify_update_comm (hnames h) _ _ env.modules).symm
  case member.member here m there k =>
    exact .ofEqModules (Index.modify_modify_comm (hnames h).symm _ _ env.modules)
  case typeAlias.typeAlias a d b e =>
    exact ⟨rfl, .refl _, Index.reordered_cons_cons (hnames h).symm _, .refl _, .refl _⟩
  case constant.constant a d b e =>
    exact ⟨rfl, .refl _, .refl _, Index.reordered_cons_cons (hnames h).symm _, .refl _⟩
  case global.global d e =>
    exact ⟨rfl, .refl _, .refl _, .refl _, Index.reordered_cons_cons (hnames h).symm _⟩

theorem perform_foldl_comm {w : Write} {ws : List Write} (h : ∀ v ∈ ws, v.slot ≠ w.slot)
    (env : Environment) :
    (w.perform (ws.foldl Write.perform env)).Reordered (ws.foldl Write.perform (w.perform env)) := by
  induction ws generalizing env with
  | nil => exact .refl _
  | cons v ws ih =>
    rw [List.foldl_cons, List.foldl_cons]
    exact (ih (fun u hu => h u (List.mem_cons_of_mem v hu)) (v.perform env)).trans
      ((perform_comm (h v List.mem_cons_self) env).foldl_perform ws)

/-- Runs of writes without a common slot commute. -/
theorem foldl_foldl_comm {vs ws : List Write} (h : ∀ v ∈ vs, ∀ w ∈ ws, v.slot ≠ w.slot)
    (env : Environment) :
    (ws.foldl Write.perform (vs.foldl Write.perform env)).Reordered
      (vs.foldl Write.perform (ws.foldl Write.perform env)) := by
  induction ws generalizing env with
  | nil => exact .refl _
  | cons w ws ih =>
    rw [List.foldl_cons, List.foldl_cons]
    exact ((perform_foldl_comm (fun v hv => h v hv w List.mem_cons_self) env).foldl_perform ws).trans
      (ih (fun v hv u hu => h v hv u (List.mem_cons_of_mem w hu)) (w.perform env))

/-! ## The check of kinds -/

/-- The check asks for the kinds of the batch's own names only. -/
theorem check_congr {env env' : Environment} {ds : List Declaration}
    (h : ∀ r ∈ batchRegistered ds, env.kindOf? r.name = env'.kindOf? r.name)
    (hc : env.checkDeclarations [] ds = .ok ()) : env'.checkDeclarations [] ds = .ok () := by
  have hspec := checkDeclarations_spec env ds
  have hspec' := checkDeclarations_spec env' ds
  rw [hc] at hspec
  cases hc' : env'.checkDeclarations [] ds with
  | ok u => rfl
  | error c =>
    rw [hc'] at hspec'
    obtain ⟨o, level, hw, hclash⟩ := hspec'
    have hkind : ∀ {d : Nestable} {kind : ModuleKind}, d ∈ level → d.kind? = some kind →
        env.kindOf? (qualify o d.name) = env'.kindOf? (qualify o d.name) := by
      intro d kind hd hk
      refine h ⟨qualify o d.name, kind, d⟩ ?_
      rw [batchRegistered_eq]
      exact hw.mem_registered hd hk
    cases hclash with
    | entry hd hk he hne =>
      exact absurd (.entry hd hk ((hkind hd hk).trans he) hne) (hspec o level hw _)
    | siblings hd he hn hfree hkd hke hne =>
      exact absurd (.siblings hd he hn ((hkind he hke).trans hfree) hkd hke hne) (hspec o level hw _)

/-- A batch leaves the kinds of names that it does not register. -/
theorem kindOf?_withBatch {env : Environment} {ds : List Declaration} {name : String}
    (h : .module name ∉ declaredSlots ds) (source : String) :
    (env.withBatch ds source).kindOf? name = env.kindOf? name := by
  have hkind : ∀ env : Environment, env.kindOf? name = (env.recorded name).map (·.1) := by
    intro env
    rw [kindOf?, recorded, Option.map_map]
    rfl
  have hnone : (batchRegistered ds).filter (·.name = name) = [] := by
    rw [List.filter_eq_nil_iff]
    intro r hr hn
    rw [← of_decide_eq_true hn] at h
    exact h (module_mem_declaredSlots hr)
  rw [hkind, hkind, (holds_withBatch env ds source).declarations, recordAll, hnone]
  rfl

theorem check_withBatch (env : Environment) {ds ds' : List Declaration}
    (h : (declaredSlots ds).Disjoint (declaredSlots ds')) (source : String) :
    (env.withBatch ds' source).checkDeclarations [] ds = .ok ()
      ↔ env.checkDeclarations [] ds = .ok () := by
  have hkinds : ∀ r ∈ batchRegistered ds,
      (env.withBatch ds' source).kindOf? r.name = env.kindOf? r.name := fun r hr =>
    kindOf?_withBatch (h (module_mem_declaredSlots hr)) source
  exact ⟨check_congr hkinds, check_congr fun r hr => (hkinds r hr).symm⟩

/-! ## Top theorem -/

/-- Adds signature texts, each with its source, one after another; the first refusal ends it. -/
def addSignatures (env : Environment) : List (String × String) → Except SignatureError Environment
  | [] => .ok env
  | (text, source) :: rest =>
    match env.addSignature text source with
    | .error e => .error e
    | .ok (env, _) => env.addSignatures rest

/-- Two texts are both added when their kinds pass, those of the second behind the first. -/
theorem addSignatures_pair {text text' source source' : String} {ds ds' : List Declaration}
    (h : parse text source = .ok ds) (h' : parse text' source' = .ok ds') (env env' : Environment) :
    env.addSignatures [(text, source), (text', source')] = .ok env' ↔
      env.checkDeclarations [] ds = .ok () ∧
        (env.withBatch ds source).checkDeclarations [] ds' = .ok () ∧
          (env.withBatch ds source).withBatch ds' source' = env' := by
  rw [addSignatures, addSignature_of_parse h]
  cases env.checkDeclarations [] ds with
  | error c => exact ⟨fun he => (by cases he), fun he => (by cases he.1)⟩
  | ok u =>
    dsimp only
    rw [addSignatures, addSignature_of_parse h']
    cases (env.withBatch ds source).checkDeclarations [] ds' with
    | error c => exact ⟨fun he => (by cases he), fun he => (by cases he.2.1)⟩
    | ok u => exact ⟨fun he => ⟨rfl, rfl, Except.ok.inj he⟩, fun he => congrArg _ he.2.2⟩

/-- Beside its writes a batch adds a source, which no write reads. -/
theorem withBatch_reordered (env : Environment) (ds : List Declaration) (source : String) :
    (env.withBatch ds source).Reordered ((batchWrites ds).foldl Write.perform env) :=
  ⟨rfl, .refl _, .refl _, .refl _, .refl _⟩

theorem reordered_withBatch {ds ds' : List Declaration}
    (h : (declaredSlots ds).Disjoint (declaredSlots ds')) (env : Environment)
    (source source' : String) :
    ((env.withBatch ds source).withBatch ds' source').Reordered
      ((env.withBatch ds' source').withBatch ds source) := by
  have hboth : ∀ (es es' : List Declaration) (s s' : String),
      ((env.withBatch es s).withBatch es' s').Reordered
        ((batchWrites es').foldl Write.perform ((batchWrites es).foldl Write.perform env)) :=
    fun es es' s s' =>
      (withBatch_reordered _ es' s').trans ((withBatch_reordered env es s).foldl_perform _)
  have hslots : ∀ v ∈ batchWrites ds, ∀ w ∈ batchWrites ds', v.slot ≠ w.slot := fun v hv w hw he =>
    h (slot_mem_declaredSlots hv) (he ▸ slot_mem_declaredSlots hw)
  have hcomm := foldl_foldl_comm hslots env
  exact ((hboth ds ds' source source').trans hcomm).trans (hboth ds' ds source' source).symm

/-- **Independent signatures commute.**  Of two texts that declare nothing under a common name, both
can be added in one order exactly when they can in the other; then every query is answered alike, but
for the order of the two sources. -/
theorem addSignatures_comm (env : Environment) {text text' source source' : String}
    {ds ds' : List Declaration} (h : parse text source = .ok ds)
    (h' : parse text' source' = .ok ds')
    (hslots : (declaredSlots ds).Disjoint (declaredSlots ds')) :
    ((∃ env₁, env.addSignatures [(text, source), (text', source')] = .ok env₁) ↔
      ∃ env₂, env.addSignatures [(text', source'), (text, source)] = .ok env₂) ∧
    ∀ env₁ env₂, env.addSignatures [(text, source), (text', source')] = .ok env₁ →
      env.addSignatures [(text', source'), (text, source)] = .ok env₂ →
        (∀ q, q ≠ .sources → env₁.answer q = env₂.answer q) ∧
          env₁.sources = env.sources ++ [source, source'] ∧
            env₂.sources = env.sources ++ [source', source] := by
  have hcheck := check_withBatch env hslots source'
  have hcheck' := check_withBatch env (fun _ hs hs' => hslots hs' hs) source
  have hsources : ∀ (es es' : List Declaration) (s s' : String),
      ((env.withBatch es s).withBatch es' s').sources = env.sources ++ [s, s'] := by
    intro es es' s s'
    rw [(holds_withBatch _ es' s').sources, (holds_withBatch env es s).sources, List.append_assoc]
    rfl
  constructor
  · constructor
    · rintro ⟨env₁, h₁⟩
      obtain ⟨hc, hc', -⟩ := (addSignatures_pair h h' env env₁).mp h₁
      exact ⟨_, (addSignatures_pair h' h env _).mpr ⟨hcheck'.mp hc', hcheck.mpr hc, rfl⟩⟩
    · rintro ⟨env₂, h₂⟩
      obtain ⟨hc', hc, -⟩ := (addSignatures_pair h' h env env₂).mp h₂
      exact ⟨_, (addSignatures_pair h h' env _).mpr ⟨hcheck.mp hc, hcheck'.mpr hc', rfl⟩⟩
  · intro env₁ env₂ h₁ h₂
    obtain ⟨-, -, rfl⟩ := (addSignatures_pair h h' env env₁).mp h₁
    obtain ⟨-, -, rfl⟩ := (addSignatures_pair h' h env env₂).mp h₂
    exact ⟨fun q hq => (reordered_withBatch hslots env source source').answer_eq hq,
      hsources ds ds' source source', hsources ds' ds source' source⟩

/-- A class below a name that the second text declares elsewhere. -/
def pathText : String := "class A::B\n  def m: () -> void\nend\n"

/-- A module with a class of the same last name and an alias inside. -/
def nestText : String := "module C\n  class A\n  end\n  type t = ::A::B\nend\n"

/-- The two texts, added to nothing in both orders. -/
theorem addSignatures_comm_paths :
    let none : Environment := { marker := ⟨"siggen:", by decide⟩ }
    ∃ ds ds' env₁ env₂, parse pathText "a.rbs" = .ok ds ∧ parse nestText "b.rbs" = .ok ds' ∧
      (declaredSlots ds).Disjoint (declaredSlots ds') ∧
        none.addSignatures [(pathText, "a.rbs"), (nestText, "b.rbs")] = .ok env₁ ∧
          none.addSignatures [(nestText, "b.rbs"), (pathText, "a.rbs")] = .ok env₂ ∧
            ∀ q, q ≠ .sources → env₁.answer q = env₂.answer q := by
  intro none
  have hpath : (parse pathText "a.rbs").toOption.map declaredSlots = some [.module "A::B"] := by
    decide +kernel
  have hnest : (parse nestText "b.rbs").toOption.map declaredSlots
      = some [.module "C", .module "C::A", .typeAlias "C::t"] := by decide +kernel
  have hadded : (none.addSignatures [(pathText, "a.rbs"), (nestText, "b.rbs")]).toOption.isSome
      = true := by decide +kernel
  cases h : parse pathText "a.rbs" with
  | error f => rw [h] at hpath; cases hpath
  | ok ds =>
    cases h' : parse nestText "b.rbs" with
    | error f => rw [h'] at hnest; cases hnest
    | ok ds' =>
      rw [h] at hpath
      rw [h'] at hnest
      have hslots : (declaredSlots ds).Disjoint (declaredSlots ds') := by
        rw [Option.some.inj hpath, Option.some.inj hnest]
        exact List.disjoint_left.mpr (by decide)
      obtain ⟨hiff, hanswers⟩ := addSignatures_comm none h h' hslots
      cases h₁ : none.addSignatures [(pathText, "a.rbs"), (nestText, "b.rbs")] with
      | error e => rw [h₁] at hadded; cases hadded
      | ok env₁ =>
        obtain ⟨env₂, h₂⟩ := hiff.mp ⟨env₁, h₁⟩
        exact ⟨ds, ds', env₁, env₂, rfl, rfl, hslots, rfl, h₂, (hanswers env₁ env₂ h₁ h₂).1⟩

end Environment

end RbsSynth
