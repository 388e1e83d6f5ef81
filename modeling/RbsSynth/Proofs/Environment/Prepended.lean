import RbsSynth.Proofs.Environment.Independent
import RbsSynth.Proofs.Environment.Plain
import RbsSynth.Proofs.Environment.Prepending
import RbsSynth.Settings.Basic

/-!
# A declaration that prepends instead of including

Two batches differ in one member of a declaration at any depth: one includes what the other prepends
(`BatchPrependsInstead`).  The check of kinds does not tell them apart, and their writes differ in that
member, and in the declarations around it, of which an entry keeps the superclass.  So the environments
that they lead to differ in that member alone, and stay so whatever is added behind
                                                (prependsInstead_withBatch, PrependsInstead.addAll)
-/

namespace RbsSynth

open Signature

namespace Signature.Nestable

/-- Two declarations of one name, kind and superclass. -/
structure SameHeader (d d' : Nestable) : Prop where
  name : d.name = d'.name
  kind : d.kind? = d'.kind?
  superclass : d.superclass? = d'.superclass?

/-- What `d`, declared inside `outer`, includes by the member `m` of the declaration `here`, `d'`
prepends. -/
inductive PrependsInstead (here : String) (m : MixinMember) :
    Option String → Nestable → Nestable → Prop
  | own {outer : Option String} {d d' : Nestable} {before after : List Member}
    (header : d.SameHeader d') (hhere : qualify outer d.name = here)
    (hm : d.members = before ++ .mixin { m with kind := .include } :: after)
    (hm' : d'.members = before ++ .mixin { m with kind := .prepend } :: after) :
    PrependsInstead here m outer d d'
  | nested {outer : Option String} {d d' k k' : Nestable} {before after : List Member}
    (header : d.SameHeader d') (h : PrependsInstead here m (some (qualify outer d.name)) k k')
    (hm : d.members = before ++ .nested k :: after)
    (hm' : d'.members = before ++ .nested k' :: after) : PrependsInstead here m outer d d'

end Signature.Nestable

/-- What the batch `ds` includes by the member `m` of the declaration `here`, `ds'` prepends. -/
def BatchPrependsInstead (here : String) (m : MixinMember) (ds ds' : List Declaration) : Prop :=
  ∃ before after d d', ds = before ++ .nestable d :: after ∧ ds' = before ++ .nestable d' :: after ∧
    d.PrependsInstead here m none d'

/-- Two writes that differ at most in a declaration of one name, kind and superclass. -/
inductive Write.Alike : Write → Write → Prop
  | refl (w : Write) : Alike w w
  | entry {r r' : Registered} (name : r.name = r'.name) (kind : r.kind = r'.kind)
    (superclass : r.declaration.superclass? = r'.declaration.superclass?) :
    Alike (.entry r) (.entry r')

/-! ## The check of kinds -/

namespace Environment

variable {env env' : Environment}

theorem checkLevel_congr {outer : Option String} {k k' : Nestable}
    (h : ∀ pending, checkNestable env outer pending k = checkNestable env outer pending k')
    (before after : List Nestable) (pending : Index ModuleKind) :
    checkLevel env outer pending (before ++ k :: after)
      = checkLevel env outer pending (before ++ k' :: after) := by
  induction before generalizing pending with
  | nil =>
    show (checkNestable env outer pending k >>= _) = checkNestable env outer pending k' >>= _
    rw [h]
  | cons d before ih =>
    show (checkNestable env outer pending d >>= _) = checkNestable env outer pending d >>= _
    congr 1
    funext pending
    exact ih pending

end Environment

theorem Signature.Nestable.exists_kind_of_members {d : Nestable} {m : Member} (h : m ∈ d.members) :
    ∃ kind, d.kind? = some kind := by
  match d, h with
  | .classDecl _, _ | .moduleDecl _, _ | .interfaceDecl _, _ => exact ⟨_, rfl⟩

namespace Signature.Nestable.PrependsInstead

open Environment

variable {here : String} {m : MixinMember} {outer : Option String} {d d' : Nestable}

theorem header (h : d.PrependsInstead here m outer d') : d.SameHeader d' := by
  cases h with
  | own header => exact header
  | nested header => exact header

theorem exists_kind (h : d.PrependsInstead here m outer d') :
    ∃ kind, d.kind? = some kind ∧ d'.kind? = some kind := by
  have hkind : ∃ kind, d.kind? = some kind := by
    cases h with
    | own _ _ hm => exact exists_kind_of_members (hm ▸ List.mem_append_right _ List.mem_cons_self)
    | nested _ _ hm => exact exists_kind_of_members (hm ▸ List.mem_append_right _ List.mem_cons_self)
  obtain ⟨kind, hk⟩ := hkind
  exact ⟨kind, hk, h.header.kind ▸ hk⟩

/-- The check of a declaration is that of its name and of the declarations in it. -/
theorem checkNestable_of_inside {env : Environment} (h : d.PrependsInstead here m outer d')
    (hinside : checkLevel env (some (qualify outer d.name)) [] d.inside
      = checkLevel env (some (qualify outer d.name)) [] d'.inside) (pending : Index ModuleKind) :
    checkNestable env outer pending d = checkNestable env outer pending d' := by
  obtain ⟨kind, hk, hk'⟩ := h.exists_kind
  rw [checkNestable_of_some hk, checkNestable_of_some hk', ← h.header.name, hinside]

theorem checkNestable_eq (env : Environment) (h : d.PrependsInstead here m outer d')
    (pending : Index ModuleKind) :
    checkNestable env outer pending d = checkNestable env outer pending d' := by
  induction h generalizing pending with
  | @own outer d d' before after header hhere hm hm' =>
    refine (PrependsInstead.own header hhere hm hm').checkNestable_of_inside ?_ pending
    unfold Nestable.inside
    rw [hm, hm', List.filterMap_append, List.filterMap_append]
    rfl
  | @nested outer d d' k k' before after header h hm hm' ih =>
    refine (PrependsInstead.nested header h hm hm').checkNestable_of_inside ?_ pending
    unfold Nestable.inside
    rw [hm, hm', List.filterMap_append, List.filterMap_append]
    exact checkLevel_congr ih _ _ _

/-! ## Writes -/

theorem alike_write (h : d.PrependsInstead here m outer d') :
    (d.write outer).Alike (d'.write outer) := by
  obtain ⟨kind, hk, hk'⟩ := h.exists_kind
  rw [write_of_kind hk, write_of_kind hk']
  exact .entry (congrArg (qualify outer) h.header.name) rfl h.header.superclass

/-- The writes differ in one member, and in declarations that are written before it. -/
theorem exists_writes (h : d.PrependsInstead here m outer d') : ∃ ws ws' vs,
    d.writes outer = ws ++ .member here (.mixin { m with kind := .include }) :: vs ∧
    d'.writes outer = ws' ++ .member here (.mixin { m with kind := .prepend }) :: vs ∧
    List.Forall₂ Write.Alike ws ws' := by
  have refl : ∀ ws : List Write, List.Forall₂ Write.Alike ws ws := fun ws =>
    List.forall₂_same.mpr fun w _ => .refl w
  induction h with
  | @own outer d d' before after header hhere hm hm' =>
    have hd := (PrependsInstead.own header hhere hm hm').alike_write
    refine ⟨d.write outer :: Member.writesAll here before,
      d'.write outer :: Member.writesAll here before, Member.writesAll here after, ?_, ?_,
      .cons hd (refl _)⟩
    · rw [Nestable.writes_eq, hm, hhere, Member.writesAll_eq, List.flatMap_append, List.flatMap_cons,
        Member.writesAll_eq, Member.writesAll_eq]
      rfl
    · rw [Nestable.writes_eq, hm', ← header.name, hhere, Member.writesAll_eq, List.flatMap_append,
        List.flatMap_cons, Member.writesAll_eq, Member.writesAll_eq]
      rfl
  | @nested outer d d' k k' before after header h hm hm' ih =>
    have hd := (PrependsInstead.nested header h hm hm').alike_write
    obtain ⟨ws, ws', vs, hws, hws', hall⟩ := ih
    have hmembers : ∀ k : Nestable, ∀ ws vs w,
        k.writes (some (qualify outer d.name)) = ws ++ w :: vs →
        Member.writesAll (qualify outer d.name) (before ++ .nested k :: after)
          = (Member.writesAll (qualify outer d.name) before ++ ws) ++
            w :: (vs ++ Member.writesAll (qualify outer d.name) after) := by
      intro k ws vs w hk
      simp only [Member.writesAll_eq, List.flatMap_append, List.flatMap_cons, Member.writes, hk,
        List.append_assoc, List.cons_append]
    refine ⟨d.write outer :: (Member.writesAll (qualify outer d.name) before ++ ws),
      d'.write outer :: (Member.writesAll (qualify outer d.name) before ++ ws'),
      vs ++ Member.writesAll (qualify outer d.name) after, ?_, ?_,
      .cons hd (List.rel_append (refl _) hall)⟩
    · rw [Nestable.writes_eq, hm, hmembers k ws vs _ hws]
      rfl
    · rw [Nestable.writes_eq, hm', ← header.name, hmembers k' ws' vs _ hws']
      rfl

end Signature.Nestable.PrependsInstead

namespace Environment

variable {env env' : Environment} {here : String} {m : MixinMember}

theorem check_batch {ds ds' : List Declaration} (h : BatchPrependsInstead here m ds ds')
    (env : Environment) : env.checkDeclarations [] ds = env.checkDeclarations [] ds' := by
  obtain ⟨before, after, d, d', rfl, rfl, hd⟩ := h
  rw [checkDeclarations_eq, checkDeclarations_eq, nestables, nestables, List.filterMap_append,
    List.filterMap_append]
  exact checkLevel_congr (hd.checkNestable_eq env) _ _ _

/-! ## Environments that differ in one member -/

/-- Every name has alike entries in both environments, or none. -/
structure SameEntries (env env' : Environment) : Prop where
  marker : env.marker = env'.marker
  constants : ∀ name, env.constants.find? name = env'.constants.find? name
  entry?_cases : ∀ name, (env.entry? name = none ∧ env'.entry? name = none) ∨
    ∃ e e', env.entry? name = some e ∧ env'.entry? name = some e' ∧ e.Alike e'

theorem SameEntries.refl (env : Environment) : env.SameEntries env where
  marker := rfl
  constants _ := rfl
  entry?_cases name := by
    cases env.entry? name with
    | none => exact .inl ⟨rfl, rfl⟩
    | some e => exact .inr ⟨e, e, rfl, rfl, .refl e⟩

theorem superclass?_withDeclaration (e : ModuleEntry) (d : Nestable) :
    (e.withDeclaration d).superclass? = e.superclass?.or (d.superclass?.map (·.name)) := by
  unfold ModuleEntry.withDeclaration
  rw [superclass?_append, List.findSome?_singleton]

theorem alike_withDeclaration {e e' : ModuleEntry} {d d' : Nestable}
    (hd : d.superclass? = d'.superclass?) (h : e.Alike e') :
    (e.withDeclaration d).Alike (e'.withDeclaration d') :=
  ⟨h.name, h.kind, by rw [superclass?_withDeclaration, superclass?_withDeclaration, h.superclass, hd],
    h.members⟩

theorem alike_withMember {e e' : ModuleEntry} (x : Member) (h : e.Alike e') :
    (e.withMember x).Alike (e'.withMember x) :=
  ⟨h.name, h.kind, h.superclass, congrArg (· ++ [x]) h.members⟩

theorem prependsInstead_withDeclaration {e e' : ModuleEntry} {d d' : Nestable}
    (hd : d.superclass? = d'.superclass?) (h : e.PrependsInstead m e') :
    (e.withDeclaration d).PrependsInstead m (e'.withDeclaration d') where
  head := ⟨h.head.name, h.head.kind, by
    rw [superclass?_withDeclaration, superclass?_withDeclaration, h.head.superclass, hd]⟩
  members := h.members

theorem prependsInstead_withMember {e e' : ModuleEntry} (x : Member) (h : e.PrependsInstead m e') :
    (e.withMember x).PrependsInstead m (e'.withMember x) where
  head := ⟨h.head.name, h.head.kind, h.head.superclass⟩
  members := by
    obtain ⟨before, after, hm, hm'⟩ := h.members
    unfold ModuleEntry.withMember
    refine ⟨before, after ++ [x], ?_, ?_⟩
    · rw [hm, List.append_assoc, List.cons_append]
    · rw [hm', List.append_assoc, List.cons_append]

/-- Alike writes keep a relation of entries that their declarations and members keep. -/
theorem exists_changed {R : ModuleEntry → ModuleEntry → Prop}
    (declaration : ∀ {e e' d d'}, d.superclass? = d'.superclass? → R e e' →
      R (e.withDeclaration d) (e'.withDeclaration d'))
    (member : ∀ {e e'} x, R e e' → R (e.withMember x) (e'.withMember x))
    {w w' : Write} (hw : w.Alike w') (name : String) {e e' : ModuleEntry} (h : R e e') :
    ∃ c c', w.changed name (some e) = some c ∧ w'.changed name (some e') = some c' ∧ R c c' := by
  cases hw with
  | @entry r r' hname _ hsuper =>
    unfold Write.changed
    dsimp only
    rw [← hname]
    split
    · exact ⟨_, _, rfl, rfl, declaration hsuper h⟩
    · exact ⟨_, _, rfl, rfl, h⟩
  | refl =>
    unfold Write.changed
    cases w with
    | entry r =>
      dsimp only
      split
      · exact ⟨_, _, rfl, rfl, declaration rfl h⟩
      · exact ⟨_, _, rfl, rfl, h⟩
    | member q x =>
      dsimp only
      split
      · exact ⟨_, _, rfl, rfl, member x h⟩
      · exact ⟨_, _, rfl, rfl, h⟩
    | _ => exact ⟨_, _, rfl, rfl, h⟩

/-- Alike writes make alike entries, where there were some and where there were none. -/
theorem changed_cases {w w' : Write} (hw : w.Alike w') (name : String) {old old' : Option ModuleEntry}
    (h : (old = none ∧ old' = none) ∨ ∃ e e', old = some e ∧ old' = some e' ∧ e.Alike e') :
    (w.changed name old = none ∧ w'.changed name old' = none) ∨
      ∃ e e', w.changed name old = some e ∧ w'.changed name old' = some e' ∧ e.Alike e' := by
  rcases h with ⟨rfl, rfl⟩ | ⟨e, e', rfl, rfl, halike⟩
  · cases hw with
    | refl =>
      cases w.changed name none with
      | none => exact .inl ⟨rfl, rfl⟩
      | some c => exact .inr ⟨c, c, rfl, rfl, .refl c⟩
    | @entry r r' hname hkind hsuper =>
      unfold Write.changed
      dsimp only
      rw [← hname]
      split
      · refine .inr ⟨_, _, rfl, rfl, rfl, hkind, ?_, rfl⟩
        unfold ModuleEntry.superclass?
        rw [List.findSome?_singleton, List.findSome?_singleton, hsuper]
      · exact .inl ⟨rfl, rfl⟩
  · exact .inr (exists_changed alike_withDeclaration alike_withMember hw name halike)

theorem constants_perform {w w' : Write} (hw : w.Alike w')
    (h : ∀ name, env.constants.find? name = env'.constants.find? name) (name : String) :
    (w.perform env).constants.find? name = (w'.perform env').constants.find? name := by
  cases hw with
  | entry => exact h name
  | refl =>
    cases w with
    | constant n d =>
      show (if n = name then some d else env.constants.find? name)
        = if n = name then some d else env'.constants.find? name
      rw [h]
    | _ => exact h name

theorem marker_perform (env : Environment) (w : Write) : (w.perform env).marker = env.marker := by
  cases w <;> rfl

theorem SameEntries.perform {w w' : Write} (h : env.SameEntries env') (hw : w.Alike w') :
    (w.perform env).SameEntries (w'.perform env') where
  marker := by rw [marker_perform, marker_perform, h.marker]
  constants := constants_perform hw h.constants
  entry?_cases name := by
    rw [entryOf_perform, entryOf_perform]
    exact changed_cases hw name (h.entry?_cases name)

theorem SameEntries.foldl_perform {ws ws' : List Write} (h : env.SameEntries env')
    (hws : List.Forall₂ Write.Alike ws ws') :
    (ws.foldl Write.perform env).SameEntries (ws'.foldl Write.perform env') := by
  induction hws generalizing env env' with
  | nil => exact h
  | cons hw _ ih => exact ih (h.perform hw)

/-- The turn of the member: from then on the environments differ in it. -/
theorem SameEntries.prependsInstead (h : env.SameEntries env') (hhere : env.hasModule here = true) :
    PrependsInstead here m
      (Write.perform env (.member here (.mixin { m with kind := .include })))
      (Write.perform env' (.member here (.mixin { m with kind := .prepend }))) where
  marker := h.marker
  constants := h.constants
  entry := by
    obtain ⟨e, he⟩ := exists_entry hhere
    rcases h.entry?_cases here with ⟨hnone, -⟩ | ⟨e, e', he, he', halike⟩
    · cases hnone.symm.trans he
    · rw [entryOf_perform, entryOf_perform, Write.changed, Write.changed, if_pos rfl, if_pos rfl, he, he']
      exact ⟨_, _, rfl, rfl, ⟨halike.name, halike.kind, halike.superclass⟩, e.members, [], rfl,
        congrArg (· ++ [_]) halike.members.symm⟩
  others name hname := by
    rw [entryOf_perform, entryOf_perform, Write.changed, Write.changed, if_neg (Ne.symm hname),
      if_neg (Ne.symm hname)]
    exact h.entry?_cases name

/-- The step: what is written to both environments leaves them differing in the member. -/
theorem PrependsInstead.perform (h : PrependsInstead here m env env') (w : Write) :
    PrependsInstead here m (w.perform env) (w.perform env') where
  marker := by rw [marker_perform, marker_perform, h.marker]
  constants := constants_perform (.refl w) h.constants
  entry := by
    obtain ⟨e, e', he, he', hentry⟩ := h.entry
    rw [entryOf_perform, entryOf_perform, he, he']
    exact exists_changed prependsInstead_withDeclaration prependsInstead_withMember (.refl w) here hentry
  others name hname := by
    rw [entryOf_perform, entryOf_perform]
    exact changed_cases (.refl w) name (h.others name hname)

theorem PrependsInstead.foldl_perform (h : PrependsInstead here m env env') (ws : List Write) :
    PrependsInstead here m (ws.foldl Write.perform env) (ws.foldl Write.perform env') := by
  induction ws generalizing env env' with
  | nil => exact h
  | cons w ws ih => exact ih (h.perform w)

theorem PrependsInstead.withBatch (h : PrependsInstead here m env env') (ds : List Declaration)
    (source : String) : PrependsInstead here m (env.withBatch ds source) (env'.withBatch ds source) :=
  have hwritten := h.foldl_perform (batchWrites ds)
  ⟨hwritten.marker, hwritten.constants, hwritten.entry, hwritten.others⟩

/-- The environments that two such batches lead to differ in the member. -/
theorem prependsInstead_withBatch {ds ds' : List Declaration} (h : BatchPrependsInstead here m ds ds')
    (env : Environment) (source : String) :
    PrependsInstead here m (env.withBatch ds source) (env.withBatch ds' source) := by
  obtain ⟨before, after, d, d', rfl, rfl, hd⟩ := h
  obtain ⟨ws, ws', vs, hws, hws', halike⟩ := hd.exists_writes
  have hbatch : ∀ (k : Nestable) (ws : List Write) (w : Write), k.writes none = ws ++ w :: vs →
      batchWrites (before ++ .nestable k :: after)
        = (batchWrites before ++ ws) ++ w :: (vs ++ batchWrites after) := by
    intro k ws w hk
    simp only [batchWrites, List.flatMap_append, List.flatMap_cons, Declaration.writes, hk,
      List.append_assoc, List.cons_append]
  have hdiffer : PrependsInstead here m
      ((batchWrites (before ++ .nestable d :: after)).foldl Write.perform env)
      ((batchWrites (before ++ .nestable d' :: after)).foldl Write.perform env) := by
    have hfit := fit_batchWrites env (before ++ .nestable d :: after)
    rw [hbatch d ws _ hws] at hfit ⊢
    rw [hbatch d' ws' _ hws']
    have hhere := ((fit_append env _ _).mp hfit).2.1
    simp only [List.foldl_append, List.foldl_cons] at hhere ⊢
    have hbefore := (SameEntries.refl ((batchWrites before).foldl Write.perform env)).foldl_perform halike
    exact ((hbefore.prependsInstead (m := m) hhere).foldl_perform vs).foldl_perform _
  exact ⟨hdiffer.marker, hdiffer.constants, hdiffer.entry, hdiffer.others⟩

theorem PrependsInstead.check_iff (h : PrependsInstead here m env env') (ds : List Declaration) :
    env.checkDeclarations [] ds = .ok () ↔ env'.checkDeclarations [] ds = .ok () :=
  ⟨check_congr fun r _ => h.sameHeads.kindOf?_eq r.name,
    check_congr fun r _ => (h.sameHeads.kindOf?_eq r.name).symm⟩

/-- A batch is refused by both environments, or they differ in the member behind it. -/
theorem PrependsInstead.addDeclarations (h : PrependsInstead here m env env') (ds : List Declaration)
    (source : String) :
    (∃ c c', env.addDeclarations ds source = .error c ∧ env'.addDeclarations ds source = .error c') ∨
      ∃ e e', env.addDeclarations ds source = .ok e ∧ env'.addDeclarations ds source = .ok e' ∧
        PrependsInstead here m e e' := by
  rw [addDeclarations_eq, addDeclarations_eq]
  cases hc : env.checkDeclarations [] ds with
  | ok u =>
    rw [(h.check_iff ds).mp hc]
    exact .inr ⟨_, _, rfl, rfl, h.withBatch ds source⟩
  | error c =>
    cases hc' : env'.checkDeclarations [] ds with
    | ok u => cases hc.symm.trans ((h.check_iff ds).mpr hc')
    | error c' => exact .inl ⟨c, c', rfl, rfl⟩

theorem PrependsInstead.perform_addition (h : PrependsInstead here m env env') (a : Addition) :
    (∃ c c', env.perform a = .error c ∧ env'.perform a = .error c') ∨
      ∃ e e' ds, env.perform a = .ok (e, ds) ∧ env'.perform a = .ok (e', ds) ∧
        PrependsInstead here m e e' := by
  cases a with
  | declarations ds source =>
    rw [Environment.perform, Environment.perform]
    rcases h.addDeclarations ds source with ⟨c, c', hc, hc'⟩ | ⟨e, e', he, he', hdiffer⟩
    · rw [hc, hc']
      exact .inl ⟨_, _, rfl, rfl⟩
    · rw [he, he']
      exact .inr ⟨e, e', ds, rfl, rfl, hdiffer⟩
  | signature text source =>
    rw [Environment.perform, Environment.perform, addSignature, addSignature]
    cases parse text source with
    | error f => exact .inl ⟨_, _, rfl, rfl⟩
    | ok ds =>
      dsimp only
      rcases h.addDeclarations ds source with ⟨c, c', hc, hc'⟩ | ⟨e, e', he, he', hdiffer⟩
      · rw [hc, hc']
        exact .inl ⟨_, _, rfl, rfl⟩
      · rw [he, he']
        exact .inr ⟨e, e', ds, rfl, rfl, hdiffer⟩

/-- The run: what is added behind leaves the environments differing in the member. -/
theorem PrependsInstead.addAll (h : PrependsInstead here m env env') (additions : List Addition) :
    PrependsInstead here m (env.addAll additions).1 (env'.addAll additions).1 := by
  induction additions generalizing env env' with
  | nil => exact h
  | cons a rest ih =>
    rw [Environment.addAll, Environment.addAll]
    rcases h.perform_addition a with ⟨c, c', hc, hc'⟩ | ⟨e, e', ds, he, he', hdiffer⟩
    · rw [hc, hc']
      exact ih h
    · rw [he, he']
      exact ih hdiffer

/-! ## Top theorem -/

/-- **Prepending instead of including.**  Two runs add batches that differ in one member, which one
includes and the other prepends, and go on alike.  Where every name is within the depth limit, instances
have no ancestors and find no methods in the second environment but those that they have and find in
the first.  The declaration keeps its ancestors exactly if the module is still one, and nothing is lost
anywhere if its name stands for one thing outside and inside the declaration; otherwise the module is
declared inside, and nothing of its name is outside. -/
theorem prepending_spec (start : Environment) {ds ds' : List Declaration} (source : String)
    (rest : List Addition) (h : BatchPrependsInstead here m ds ds')
    (hok : start.checkDeclarations [] ds = .ok ()) :
    let env := (start.addAll (.declarations ds source :: rest)).1
    let env' := (start.addAll (.declarations ds' source :: rest)).1
    (∀ x, env.WithinDepth x) → ∃ e, env.entry? here = some e ∧
      (∀ x, env'.ancestors x .ofInstance ⊆ env.ancestors x .ofInstance ∧
        ∀ method, (env'.findMethod? x method .ofInstance).isSome = true →
          (env.findMethod? x method .ofInstance).isSome = true) ∧
      ((∀ a, a ∈ env.ancestors here .ofInstance ↔ a ∈ env'.ancestors here .ofInstance) ↔
        ∀ t, env.resolveMixin? e m.name = some t → env.hasModule t = true →
          ⟨t, .ofInstance⟩ ∈ env'.ancestors here .ofInstance) ∧
      (env.resolvePrepended? e m.name = env.resolveMixin? e m.name → ∀ x,
        (∀ a, a ∈ env.ancestors x .ofInstance ↔ a ∈ env'.ancestors x .ofInstance) ∧
          ∀ method, (env.findMethod? x method .ofInstance).isSome
            = (env'.findMethod? x method .ofInstance).isSome) ∧
      (env.resolvePrepended? e m.name ≠ env.resolveMixin? e m.name →
        env.resolvePrepended? e m.name = none ∧ ∃ inner, e.context.head? = some inner ∧
          env.resolveMixin? e m.name = some (inner ++ "::" ++ m.name.qualified)) := by
  intro env env' hdepth
  have hdiffer : PrependsInstead here m env env' := by
    have hadd : ∀ ds, start.checkDeclarations [] ds = .ok () →
        (start.addAll (.declarations ds source :: rest)).1
          = ((start.withBatch ds source).addAll rest).1 := by
      intro ds hok
      rw [Environment.addAll, Environment.perform, addDeclarations_eq, hok]
    show PrependsInstead here m (start.addAll (.declarations ds source :: rest)).1
      (start.addAll (.declarations ds' source :: rest)).1
    rw [hadd ds hok, hadd ds' (check_batch h start ▸ hok)]
    exact (prependsInstead_withBatch h start source).addAll rest
  obtain ⟨e, -, he, -, -⟩ := hdiffer.entry
  exact ⟨e, he, fun x => ⟨hdiffer.ancestors_subset hdepth x,
      fun _ hfound => hdiffer.findMethod?_subset hdepth hfound⟩,
    hdiffer.mem_ancestors_iff_of_here hdepth he, hdiffer.same_of_resolved hdepth he,
    (resolved_or_inside e m.name).resolve_left⟩

/-! ## Two batches -/

/-- A module with one method. -/
def oneMethod : Nestable :=
  .moduleDecl ⟨{ name := "M" }, [], [],
    [.method { name := "m", overloads := [⟨.returning (.base .void), none, []⟩] }], {}⟩

/-- Mixes the module in. -/
def mixM (kind : MixinKind) : Member := .mixin { kind, name := { name := "M" } }

/-- A class that mixes in a module declared beside it. -/
def mixingBeside (kind : MixinKind) : List Declaration :=
  [.nestable oneMethod, .nestable (.classDecl ⟨{ name := "A" }, [], none, [mixM kind], {}⟩)]

/-- A class that mixes in a module declared in it. -/
def mixingInside (kind : MixinKind) : List Declaration :=
  [.nestable (.classDecl ⟨{ name := "A" }, [], none, [.nested oneMethod, mixM kind], {}⟩)]

/-- The environment of one batch. -/
def ofBatch (ds : List Declaration) : Environment :=
  (addAll { marker := .standard } [.declarations ds ""]).1

theorem prepending_spec_beside :
    BatchPrependsInstead "A" { kind := .include, name := { name := "M" } }
        (mixingBeside .include) (mixingBeside .prepend) ∧
      (∀ x, (ofBatch (mixingBeside .include)).WithinDepth x) ∧
      ((ofBatch (mixingBeside .include)).findMethod? "A" "m" .ofInstance).isSome = true ∧
      ((ofBatch (mixingBeside .prepend)).findMethod? "A" "m" .ofInstance).isSome = true := by
  have hbatch : BatchPrependsInstead "A" { kind := .include, name := { name := "M" } }
      (mixingBeside .include) (mixingBeside .prepend) := by
    have hm : ∀ kind, [mixM kind] = [] ++ mixM kind :: [] := fun _ => rfl
    exact ⟨[.nestable oneMethod], [], _, _, rfl, rfl,
      .own ⟨rfl, rfl, rfl⟩ (by decide) (hm .include) (hm .prepend)⟩
  have hranked : (ofBatch (mixingBeside .include)).Ranked (if · = "A" then 1 else 0) := by
    decide +kernel
  have hdepth : ∀ x, (ofBatch (mixingBeside .include)).WithinDepth x := fun x =>
    hranked.withinDepth (by split <;> decide) (by decide)
  have hfound : ((ofBatch (mixingBeside .include)).findMethod? "A" "m" .ofInstance).isSome = true := by
    decide +kernel
  obtain ⟨e, he, -, -, hsame, -⟩ := prepending_spec { marker := .standard } "" [] hbatch
    (by decide +kernel) hdepth
  have hresolved : Option.all (fun e =>
      (ofBatch (mixingBeside .include)).resolvePrepended? e { name := "M" }
        = (ofBatch (mixingBeside .include)).resolveMixin? e { name := "M" })
      <| entry? (ofBatch (mixingBeside .include)) "A" := by
    decide +kernel
  have he : entry? (ofBatch (mixingBeside .include)) "A" = some e := he
  rw [he] at hresolved
  refine ⟨hbatch, hdepth, hfound, ?_⟩
  exact ((hsame (of_decide_eq_true hresolved) "A").2 "m").symm.trans hfound

/-- Included, the module is an ancestor and its method is found; prepended, it is looked for outside the
class only. -/
theorem mixingInside_loses_methods :
    BatchPrependsInstead "A" { kind := .include, name := { name := "M" } }
        (mixingInside .include) (mixingInside .prepend) ∧
      (∀ x, (ofBatch (mixingInside .include)).WithinDepth x) ∧
      ⟨"A::M", .ofInstance⟩ ∈ (ofBatch (mixingInside .include)).ancestors "A" .ofInstance ∧
      ⟨"A::M", .ofInstance⟩ ∉ (ofBatch (mixingInside .prepend)).ancestors "A" .ofInstance ∧
      ((ofBatch (mixingInside .include)).findMethod? "A" "m" .ofInstance).isSome = true ∧
      (ofBatch (mixingInside .prepend)).findMethod? "A" "m" .ofInstance = none := by
  have hranked : (ofBatch (mixingInside .include)).Ranked (if · = "A" then 1 else 0) := by
    decide +kernel
  have hm : ∀ kind, [.nested oneMethod, mixM kind] = [.nested oneMethod] ++ mixM kind :: [] :=
    fun _ => rfl
  refine ⟨⟨[], [], _, _, rfl, rfl, .own ⟨rfl, rfl, rfl⟩ (by decide) (hm .include) (hm .prepend)⟩,
    fun x => hranked.withinDepth (by split <;> decide) (by decide), ?_⟩
  decide +kernel

end Environment

end RbsSynth
