import RbsSynth.Proofs.Environment.KindCheck

/-!
# Kinds of names

A consistent environment has declarations of one kind under each name.  An accepted batch keeps this
exactly when it gives no name two kinds itself:

    (env.addDeclarations ds s = .ok env') →
      (env'.KindConsistent ↔ env.KindConsistent ∧ OneKind ds)      (kindConsistent_addDeclarations)

A batch that gives a name two kinds is refused when the check meets both at one level, or the
environment has the name; it goes through when they stand at different levels.
-/

namespace RbsSynth.Environment

open Signature

/-- All declarations of a name have the kind of its entry. -/
def KindConsistent (env : Environment) : Prop :=
  ∀ name e, env.modules.find? name = some e → ∀ d ∈ e.declarations, d.kind? = some e.kind

/-- The classes, modules and interfaces of a batch at every depth. -/
def batchRegistered (ds : List Declaration) : List Registered := ds.flatMap Declaration.registered

/-- A batch gives each name one kind. -/
def OneKind (ds : List Declaration) : Prop :=
  ∀ r ∈ batchRegistered ds, ∀ s ∈ batchRegistered ds, r.name = s.name → r.kind = s.kind

/-! ## Levels and what is registered -/

theorem batchRegistered_eq (ds : List Declaration) :
    batchRegistered ds = (nestables ds).flatMap (·.registered none) := by
  induction ds with
  | nil => rfl
  | cons d ds ih =>
    rw [batchRegistered, List.flatMap_cons, ← batchRegistered, ih]
    cases d <;> rfl

/-- Each declaration of a level is registered. -/
theorem Within.mem_registered {outer o : Option String} {ds level : List Nestable}
    (h : Within outer ds o level) {d : Nestable} {kind : ModuleKind} (hd : d ∈ level)
    (hk : d.kind? = some kind) :
    ⟨qualify o d.name, kind, d⟩ ∈ ds.flatMap (·.registered outer) := by
  induction h with
  | self outer ds =>
    refine List.mem_flatMap.mpr ⟨d, hd, ?_⟩
    rw [Nestable.registered_of_some outer hk]
    exact List.mem_cons_self
  | inside he hke _ ih =>
    refine List.mem_flatMap.mpr ⟨_, he, ?_⟩
    rw [Nestable.registered_of_some _ hke]
    exact List.mem_cons_of_mem _ (ih hd)

/-- What is registered stands at a level. -/
theorem exists_within (d : Nestable) :
    ∀ outer (ds : List Nestable), d ∈ ds → ∀ r ∈ d.registered outer, ∃ o level,
      Within outer ds o level ∧ r.declaration ∈ level ∧ r.declaration.kind? = some r.kind ∧
        r.name = qualify o r.declaration.name := by
  induction d using Nestable.induct with
  | h d ih =>
    intro outer ds hd r hr
    cases hk : d.kind? with
    | none =>
      rw [Nestable.registered_of_none outer hk] at hr
      exact absurd hr List.not_mem_nil
    | some kind =>
      rw [Nestable.registered_of_some outer hk, List.mem_cons, List.mem_flatMap] at hr
      rcases hr with rfl | ⟨e, he, hr⟩
      · exact ⟨outer, ds, .self outer ds, hd, hk, rfl⟩
      · obtain ⟨o, level, hw, h⟩ := ih e he _ d.inside he r hr
        exact ⟨o, level, .inside hd hk hw, h⟩

/-- What the check lets through agrees with the entries. -/
theorem Free.kind_eq {env : Environment} {ds : List Declaration} (h : Free env none (nestables ds))
    {r : Registered} (hr : r ∈ batchRegistered ds) {kind : ModuleKind}
    (hk : env.kindOf? r.name = some kind) : kind = r.kind := by
  rw [batchRegistered_eq] at hr
  obtain ⟨d, hd, hr⟩ := List.mem_flatMap.mp hr
  obtain ⟨o, level, hw, hmem, hkind, hname⟩ := exists_within d none (nestables ds) hd r hr
  rw [hname] at hk
  apply Decidable.byContradiction
  intro hne
  exact h o level hw _ (.entry hmem hkind hk hne)

theorem kind?_of_mem_batch {ds : List Declaration} {r : Registered} (hr : r ∈ batchRegistered ds) :
    r.declaration.kind? = some r.kind := by
  rw [batchRegistered_eq] at hr
  obtain ⟨d, _, hr⟩ := List.mem_flatMap.mp hr
  exact d.kind?_of_mem_registered none r hr

/-! ## One batch -/

theorem kindConsistent_iff_recorded (env : Environment) :
    env.KindConsistent ↔ ∀ name kind ds, env.recorded name = some (kind, ds) →
      ∀ d ∈ ds, d.kind? = some kind := by
  constructor
  · intro h name kind ds hr d hd
    obtain ⟨e, he, hp⟩ := Option.map_eq_some_iff.mp hr
    obtain ⟨rfl, rfl⟩ := Prod.mk.inj hp
    exact h name e he d hd
  · intro h name e he d hd
    exact h name e.kind e.declarations (by rw [recorded, he]; rfl) d hd

theorem kindOf?_of_recorded {env : Environment} {name : String} {kind : ModuleKind}
    {ds : List Nestable} (h : env.recorded name = some (kind, ds)) : env.kindOf? name = some kind := by
  obtain ⟨e, he, hp⟩ := Option.map_eq_some_iff.mp h
  rw [kindOf?, he, ← (Prod.mk.inj hp).1]
  rfl

/-- The step: what an accepted batch does to a name. -/
theorem addDeclarations_ok {env env' : Environment} {ds : List Declaration} {source : String}
    (h : env.addDeclarations ds source = .ok env') :
    Free env none (nestables ds) ∧
      ∀ name, env'.recorded name = recordAll (batchRegistered ds) name (env.recorded name) := by
  have hcheck := checkDeclarations_spec env ds
  rw [addDeclarations] at h
  cases hc : env.checkDeclarations [] ds with
  | error c => rw [hc] at h; cases h
  | ok u =>
    rw [hc] at h hcheck
    cases h
    exact ⟨hcheck, fun name => recorded_foldl_addDeclaration env ds name⟩

/-- **One accepted batch.**  It keeps an environment consistent exactly when it gives no name two
kinds. -/
theorem kindConsistent_addDeclarations {env env' : Environment} {ds : List Declaration}
    {source : String} (h : env.addDeclarations ds source = .ok env') :
    env'.KindConsistent ↔ env.KindConsistent ∧ OneKind ds := by
  obtain ⟨hfree, hrec⟩ := addDeclarations_ok h
  rw [kindConsistent_iff_recorded, kindConsistent_iff_recorded]
  constructor
  · intro hc
    constructor
    · intro name kind es hr d hd
      have hr' := hrec name
      rw [hr, recordAll, foldl_record_some] at hr'
      exact hc name kind _ hr' d (List.mem_append_left _ hd)
    · -- the declarations of one name are together in its entry
      have kinds : ∀ r ∈ batchRegistered ds, ∃ kind es, env'.recorded r.name = some (kind, es) ∧
          ∀ s ∈ batchRegistered ds, s.name = r.name → s.declaration ∈ es := by
        intro r hr
        have hin : ∀ s ∈ batchRegistered ds, s.name = r.name →
            s ∈ (batchRegistered ds).filter (·.name = r.name) := fun s hs hn =>
          List.mem_filter.mpr ⟨hs, decide_eq_true hn⟩
        cases he : env.recorded r.name with
        | some p =>
          obtain ⟨kind, es⟩ := p
          refine ⟨kind, _, by rw [hrec, he, recordAll, foldl_record_some], fun s hs hn => ?_⟩
          exact List.mem_append_right _ (List.mem_map_of_mem (hin s hs hn))
        | none =>
          cases hf : (batchRegistered ds).filter (·.name = r.name) with
          | nil => exact absurd (hin r hr rfl) (by rw [hf]; exact List.not_mem_nil)
          | cons t ts =>
            refine ⟨t.kind, [t.declaration] ++ ts.map (·.declaration), ?_, fun s hs hn => ?_⟩
            · rw [hrec, he, recordAll, hf, List.foldl_cons, record, foldl_record_some]
            · have hs := hin s hs hn
              rw [hf] at hs
              exact List.mem_map_of_mem (f := (·.declaration)) hs
      intro r hr s hs hn
      obtain ⟨kind, es, he, hmem⟩ := kinds r hr
      have h1 := hc r.name kind es he _ (hmem r hr rfl)
      have h2 := hc r.name kind es he _ (hmem s hs hn.symm)
      rw [kind?_of_mem_batch hr] at h1
      rw [kind?_of_mem_batch hs] at h2
      exact Option.some.inj (h1.trans h2.symm)
  · rintro ⟨hc, hone⟩ name kind es hr d hd
    rw [hrec] at hr
    cases he : env.recorded name with
    | some p =>
      obtain ⟨kind', old⟩ := p
      rw [he, recordAll, foldl_record_some] at hr
      obtain ⟨rfl, rfl⟩ := Prod.mk.inj (Option.some.inj hr)
      rcases List.mem_append.mp hd with hd | hd
      · exact hc name _ old he d hd
      · obtain ⟨r, hrm, rfl⟩ := List.mem_map.mp hd
        obtain ⟨hrm, hn⟩ := List.mem_filter.mp hrm
        rw [kind?_of_mem_batch hrm]
        refine congrArg some (hfree.kind_eq hrm ?_).symm
        rw [of_decide_eq_true hn]
        exact kindOf?_of_recorded he
    | none =>
      rw [he, recordAll] at hr
      cases hf : (batchRegistered ds).filter (·.name = name) with
      | nil => rw [hf] at hr; cases hr
      | cons t ts =>
        rw [hf, List.foldl_cons, record, foldl_record_some] at hr
        obtain ⟨rfl, rfl⟩ := Prod.mk.inj (Option.some.inj hr)
        have hall : ∀ r ∈ t :: ts, r ∈ batchRegistered ds ∧ r.name = name := by
          intro r hr
          rw [← hf] at hr
          obtain ⟨hr, hn⟩ := List.mem_filter.mp hr
          exact ⟨hr, of_decide_eq_true hn⟩
        obtain ⟨r, hrm, rfl⟩ := List.mem_map.mp (show d ∈ (t :: ts).map (·.declaration) from hd)
        obtain ⟨hr, hn⟩ := hall r hrm
        obtain ⟨ht, htn⟩ := hall t List.mem_cons_self
        rw [kind?_of_mem_batch hr]
        exact congrArg some (hone r hr t ht (hn.trans htn.symm))

/-- A conflict that is told is one: the name has the first kind in the environment or the batch, and
the second in the batch. -/
theorem Found.kinds {env : Environment} {ds : List Declaration} {c : KindConflict}
    (h : Found env none (nestables ds) c) :
    c.existing ≠ c.new ∧ (∃ r ∈ batchRegistered ds, r.name = c.name ∧ r.kind = c.new) ∧
      (env.kindOf? c.name = some c.existing ∨
        ∃ r ∈ batchRegistered ds, r.name = c.name ∧ r.kind = c.existing) := by
  obtain ⟨o, level, hw, h⟩ := h
  have hmem : ∀ {d : Nestable} {kind : ModuleKind}, d ∈ level → d.kind? = some kind →
      ⟨qualify o d.name, kind, d⟩ ∈ batchRegistered ds := by
    intro d kind hd hk
    rw [batchRegistered_eq]
    exact hw.mem_registered hd hk
  cases h with
  | entry hd hk he hne => exact ⟨hne, ⟨_, hmem hd hk, rfl, rfl⟩, .inl he⟩
  | siblings hd he hn _ hkd hke hne =>
    exact ⟨hne, ⟨_, hmem he hke, rfl, rfl⟩, .inr ⟨_, hmem hd hkd, hn, rfl⟩⟩

theorem addDeclarations_error_iff (env : Environment) (ds : List Declaration) (source : String)
    (c : KindConflict) :
    env.addDeclarations ds source = .error c ↔ env.checkDeclarations [] ds = .error c := by
  rw [addDeclarations]
  cases env.checkDeclarations [] ds with
  | error c' => exact ⟨fun h => (by cases h; rfl), fun h => (by cases h; rfl)⟩
  | ok u => exact ⟨fun h => (by cases h), fun h => (by cases h)⟩

/-- A batch is refused exactly when one of its levels has a clash, and then with such a clash. -/
theorem addDeclarations_refused (env : Environment) (ds : List Declaration) (source : String) :
    ((∃ c, env.addDeclarations ds source = .error c) ↔ ∃ c, Found env none (nestables ds) c) ∧
      ∀ c, env.addDeclarations ds source = .error c → Found env none (nestables ds) c := by
  have hspec := checkDeclarations_spec env ds
  have hsound : ∀ c, env.addDeclarations ds source = .error c → Found env none (nestables ds) c := by
    intro c hc
    rw [addDeclarations_error_iff] at hc
    rw [hc] at hspec
    exact hspec
  refine ⟨⟨fun ⟨c, hc⟩ => ⟨c, hsound c hc⟩, fun ⟨c, o, level, hw, hc⟩ => ?_⟩, hsound⟩
  cases he : env.checkDeclarations [] ds with
  | error c' => exact ⟨c', (addDeclarations_error_iff env ds source c').mpr he⟩
  | ok u =>
    rw [he] at hspec
    exact absurd hc (hspec o level hw c)

/-! ## Runs -/

/-- A batch to be added, as declarations or as a text. -/
inductive Addition
  | declarations (ds : List Declaration) (source : String)
  | signature (text source : String)

def perform (env : Environment) : Addition → Except SignatureError (Environment × List Declaration)
  | .declarations ds source =>
    match env.addDeclarations ds source with
    | .error c => .error (.conflict c)
    | .ok env => .ok (env, ds)
  | .signature text source => env.addSignature text source

/-- The environment after some additions, and the batches that were accepted; a refused addition
leaves the environment as it is. -/
def addAll (env : Environment) : List Addition → Environment × List (List Declaration)
  | [] => (env, [])
  | a :: rest =>
    match env.perform a with
    | .error _ => env.addAll rest
    | .ok (env, ds) => ((env.addAll rest).1, ds :: (env.addAll rest).2)

theorem perform_ok {env env' : Environment} {a : Addition} {ds : List Declaration}
    (h : env.perform a = .ok (env', ds)) : ∃ source, env.addDeclarations ds source = .ok env' := by
  cases a with
  | declarations ds' source =>
    rw [perform] at h
    split at h
    · cases h
    · next e he => cases h; exact ⟨source, he⟩
  | signature text source =>
    rw [perform, addSignature] at h
    split at h
    · cases h
    · split at h
      · cases h
      · next e he => cases h; exact ⟨source, he⟩

theorem kindConsistent_addAll (env : Environment) (additions : List Addition) :
    (env.addAll additions).1.KindConsistent
      ↔ env.KindConsistent ∧ ∀ ds ∈ (env.addAll additions).2, OneKind ds := by
  induction additions generalizing env with
  | nil => exact ⟨fun h => ⟨h, fun _ hd => absurd hd List.not_mem_nil⟩, fun h => h.1⟩
  | cons a rest ih =>
    rw [addAll]
    split
    · exact ih env
    · next env' ds ha =>
      obtain ⟨source, hadd⟩ := perform_ok ha
      rw [ih env', kindConsistent_addDeclarations hadd, and_assoc, List.forall_mem_cons]

/-- **Kinds along every run.**  From the empty environment, the environment that additions lead to is
consistent exactly when none of the accepted batches gives a name two kinds; and there a batch is
refused exactly when one of its levels has a clash. -/
theorem kindConsistent_run (marker : Marker) (additions : List Addition) :
    let env := (addAll { marker := marker } additions).1
    (env.KindConsistent ↔ ∀ ds ∈ (addAll { marker := marker } additions).2, OneKind ds) ∧
      ∀ ds source,
        ((∃ c, env.addDeclarations ds source = .error c) ↔ ∃ c, Found env none (nestables ds) c) ∧
        (∀ c, env.addDeclarations ds source = .error c →
          c.existing ≠ c.new ∧ (∃ r ∈ batchRegistered ds, r.name = c.name ∧ r.kind = c.new) ∧
            (env.kindOf? c.name = some c.existing ∨
              ∃ r ∈ batchRegistered ds, r.name = c.name ∧ r.kind = c.existing)) ∧
        ∀ env', env.addDeclarations ds source = .ok env' →
          (env'.KindConsistent ↔ env.KindConsistent ∧ OneKind ds) := by
  intro env
  have hempty : KindConsistent { marker := marker } := fun _ _ he => by cases he
  refine ⟨(kindConsistent_addAll _ additions).trans ⟨fun h => h.2, fun h => ⟨hempty, h⟩⟩, ?_⟩
  intro ds source
  have href := addDeclarations_refused env ds source
  exact ⟨href.1, fun c hc => (href.2 c hc).kinds, fun env' hok => kindConsistent_addDeclarations hok⟩

/-- Two kinds at two levels: the check has a table for each body of `A`. -/
def reopened : String := "class A\n  class B\n  end\nend\nclass A\n  module B\n  end\nend\n"

/-- The text is accepted, and its environment has a class and a module under one name. -/
theorem reopened_not_kindConsistent :
    ∃ env ds, addSignature { marker := ⟨"siggen:", by decide⟩ } reopened = .ok (env, ds) ∧
      ¬ env.KindConsistent := by
  have hkinds : (addSignature { marker := ⟨"siggen:", by decide⟩ } reopened).toOption.map
      (fun p => (p.1.modules.find? "A::B").map fun e => (e.kind, e.declarations.map Nestable.kind?))
      = some (some (.ofClass, [some .ofClass, some .ofModule])) := by decide +kernel
  cases ha : addSignature { marker := ⟨"siggen:", by decide⟩ } reopened with
  | error f => rw [ha] at hkinds; cases hkinds
  | ok p =>
    obtain ⟨env, ds⟩ := p
    rw [ha] at hkinds
    obtain ⟨e, he, hp⟩ := Option.map_eq_some_iff.mp (Option.some.inj hkinds)
    obtain ⟨hkind, hds⟩ := Prod.mk.inj hp
    refine ⟨env, ds, rfl, fun hc => ?_⟩
    have hmem : some ModuleKind.ofModule ∈ e.declarations.map Nestable.kind? := by
      rw [hds]
      exact List.mem_cons_of_mem _ List.mem_cons_self
    obtain ⟨d, hd, hdk⟩ := List.mem_map.mp hmem
    have := hc "A::B" e he d hd
    rw [hdk, hkind] at this
    cases this

end RbsSynth.Environment
