import RbsSynth.Proofs.Environment.Registered

/-!
# What the check of kinds refuses

A level is a list of declarations side by side: those of a batch, or those directly inside one of
them.  The check goes through the levels of a batch with a table for each, so it refuses a batch
exactly when two declarations of one level, or a declaration and the environment, give a name two
kinds:

    checkDeclarations [] ds passes if and only if no level of ds has a Clash  (checkDeclarations_spec)
-/

namespace RbsSynth.Environment

open Signature

variable {env : Environment}

/-! ## Levels -/

/-- The declarations of a batch that may also stand inside others. -/
def nestables (ds : List Declaration) : List Nestable :=
  ds.filterMap fun
    | .nestable d => some d
    | .globalDecl _ => none

/-- The levels of the declarations `ds` inside `outer`: `ds` itself, and the levels inside each. -/
inductive Within : (outer : Option String) → (ds : List Nestable) → Option String → List Nestable → Prop
  | self (outer : Option String) (ds : List Nestable) : Within outer ds outer ds
  | inside {outer o : Option String} {ds level : List Nestable} {d : Nestable} {kind : ModuleKind}
    (hd : d ∈ ds) (hk : d.kind? = some kind)
    (h : Within (some (qualify outer d.name)) d.inside o level) : Within outer ds o level

/-- A conflict at a level, between a declaration and the entry of its name, or, where there is none,
between two declarations. -/
inductive Clash (env : Environment) (outer : Option String) (level : List Nestable) :
    KindConflict → Prop
  | entry {d : Nestable} {existing new : ModuleKind} (hd : d ∈ level) (hk : d.kind? = some new)
    (he : env.kindOf? (qualify outer d.name) = some existing) (hne : existing ≠ new) :
    Clash env outer level ⟨qualify outer d.name, existing, new⟩
  | siblings {d e : Nestable} {existing new : ModuleKind} (hd : d ∈ level) (he : e ∈ level)
    (hn : qualify outer d.name = qualify outer e.name)
    (hfree : env.kindOf? (qualify outer e.name) = none) (hkd : d.kind? = some existing)
    (hke : e.kind? = some new) (hne : existing ≠ new) :
    Clash env outer level ⟨qualify outer e.name, existing, new⟩

theorem Clash.mono {outer : Option String} {level level' : List Nestable} {c : KindConflict}
    (h : Clash env outer level c) (hsub : level ⊆ level') : Clash env outer level' c := by
  cases h with
  | entry hd hk he hne => exact .entry (hsub hd) hk he hne
  | siblings hd he hn hfree hkd hke hne => exact .siblings (hsub hd) (hsub he) hn hfree hkd hke hne

/-! ## The check by levels -/

/-- `checkMembers` on the declarations among the members. -/
def checkLevel (env : Environment) (outer : Option String) (pending : Index ModuleKind) :
    List Nestable → Except KindConflict Unit
  | [] => .ok ()
  | d :: ds => do
    let pending ← checkNestable env outer pending d
    checkLevel env outer pending ds

theorem checkMembers_eq (env : Environment) (outer : Option String) (pending : Index ModuleKind)
    (ms : List Member) :
    checkMembers env outer pending ms = checkLevel env outer pending (ms.filterMap Member.nested?) := by
  induction ms generalizing pending with
  | nil => rfl
  | cons m ms ih =>
    rw [checkMembers]
    cases m with
    | nested d =>
      show (checkNestable env outer pending d >>= _) = checkNestable env outer pending d >>= _
      congr 1
      funext pending
      exact ih pending
    | _ => exact ih pending

theorem checkDeclarations_eq (env : Environment) (pending : Index ModuleKind)
    (ds : List Declaration) :
    env.checkDeclarations pending ds = checkLevel env none pending (nestables ds) := by
  induction ds generalizing pending with
  | nil => rfl
  | cons d ds ih =>
    cases d with
    | nestable d =>
      show (checkNestable env none pending d >>= _) = checkNestable env none pending d >>= _
      congr 1
      funext pending
      exact ih pending
    | globalDecl d => exact ih pending

theorem checkNestable_of_none {outer : Option String} {pending : Index ModuleKind} {d : Nestable}
    (h : d.kind? = none) : checkNestable env outer pending d = .ok pending := by
  match d with
  | .aliasDecl _ | .constantDecl _ => rfl

theorem checkNestable_of_some {outer : Option String} {pending : Index ModuleKind} {d : Nestable}
    {kind : ModuleKind} (h : d.kind? = some kind) :
    checkNestable env outer pending d = (do
      let pending ← env.checkKind pending (qualify outer d.name) kind
      checkLevel env (some (qualify outer d.name)) [] d.inside
      return pending) := by
  match d with
  | .classDecl ⟨_, _, _, _, _⟩ =>
    rw [checkNestable, checkClass, ← Option.some.inj h]
    simp only [checkMembers_eq]
    rfl
  | .moduleDecl ⟨_, _, _, _, _⟩ =>
    rw [checkNestable, checkModule, ← Option.some.inj h]
    simp only [checkMembers_eq]
    rfl
  | .interfaceDecl ⟨_, _, _, _⟩ =>
    rw [checkNestable, checkInterface, ← Option.some.inj h]
    simp only [checkMembers_eq]
    rfl

/-! ## One level -/

/-- The names of a level with their kinds; the table of a level holds them, the last first. -/
def kindsAt (outer : Option String) (level : List Nestable) : Index ModuleKind :=
  level.filterMap fun d => d.kind?.map (qualify outer d.name, ·)

theorem mem_kindsAt {outer : Option String} {level : List Nestable} {name : String}
    {kind : ModuleKind} :
    (name, kind) ∈ kindsAt outer level
      ↔ ∃ d ∈ level, d.kind? = some kind ∧ qualify outer d.name = name := by
  rw [kindsAt, List.mem_filterMap]
  constructor
  · rintro ⟨d, hd, h⟩
    obtain ⟨k, hk, he⟩ := Option.map_eq_some_iff.mp h
    obtain ⟨hn, rfl⟩ := Prod.mk.inj he
    exact ⟨d, hd, hk, hn⟩
  · rintro ⟨d, hd, hk, hn⟩
    exact ⟨d, hd, by rw [hk, ← hn]; rfl⟩

theorem kindsAt_snoc {outer : Option String} {seen : List Nestable} {d : Nestable}
    {kind : ModuleKind} (h : d.kind? = some kind) :
    (kindsAt outer (seen ++ [d])).reverse
      = (qualify outer d.name, kind) :: (kindsAt outer seen).reverse := by
  have hd : kindsAt outer [d] = [(qualify outer d.name, kind)] := by
    rw [kindsAt, List.filterMap_cons_some (by rw [h]; rfl)]
    rfl
  rw [kindsAt, List.filterMap_append, List.reverse_append, ← kindsAt, ← kindsAt, hd]
  rfl

theorem kindsAt_snoc_none (outer : Option String) (seen : List Nestable) {d : Nestable}
    (h : d.kind? = none) : kindsAt outer (seen ++ [d]) = kindsAt outer seen := by
  rw [kindsAt, List.filterMap_append, List.filterMap_cons_none (by rw [h]; rfl)]
  exact List.append_nil _

theorem mem_of_find? {α : Type} {name : String} {a : α} {index : Index α}
    (h : index.find? name = some a) : (name, a) ∈ index := by
  induction index with
  | nil => cases h
  | cons p rest ih =>
    obtain ⟨n, b⟩ := p
    rw [Index.find?] at h
    split at h
    · next hn => rw [hn, Option.some.inj h]; exact List.mem_cons_self
    · exact List.mem_cons_of_mem _ (ih h)

theorem not_mem_of_find? {α : Type} {name : String} {index : Index α}
    (h : index.find? name = none) (a : α) : (name, a) ∉ index := by
  induction index with
  | nil => exact List.not_mem_nil
  | cons p rest ih =>
    obtain ⟨n, b⟩ := p
    rw [Index.find?] at h
    split at h
    · cases h
    · next hn =>
      intro hm
      rcases List.mem_cons.mp hm with he | hm
      · exact hn (Prod.mk.inj he).1.symm
      · exact ih h hm

/-- A new clash involves the new declaration. -/
theorem not_clash_snoc {outer : Option String} {seen : List Nestable} {d : Nestable}
    (hseen : ∀ c, ¬ Clash env outer seen c)
    (hentry : ∀ kind existing, d.kind? = some kind →
      env.kindOf? (qualify outer d.name) = some existing → existing = kind)
    (hsiblings : env.kindOf? (qualify outer d.name) = none → ∀ e ∈ seen, ∀ kind kind',
      qualify outer e.name = qualify outer d.name → d.kind? = some kind → e.kind? = some kind' →
        kind' = kind) (c : KindConflict) :
    ¬ Clash env outer (seen ++ [d]) c := by
  intro h
  cases h with
  | entry hd hk he hne =>
    rcases List.mem_append.mp hd with hd | hd
    · exact hseen _ (.entry hd hk he hne)
    · rw [List.mem_singleton.mp hd] at hk he
      exact hne (hentry _ _ hk he)
  | siblings hd he hn hfree hkd hke hne =>
    rcases List.mem_append.mp hd with hd | hd
    · rcases List.mem_append.mp he with he | he
      · exact hseen _ (.siblings hd he hn hfree hkd hke hne)
      · rw [List.mem_singleton.mp he] at hn hfree hke
        exact hne (hsiblings hfree _ hd _ _ hn hke hkd)
    · rw [List.mem_singleton.mp hd] at hn hkd
      rcases List.mem_append.mp he with he | he
      · rw [← hn] at hfree
        exact hne (hsiblings hfree _ he _ _ hn.symm hkd hke).symm
      · rw [List.mem_singleton.mp he, hkd] at hke
        exact hne (Option.some.inj hke)

/-- One comparison: the table grows by the declaration, or they clash. -/
theorem checkKind_spec {outer : Option String} {seen : List Nestable} {d : Nestable}
    {kind : ModuleKind} (hk : d.kind? = some kind) (hseen : ∀ c, ¬ Clash env outer seen c) :
    match env.checkKind (kindsAt outer seen).reverse (qualify outer d.name) kind with
    | .ok pending => pending = (kindsAt outer (seen ++ [d])).reverse ∧
        ∀ c, ¬ Clash env outer (seen ++ [d]) c
    | .error c => Clash env outer (seen ++ [d]) c := by
  have hd : d ∈ seen ++ [d] := List.mem_append_right _ List.mem_cons_self
  have same : ∀ {k}, d.kind? = some k → k = kind := fun h => Option.some.inj (h.symm.trans hk)
  rw [checkKind]
  cases he : env.kindOf? (qualify outer d.name) with
  | some existing =>
    rw [Option.some_or]
    by_cases hx : existing = kind
    · simp only [if_pos hx]
      refine ⟨(kindsAt_snoc hk).symm, not_clash_snoc hseen (fun k x hk' hx' => ?_) fun h => ?_⟩
      · rw [same hk', ← hx]
        exact Option.some.inj (hx'.symm.trans he)
      · exact absurd (h.symm.trans he) (by simp)
    · simp only [if_neg hx]
      exact .entry hd hk he hx
  | none =>
    rw [Option.none_or]
    cases hp : Index.find? (qualify outer d.name) (kindsAt outer seen).reverse with
    | none =>
      refine ⟨(kindsAt_snoc hk).symm, not_clash_snoc hseen (fun k x _ hx => ?_)
        fun _ e hes k k' hn _ hke => ?_⟩
      · exact absurd (hx.symm.trans he) (by simp)
      · have hm := mem_kindsAt.mpr ⟨e, hes, hke, hn⟩
        exact absurd (List.mem_reverse.mpr hm) (not_mem_of_find? hp k')
    | some existing =>
      obtain ⟨e, hes, hke, hn⟩ := mem_kindsAt.mp (List.mem_reverse.mp (mem_of_find? hp))
      by_cases hx : existing = kind
      · simp only [if_pos hx]
        refine ⟨(kindsAt_snoc hk).symm, not_clash_snoc hseen (fun k x _ hx' => ?_)
          fun hfree b hb k k' hnb hkd hkb => ?_⟩
        · exact absurd (hx'.symm.trans he) (by simp)
        · -- the earlier ones of the name agree, and the table knows one of them
          rw [same hkd, ← hx]
          apply Decidable.byContradiction
          intro hne
          exact hseen _ (.siblings hb hes (hnb.trans hn.symm) (by rw [hn]; exact hfree) hkb hke hne)
      · simp only [if_neg hx]
        exact .siblings (List.mem_append_left _ hes) hd hn he hke hk hx

/-! ## All levels -/

/-- What holds after a check: `passed`, or `found` of the conflict. -/
def Outcome (passed : Prop) (found : KindConflict → Prop) : Except KindConflict Unit → Prop
  | .ok () => passed
  | .error c => found c

/-- No level inside has a clash. -/
def Free (env : Environment) (outer : Option String) (ds : List Nestable) : Prop :=
  ∀ o level, Within outer ds o level → ∀ c, ¬ Clash env o level c

/-- The conflict is at a level inside. -/
def Found (env : Environment) (outer : Option String) (ds : List Nestable) (c : KindConflict) : Prop :=
  ∃ o level, Within outer ds o level ∧ Clash env o level c

/-- The check of the declarations `ds` inside `outer` finds a clash at one of their levels if there is
one. -/
def CheckSpec (env : Environment) (outer : Option String) (ds : List Nestable) : Prop :=
  Outcome (Free env outer ds) (Found env outer ds) (checkLevel env outer [] ds)

/-- The check of a level after `seen`, when it is right about the levels inside. -/
theorem checkLevel_spec_after {outer : Option String} (ds : List Nestable)
    (inside : ∀ d ∈ ds, CheckSpec env (some (qualify outer d.name)) d.inside) :
    ∀ seen, (∀ c, ¬ Clash env outer seen c) →
      Outcome
        ((∀ c, ¬ Clash env outer (seen ++ ds) c) ∧ ∀ d ∈ ds, ∀ kind, d.kind? = some kind →
          Free env (some (qualify outer d.name)) d.inside)
        (fun c => Clash env outer (seen ++ ds) c ∨ ∃ d ∈ ds, ∃ kind, d.kind? = some kind ∧
          Found env (some (qualify outer d.name)) d.inside c)
        (checkLevel env outer (kindsAt outer seen).reverse ds) := by
  induction ds with
  | nil =>
    intro seen hseen
    rw [List.append_nil]
    exact ⟨hseen, fun d hd => absurd hd List.not_mem_nil⟩
  | cons d ds ih =>
    intro seen hseen
    have ih := ih fun e he => inside e (List.mem_cons_of_mem d he)
    rw [List.append_cons, checkLevel]
    cases hk : d.kind? with
    | none =>
      have hsame : ∀ c, ¬ Clash env outer (seen ++ [d]) c :=
        not_clash_snoc hseen (fun k x h => absurd (h.symm.trans hk) (by simp))
          fun _ e _ k k' _ h => absurd (h.symm.trans hk) (by simp)
      rw [checkNestable_of_none hk, ← kindsAt_snoc_none outer seen hk]
      have ih := ih (seen ++ [d]) hsame
      show Outcome _ _ (checkLevel env outer (kindsAt outer (seen ++ [d])).reverse ds)
      cases hrest : checkLevel env outer (kindsAt outer (seen ++ [d])).reverse ds with
      | ok u =>
        rw [hrest] at ih
        refine ⟨ih.1, fun e he k hke => ?_⟩
        rcases List.mem_cons.mp he with rfl | he
        · exact absurd (hke.symm.trans hk) (by simp)
        · exact ih.2 e he k hke
      | error c =>
        rw [hrest] at ih
        rcases ih with ih | ⟨e, he, rest⟩
        · exact .inl ih
        · exact .inr ⟨e, List.mem_cons_of_mem d he, rest⟩
    | some kind =>
      have hkind := checkKind_spec hk hseen
      have hin := inside d List.mem_cons_self
      rw [CheckSpec] at hin
      rw [checkNestable_of_some hk]
      cases hp : env.checkKind (kindsAt outer seen).reverse (qualify outer d.name) kind with
      | error c =>
        rw [hp] at hkind
        exact .inl (hkind.mono fun e he => List.mem_append_left ds he)
      | ok pending =>
        rw [hp] at hkind
        obtain ⟨rfl, hsame⟩ := hkind
        cases hi : checkLevel env (some (qualify outer d.name)) [] d.inside with
        | error c =>
          rw [hi] at hin
          exact .inr ⟨d, List.mem_cons_self, kind, hk, hin⟩
        | ok u =>
          rw [hi] at hin
          have ih := ih (seen ++ [d]) hsame
          show Outcome _ _ (checkLevel env outer (kindsAt outer (seen ++ [d])).reverse ds)
          cases hrest : checkLevel env outer (kindsAt outer (seen ++ [d])).reverse ds with
          | ok u =>
            rw [hrest] at ih
            refine ⟨ih.1, fun e he k hke => ?_⟩
            rcases List.mem_cons.mp he with rfl | he
            · exact hin
            · exact ih.2 e he k hke
          | error c =>
            rw [hrest] at ih
            rcases ih with ih | ⟨e, he, rest⟩
            · exact .inl ih
            · exact .inr ⟨e, List.mem_cons_of_mem d he, rest⟩

theorem not_clash_nil (outer : Option String) (c : KindConflict) : ¬ Clash env outer [] c := by
  intro h
  cases h with
  | entry hd _ _ _ => exact absurd hd List.not_mem_nil
  | siblings hd _ _ _ _ _ _ => exact absurd hd List.not_mem_nil

/-- The step from the levels inside to a level. -/
theorem CheckSpec.of_inside {outer : Option String} {ds : List Nestable}
    (inside : ∀ d ∈ ds, CheckSpec env (some (qualify outer d.name)) d.inside) :
    CheckSpec env outer ds := by
  have h := checkLevel_spec_after ds inside [] (not_clash_nil outer)
  rw [CheckSpec]
  change Outcome _ _ (checkLevel env outer [] ds) at h
  cases hc : checkLevel env outer [] ds with
  | ok u =>
    rw [hc] at h
    intro o level hw
    cases hw with
    | self => exact h.1
    | inside hd hk hw => exact h.2 _ hd _ hk o level hw
  | error c =>
    rw [hc] at h
    rcases h with h | ⟨d, hd, kind, hk, o, level, hw, h⟩
    · exact ⟨outer, ds, .self outer ds, h⟩
    · exact ⟨o, level, .inside hd hk hw, h⟩

theorem checkInside_spec (d : Nestable) : ∀ outer, CheckSpec env outer d.inside := by
  induction d using Nestable.induct with
  | h d ih => exact fun outer => .of_inside fun e he => ih e he _

theorem checkLevel_spec (outer : Option String) (ds : List Nestable) : CheckSpec env outer ds :=
  .of_inside fun d _ => checkInside_spec d _

/-- **What the check refuses.** -/
theorem checkDeclarations_spec (env : Environment) (ds : List Declaration) :
    Outcome (Free env none (nestables ds)) (Found env none (nestables ds))
      (env.checkDeclarations [] ds) := by
  rw [checkDeclarations_eq]
  exact checkLevel_spec none (nestables ds)

end RbsSynth.Environment
