import RbsSynth.Proofs.Environment.Reached

/-!
# Classes and their superclasses in the list of ancestors

When the class at position `i` of the chain is appended, the list holds what is mixed into the classes
before it and into the modules prepended to it, and nothing else (`exists_turn`).  So where only modules
are mixed in, a class comes before its superclass, unless that is met before the class is appended
(`MetBefore`); then the superclass is itself a module and comes first   (ancestors_reached_in_order).

A superclass may be a module, as a superclass clause may name one; `not_listsSuperclassesLater` has
such a class.
-/

namespace RbsSynth.Environment

/-- Among the ancestors of instances of `name`, `a` comes before `b`. -/
def ListsBefore (env : Environment) (name a b : String) : Prop :=
  (env.ancestors name .ofInstance).idxOf ⟨a, .ofInstance⟩
    < (env.ancestors name .ofInstance).idxOf ⟨b, .ofInstance⟩

/-- A module is met before the class `c` at position `i`: it is mixed into an earlier class of the
chain or into a module prepended to `c`. -/
def MetBefore (env : Environment) (name : String) (i : Nat) (c m : String) : Prop :=
  (∃ j < i, ∃ b, env.lineage? j name = some b ∧ env.Mixed b m) ∨
    ∃ e, env.entry? c = some e ∧ ∃ p ∈ env.prepended e, env.Mixed p m

instance (env : Environment) (name a b : String) : Decidable (env.ListsBefore name a b) :=
  inferInstanceAs (Decidable (_ < _))

variable {env : Environment}

theorem idxOf_lt_of_prefix {l l' : List Ancestor} {a b : Ancestor} (h : l <+: l') (ha : a ∈ l)
    (hb : b ∉ l) : l'.idxOf a < l'.idxOf b := by
  obtain ⟨rest, rfl⟩ := h
  rw [List.idxOf_append_of_mem ha, List.idxOf_append_of_notMem hb]
  exact Nat.lt_of_lt_of_le (List.idxOf_lt_length_of_mem ha) (Nat.le_add_right _ _)

/-- What is met before a class is an earlier class of the chain or a module. -/
theorem MetBefore.kind {name : String} {i : Nat} {c m : String} (h : env.MetBefore name i c m)
    (hmods : env.MixesModules name) (hc : env.lineage? i name = some c)
    (hmodule : env.hasModule m = true) :
    (∃ j < i, env.lineage? j name = some m) ∨ env.kindOf? m = some .ofModule := by
  rcases h with ⟨j, hj, b, hb, hmixed⟩ | ⟨e, he, p, hp, hmixed⟩
  · have hreach : ∀ y, env.Mixed b y → env.Reaches name y := fun y hy => .inl ⟨j, b, hb, hy⟩
    rcases hmods.eq_or_module hreach hmixed hmodule with rfl | hkind
    · exact .inl ⟨j, hj, hb⟩
    · exact .inr hkind
  · have hcp : env.Mixes c p := ⟨e, he, .inl hp⟩
    have hreach : ∀ y, env.Mixed p y → env.Reaches name y := fun y hy => .inl ⟨i, c, hc, .head hcp hy⟩
    rcases hmods.eq_or_module hreach hmixed hmodule with rfl | hkind
    · exact .inr (hmods c m (.inl ⟨i, c, hc, .refl⟩) hcp hmodule)
    · exact .inr hkind

/-- **The turn of a class.**  When it is appended, what is met before it is listed, and nothing else. -/
theorem exists_turn {name : String} (h : env.WithinDepth name) (hmods : env.MixesModules name)
    {i : Nat} {c : String} (hc : env.lineage? i name = some c)
    (hclass : env.kindOf? c = some .ofClass) :
    ∃ listed, listed ++ [⟨c, .ofInstance⟩] <+: env.ancestors name .ofInstance ∧
      ∀ m, env.hasModule m = true → (⟨m, .ofInstance⟩ ∈ listed ↔ env.MetBefore name i c m) := by
  obtain ⟨e, he, _⟩ := Option.map_eq_some_iff.mp hclass
  have he : env.entry? c = some e := he
  have hi : i + 0 ≤ depthLimit := h.chain hc (.none c) (hasModule_of_entry he)
  obtain ⟨k, hk⟩ := Nat.exists_eq_add_of_le hi
  have hlevels : 0 + (depthLimit + 1) - i = k + 1 := by omega
  obtain ⟨before, hstage, hprefix⟩ := exists_stage (n := depthLimit + 1) (.start name)
    (fun j k c m hc hk hm => by have := h.chain hc hk hm; omega) hc (Nat.zero_le i) (by omega)
  have hnew : ⟨c, .ofInstance⟩ ∉ before := by
    intro hin
    obtain ⟨m, hm, hmet⟩ := hstage.sound _ hin
    obtain rfl : c = m := congrArg Ancestor.name hm
    have hmet : env.MetBefore name i c c := .inl hmet
    rcases hmet.kind hmods hc (hasModule_of_entry he) with ⟨j, hj, hjc⟩ | hkind
    · exact absurd (h.apart (hasModule_of_entry he) hjc hc) (Nat.ne_of_lt hj)
    · cases hclass.symm.trans hkind
  rw [hlevels, addSide_of_new he hnew] at hprefix
  have walk : ∀ p ∈ env.prepended e, ∀ found, env.Settled p found →
      env.Lists p (env.addSide k p found) := fun p hp found =>
    lists_addSide fun j m hj hm => by
      have := h.chain hc (.more ⟨e, he, .inl hp⟩ hj) hm
      omega
  obtain ⟨hlists, _⟩ := lists_addSides walk fun p _ => hstage.settled p
  obtain ⟨root, hroot⟩ : ∃ e, env.entry? name = some e := by
    cases hr : env.entry? name with
    | some e => exact ⟨e, rfl⟩
    | none =>
      obtain rfl := eq_of_lineage? hr hc
      cases hr.symm.trans he
  refine ⟨env.addSides k (env.prepended e) before,
    ((prefix_addSides k _ _).trans hprefix).trans (prefix_ancestors hroot), fun m hmodule => ?_⟩
  constructor
  · intro hin
    rcases mem_addSides hin with hold | ⟨p, hp, y, hy, _, hmixed⟩
    · obtain ⟨y, hy, hmet⟩ := hstage.sound _ hold
      obtain rfl : m = y := congrArg Ancestor.name hy
      exact .inl hmet
    · obtain rfl : m = y := congrArg Ancestor.name hy
      exact .inr ⟨e, he, p, hp, hmixed⟩
  · rintro (⟨j, hj, b, hb, hmixed⟩ | ⟨e', he', p, hp, hmixed⟩)
    · exact (prefix_addSides k _ _).subset (hstage.complete j hj b hb m hmixed hmodule)
    · obtain rfl : e' = e := Option.some.inj (he'.symm.trans he)
      exact hlists p hp m hmixed hmodule

/-- **Ancestors are the modules reached, in the order of the chain.**  For every name within the depth
limit, the ancestors of its instances are the modules that are mixed into it, into a class of its chain
or, for a module, into `Object`.  Where only modules are mixed in, a class comes before its superclass,
unless that is met before; then the superclass is itself a module and comes first. -/
theorem ancestors_reached_in_order {name : String} (h : env.WithinDepth name) :
    (∀ m, ⟨m, .ofInstance⟩ ∈ env.ancestors name .ofInstance
      ↔ env.hasModule m = true ∧ env.Reaches name m) ∧
    (env.MixesModules name → ∀ i c s, env.lineage? i name = some c →
      env.superclassOf? c = some s → env.hasModule s = true →
        (¬ env.MetBefore name i c s → env.ListsBefore name c s) ∧
        (env.MetBefore name i c s → env.kindOf? s = some .ofModule ∧ env.ListsBefore name s c)) := by
  refine ⟨mem_ancestors_iff h, fun hmods i c s hc hs hmodule => ?_⟩
  obtain ⟨hcmodule, hclass⟩ := class_of_superclassOf? hs
  have hnext : env.lineage? (i + 1) name = some s := (lineage?_succ hc).trans hs
  have hne : s ≠ c := by
    rintro rfl
    exact absurd (h.apart hmodule hc hnext) (by omega)
  obtain ⟨listed, hprefix, hlisted⟩ := exists_turn h hmods hc hclass
  constructor
  · intro hmet
    refine idxOf_lt_of_prefix hprefix (List.mem_append_right _ List.mem_cons_self) fun hin => ?_
    rcases List.mem_append.mp hin with hin | hin
    · exact hmet ((hlisted s hmodule).mp hin)
    · exact hne (congrArg Ancestor.name (List.mem_singleton.mp hin))
  · intro hmet
    constructor
    · rcases hmet.kind hmods hc hmodule with ⟨j, hj, hjs⟩ | hkind
      · exact absurd (h.apart hmodule hjs hnext) (by omega)
      · exact hkind
    · refine idxOf_lt_of_prefix ((List.prefix_append _ _).trans hprefix)
        ((hlisted s hmodule).mpr hmet) fun hin => ?_
      rcases ((hlisted c hcmodule).mp hin).kind hmods hc hcmodule with ⟨j, hj, hjc⟩ | hkind
      · exact absurd (h.apart hcmodule hjc hc) (Nat.ne_of_lt hj)
      · cases hclass.symm.trans hkind

/-! ## Two texts -/

/-- A class with a superclass, an included module that includes another, and a prepended one. -/
def mixedText : String :=
  "class A < B\n  include M\n  prepend P\nend\nclass B\nend\nmodule M\n  include N\nend\n"
    ++ "module N\nend\nmodule P\nend\n"

theorem ancestors_reached_in_order_mixed :
    ∃ env ds, addSignature { marker := ⟨"siggen:", by decide⟩ } mixedText = .ok (env, ds) ∧
      env.WithinDepth "A" ∧ env.MixesModules "A" ∧ env.superclassOf? "A" = some "B" ∧
      env.Reaches "A" "N" ∧ env.ListsBefore "A" "A" "B" := by
  obtain ⟨env, ds, hadd, hranked, hmods, hsuper, hkind, hin⟩ := exists_added mixedText
    (P := fun env => env.Ranked (fun x => if x = "A" then 3 else if x = "M" then 1 else 0) ∧
      (∀ q ∈ env.modules, ∀ m ∈ env.prepended q.2 ++ env.included q.2, env.hasModule m = true →
        env.kindOf? m = some .ofModule) ∧
      env.superclassOf? "A" = some "B" ∧ env.kindOf? "B" = some .ofClass ∧
      ⟨"N", .ofInstance⟩ ∈ env.ancestors "A" .ofInstance) (by decide +kernel)
  have hdepth : env.WithinDepth "A" := hranked.withinDepth (by decide) (by decide)
  have hmods : env.MixesModules "A" := mixesModules_of_modules hmods "A"
  obtain ⟨hreached, horder⟩ := ancestors_reached_in_order hdepth
  have hmodule : env.hasModule "B" = true := by
    obtain ⟨e, he, _⟩ := Option.map_eq_some_iff.mp hkind
    exact hasModule_of_entry he
  obtain ⟨hbefore, hmet⟩ := horder hmods 0 "A" "B" rfl hsuper hmodule
  refine ⟨env, ds, hadd, hdepth, hmods, hsuper, ((hreached "N").mp hin).2, hbefore fun h => ?_⟩
  cases (hmet h).1.symm.trans hkind

/-- A class whose superclass clause names a module, which is also prepended to it. -/
def moduleSuperclass : String := "class A < M\n  prepend M\nend\nmodule M\nend\n"

/-- Without cycles, within the depth limit and with modules as the only mixins, a class may come after
its superclass. -/
theorem not_listsSuperclassesLater :
    ∃ env ds, addSignature { marker := ⟨"siggen:", by decide⟩ } moduleSuperclass = .ok (env, ds) ∧
      (∀ x, ¬ Relation.TransGen (fun x m => env.Mixes x m ∨ env.superclassOf? x = some m) x x) ∧
      env.WithinDepth "A" ∧ env.MixesModules "A" ∧
      ¬ ∀ i c s, env.lineage? i "A" = some c → env.superclassOf? c = some s →
        env.hasModule s = true → env.ListsBefore "A" c s := by
  obtain ⟨env, ds, hadd, hranked, hmods, hsuper, hmodule, hlate⟩ :=
    exists_added moduleSuperclass
      (P := fun env => env.Ranked (fun x => if x = "A" then 1 else 0) ∧
        (∀ q ∈ env.modules, ∀ m ∈ env.prepended q.2 ++ env.included q.2, env.hasModule m = true →
          env.kindOf? m = some .ofModule) ∧
        env.superclassOf? "A" = some "M" ∧ env.hasModule "M" = true ∧ ¬ env.ListsBefore "A" "A" "M")
      (by decide +kernel)
  exact ⟨env, ds, hadd, hranked.acyclic, hranked.withinDepth (by decide) (by decide),
    mixesModules_of_modules hmods "A", fun h => hlate (h 0 "A" "M" rfl hsuper hmodule)⟩

end RbsSynth.Environment
