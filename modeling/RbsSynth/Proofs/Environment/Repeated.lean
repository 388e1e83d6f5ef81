import RbsSynth.Proofs.Environment.Reached

/-!
# How often an ancestor is listed

A walk looks whether a module is listed when it comes to it, but lists it only behind the modules
prepended to it.  So a module is listed again when these lead back to it (`PrependsBack`), and only
then; singleton sides are never listed again:

    count a (ancestors name side) ≤ 1 ∨ (a.side = instance ∧ env.PrependsBack a.name) (count_ancestors_le)

A module that is prepended to itself is always listed more than once among its own ancestors.
-/

namespace RbsSynth.Environment

/-- Mixins lead from a module prepended to `m` back to `m`. -/
def PrependsBack (env : Environment) (m : String) : Prop :=
  ∃ e, env.entry? m = some e ∧ ∃ p ∈ env.prepended e, env.Mixed p m

variable {env : Environment}

theorem count_snoc_of_new {a : Ancestor} {l : List Ancestor} (h : a ∉ l) :
    (l ++ [a]).count a = 1 := by
  rw [List.count_append, List.count_eq_zero.mpr h, List.count_singleton_self]

theorem count_snoc_of_ne {a b : Ancestor} (h : b ≠ a) (l : List Ancestor) :
    (l ++ [b]).count a = l.count a := by
  rw [List.count_append, List.count_singleton, if_neg (by simpa using h), Nat.add_zero]

/-- The walk lists a module once, unless its prepended modules lead back to it. -/
theorem count_addSide {m : String} (hm : ¬ env.PrependsBack m) (n : Nat) (x : String)
    {found : List Ancestor} (h : found.count ⟨m, .ofInstance⟩ ≤ 1) :
    (env.addSide n x found).count ⟨m, .ofInstance⟩ ≤ 1 := by
  induction n generalizing x found with
  | zero => exact h
  | succ n ih =>
    cases he : env.entry? x with
    | none => rwa [addSide_of_none he]
    | some e =>
      by_cases hin : ⟨x, .ofInstance⟩ ∈ found
      · rwa [addSide_of_mem hin]
      · rw [addSide_of_new he hin]
        have sides : ∀ ms found, found.count ⟨m, .ofInstance⟩ ≤ 1 →
            (env.addSides n ms found).count ⟨m, .ofInstance⟩ ≤ 1 := fun ms found hc =>
          addSides_keeps (Q := (·.count ⟨m, .ofInstance⟩ ≤ 1)) (fun c _ found hc => ih c hc) hc
        have prepends := sides (env.prepended e) found h
        apply sides
        by_cases hx : x = m
        · -- the module is not listed yet, since it is not met behind its prepended ones
          subst hx
          have hnew : ⟨x, .ofInstance⟩ ∉ env.addSides n (env.prepended e) found := by
            intro hin'
            rcases mem_addSides hin' with hold | ⟨p, hp, y, hy, _, hmixed⟩
            · exact hin hold
            · obtain rfl : x = y := congrArg Ancestor.name hy
              exact hm ⟨e, he, p, hp, hmixed⟩
          exact Nat.le_of_eq (count_snoc_of_new hnew)
        · rwa [count_snoc_of_ne (by simpa using hx)]

/-- The walk adds no singleton sides. -/
theorem count_addSide_singleton (x : String) (n : Nat) (y : String) (found : List Ancestor) :
    (env.addSide n y found).count ⟨x, .ofSingleton⟩ = found.count ⟨x, .ofSingleton⟩ := by
  refine addSide_keeps (Q := fun l => l.count ⟨x, .ofSingleton⟩ = found.count ⟨x, .ofSingleton⟩)
    (fun l m _ _ hl => ?_) n rfl
  rw [count_snoc_of_ne (by simp), hl]

theorem mem_addSides_self {m : String} (hmodule : env.hasModule m = true) (n : Nat) {ms : List String}
    (h : m ∈ ms) (found : List Ancestor) : ⟨m, .ofInstance⟩ ∈ env.addSides (n + 1) ms found := by
  obtain ⟨before, after, rfl⟩ := List.append_of_mem h
  rw [addSides, List.foldl_append, List.foldl_cons]
  exact (prefix_addSides (n + 1) after _).subset (mem_addSide_self hmodule n _)

/-- A module that is prepended to itself is listed once more behind that. -/
theorem two_le_count {m : String} {e : ModuleEntry} (he : env.entry? m = some e)
    (hm : m ∈ env.prepended e) : 2 ≤ (env.ancestors m .ofInstance).count ⟨m, .ofInstance⟩ := by
  have hprepended : ⟨m, .ofInstance⟩ ∈ env.addSides depthLimit (env.prepended e) [] :=
    mem_addSides_self (hasModule_of_entry he) 63 hm []
  have hside : env.addSides depthLimit (env.prepended e) [] ++ [⟨m, .ofInstance⟩]
      <+: env.addSide (depthLimit + 1) m [] := by
    rw [addSide_of_new he List.not_mem_nil]
    exact prefix_addSides _ _ _
  have hlisted : env.addSide (depthLimit + 1) m [] <+: env.ancestors m .ofInstance :=
    (prefix_addChain depthLimit _ _).trans (prefix_ancestors he)
  calc 2 = 1 + 1 := rfl
    _ ≤ (env.addSides depthLimit (env.prepended e) []).count ⟨m, .ofInstance⟩ + 1 :=
      Nat.add_le_add_right (List.count_pos_iff.mpr hprepended) 1
    _ = List.count ⟨m, .ofInstance⟩
          (env.addSides depthLimit (env.prepended e) [] ++ [⟨m, .ofInstance⟩]) := by
      rw [List.count_append, List.count_singleton_self]
    _ ≤ (env.ancestors m .ofInstance).count ⟨m, .ofInstance⟩ :=
      (hside.trans hlisted).sublist.count_le _

/-- **An ancestor is listed once, unless its prepended modules lead back to it.**  On each side and for
every name; and a module that is prepended to itself is listed again. -/
theorem count_ancestors_le (env : Environment) :
    (∀ name side a, (env.ancestors name side).count a ≤ 1 ∨
      (a.side = .ofInstance ∧ env.PrependsBack a.name)) ∧
    ∀ m e, env.entry? m = some e → m ∈ env.prepended e →
      1 < (env.ancestors m .ofInstance).count ⟨m, .ofInstance⟩ := by
  refine ⟨fun name side a => ?_, fun m e he hm => two_le_count he hm⟩
  obtain ⟨x, s⟩ := a
  cases s with
  | ofInstance =>
    by_cases hx : env.PrependsBack x
    · exact .inr ⟨rfl, hx⟩
    · refine .inl (ancestors_keeps (Q := (·.count ⟨x, .ofInstance⟩ ≤ 1)) (Nat.zero_le 1)
        (fun n y found hc => count_addSide hx n y hc) (fun y found _ _ hc => ?_) name side)
      rwa [count_snoc_of_ne (by simp)]
  | ofSingleton =>
    refine .inl (ancestors_keeps (Q := (·.count ⟨x, .ofSingleton⟩ ≤ 1)) (Nat.zero_le 1)
      (fun n y found hc => ?_) (fun y found _ hnew hc => ?_) name side)
    · rwa [count_addSide_singleton]
    · by_cases hy : y = x
      · subst hy
        exact Nat.le_of_eq (count_snoc_of_new hnew)
      · rwa [count_snoc_of_ne (by simpa using hy)]

/-- A module that is prepended to itself. -/
def prependedToItself : String := "module M\n  prepend M\nend\n"

/-- The text is accepted, and the module is listed more than once. -/
theorem prependedToItself_not_nodup :
    ∃ env ds, addSignature { marker := ⟨"siggen:", by decide⟩ } prependedToItself = .ok (env, ds) ∧
      ¬ (env.ancestors "M" .ofInstance).Nodup :=
  exists_added _ (P := fun env => ¬ (env.ancestors "M" .ofInstance).Nodup) (by decide +kernel)

end RbsSynth.Environment
