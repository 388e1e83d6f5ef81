import Mathlib.Data.List.Cycle
import Mathlib.Dynamics.PeriodicPts.Defs
import RbsSynth.Proofs.Environment.Reached

/-!
# Subclasses are names below on the chain of superclasses

The walk that looks for an ancestor goes up from superclass to superclass and ends where a name comes
again.  `Ascent` is the relation of its runs that end; it has no bound on the steps.  The walk has one
run from every name, also round a cycle (`ascent_isSubclass`), and misses nothing by ending early: when
a name comes again, the names passed have their superclasses among themselves.  So

    env.isSubclass name ancestor ↔ ∃ i, env.lineage? i name = some ancestor          (isSubclass_iff)

This is a preorder, but no order: two names are each below the other exactly if a cycle of superclasses
has both of them (exists_cycle).
-/

namespace RbsSynth.Environment

/-- The runs of the walk up from a name, with their answers; `seen` are the names passed before. -/
inductive Ascent (env : Environment) (ancestor : String) : List String → String → Bool → Prop
  | again {seen name} : name ∈ seen → Ascent env ancestor seen name false
  | met {seen} : ancestor ∉ seen → Ascent env ancestor seen ancestor true
  | top {seen name} : name ∉ seen → name ≠ ancestor → env.superclassOf? name = none →
      Ascent env ancestor seen name false
  | next {seen name s answer} : name ∉ seen → name ≠ ancestor → env.superclassOf? name = some s →
      Ascent env ancestor (name :: seen) s answer → Ascent env ancestor seen name answer

variable {env : Environment} {ancestor : String}

/-! ## The walk ends -/

/-- Distinct names that have entries are not more than the entries. -/
theorem length_le_modules {names : List String} (hnodup : names.Nodup)
    (hknown : ∀ x ∈ names, env.hasModule x = true) : names.length ≤ env.modules.length := by
  have hsub : names ⊆ env.modules.map Prod.fst := by
    intro x hx
    obtain ⟨e, he⟩ := exists_entry (hknown x hx)
    exact List.mem_map_of_mem (f := Prod.fst) (mem_of_find? he)
  have hlength := (List.subperm_of_subset hnodup hsub).length_le
  rwa [List.length_map] at hlength

/-- The names passed are distinct classes, so the steps left are enough for a run to its end. -/
theorem ascent_reaches {n : Nat} {seen : List String} (hnodup : seen.Nodup)
    (hknown : ∀ x ∈ seen, env.hasModule x = true)
    (hn : env.modules.length < n + seen.length) (name : String) :
    env.Ascent ancestor seen name (env.reaches ancestor n seen name) := by
  induction n generalizing seen name with
  | zero =>
    have := length_le_modules hnodup hknown
    omega
  | succ n ih =>
    rw [reaches]
    split
    · next hseen => exact .again (List.contains_iff_mem.mp hseen)
    · next hseen =>
      have hnew : name ∉ seen := fun hin => hseen (List.contains_iff_mem.mpr hin)
      split
      · next hmet =>
        obtain rfl := eq_of_beq hmet
        exact .met hnew
      · next hmet =>
        have hne : name ≠ ancestor := fun heq => hmet (beq_iff_eq.mpr heq)
        cases hs : env.superclassOf? name with
        | none => exact .top hnew hne hs
        | some s =>
          have hclass : ∀ x ∈ name :: seen, env.hasModule x = true :=
            List.forall_mem_cons.mpr ⟨(class_of_superclassOf? hs).1, hknown⟩
          refine .next hnew hne hs (ih (List.nodup_cons.mpr ⟨hnew, hnodup⟩) hclass ?_ s)
          rw [List.length_cons]
          omega

theorem ascent_isSubclass (name ancestor : String) :
    env.Ascent ancestor [] name (env.isSubclass name ancestor) := by
  refine ascent_reaches List.nodup_nil (fun x hx => absurd hx List.not_mem_nil) ?_ name
  rw [List.length_nil]
  omega

/-! ## What it finds -/

theorem Ascent.sound {seen : List String} {name : String} {answer : Bool}
    (h : env.Ascent ancestor seen name answer) (ha : answer = true) :
    ∃ i, env.lineage? i name = some ancestor := by
  induction h with
  | again | top => cases ha
  | met => exact ⟨0, rfl⟩
  | next _ _ hs _ ih =>
    obtain ⟨i, hi⟩ := ih ha
    refine ⟨i + 1, ?_⟩
    rw [lineage?, hs]
    exact hi

/-- From names that have their superclasses among themselves no other name is met. -/
theorem lineage?_mem {names : List String}
    (hup : ∀ x ∈ names, ∀ s, env.superclassOf? x = some s → s ∈ names) {i : Nat} {x c : String}
    (hx : x ∈ names) (hc : env.lineage? i x = some c) : c ∈ names := by
  induction i generalizing x with
  | zero => rwa [← Option.some.inj hc]
  | succ i ih =>
    obtain ⟨s, hs, hc⟩ := Option.bind_eq_some_iff.mp hc
    exact ih (hup x hx s hs) hc

/-- If the names passed are not the ancestor and each has its superclass among them and the next one,
a run that does not meet the ancestor ends in names where it is not met at all. -/
theorem Ascent.misses {seen : List String} {name : String} {answer : Bool}
    (h : env.Ascent ancestor seen name answer) (ha : answer = false) (hmet : ancestor ∉ seen)
    (hup : ∀ x ∈ seen, ∀ s, env.superclassOf? x = some s → s ∈ name :: seen)
    {x : String} (hx : x ∈ name :: seen) (i : Nat) : env.lineage? i x ≠ some ancestor := by
  induction h generalizing x with
  | @again seen name hagain =>
    have hsame : ∀ y, y ∈ name :: seen → y ∈ seen := fun y hy =>
      (List.mem_cons.mp hy).elim (fun heq => heq ▸ hagain) id
    exact fun hc => hmet (lineage?_mem (fun y hy s hs => hsame s (hup y hy s hs)) (hsame x hx) hc)
  | met => cases ha
  | @top seen name _ hne htop =>
    have hclosed : ∀ y ∈ name :: seen, ∀ s, env.superclassOf? y = some s → s ∈ name :: seen := by
      intro y hy s hs
      rcases List.mem_cons.mp hy with rfl | hy
      · cases htop.symm.trans hs
      · exact hup y hy s hs
    intro hc
    rcases List.mem_cons.mp (lineage?_mem hclosed hx hc) with heq | hin
    · exact hne heq.symm
    · exact hmet hin
  | @next seen name s _ _ hne hs _ ih =>
    refine ih ha ?_ ?_ (List.mem_cons_of_mem s hx)
    · exact fun hin => (List.mem_cons.mp hin).elim (fun heq => hne heq.symm) hmet
    · intro y hy t ht
      rcases List.mem_cons.mp hy with rfl | hy
      · obtain rfl := Option.some.inj (hs.symm.trans ht)
        exact List.mem_cons_self
      · exact List.mem_cons_of_mem s (hup y hy t ht)

theorem isSubclass_iff {name ancestor : String} :
    env.isSubclass name ancestor = true ↔ ∃ i, env.lineage? i name = some ancestor := by
  constructor
  · exact (ascent_isSubclass name ancestor).sound
  · rintro ⟨i, hi⟩
    by_contra hne
    exact (ascent_isSubclass name ancestor).misses (Bool.eq_false_iff.mpr hne) List.not_mem_nil
      (fun x hx => absurd hx List.not_mem_nil) List.mem_cons_self i hi

theorem isSubclass_refl (name : String) : env.isSubclass name name = true :=
  isSubclass_iff.mpr ⟨0, rfl⟩

theorem isSubclass_trans {a b c : String} (hab : env.isSubclass a b = true)
    (hbc : env.isSubclass b c = true) : env.isSubclass a c = true := by
  obtain ⟨i, hi⟩ := isSubclass_iff.mp hab
  obtain ⟨j, hj⟩ := isSubclass_iff.mp hbc
  refine isSubclass_iff.mpr ⟨i + j, ?_⟩
  rw [lineage?_add, hi]
  exact hj

/-! ## Cycles -/

/-- The superclass of a name, and the name itself where it has none. -/
def up (env : Environment) (name : String) : String := (env.superclassOf? name).getD name

theorem iterate_up {i : Nat} {name c : String} (h : env.lineage? i name = some c) :
    env.up^[i] name = c := by
  induction i generalizing name with
  | zero => exact Option.some.inj h
  | succ i ih =>
    obtain ⟨s, hs, hc⟩ := Option.bind_eq_some_iff.mp h
    have hup : env.up name = s := by rw [up, hs, Option.getD_some]
    rw [Function.iterate_succ_apply, hup]
    exact ih hc

/-- A name that comes again above itself has superclasses at every height. -/
theorem lineage?_iterate_up {k : Nat} {name : String} (hk : 0 < k)
    (h : env.lineage? k name = some name) (i : Nat) :
    env.lineage? i name = some (env.up^[i] name) := by
  obtain ⟨c, hc⟩ := exists_lineage?_of_le (lineage?_repeat h i) (Nat.le_mul_of_pos_right i hk)
  rw [hc, iterate_up hc]

/-- Names that are each above the other are on one cycle of superclasses. -/
theorem exists_cycle {a b : String} {i j : Nat} (hj : 0 < j) (hb : env.lineage? i a = some b)
    (ha : env.lineage? j b = some a) :
    ∃ cycle : Cycle String, cycle.Nodup ∧
      cycle.Chain (fun x s => env.superclassOf? x = some s) ∧ a ∈ cycle ∧ b ∈ cycle := by
  have hround : env.lineage? (i + j) a = some a := by
    rw [lineage?_add, hb]
    exact ha
  have hpos : 0 < i + j := Nat.add_pos_right i hj
  have hperiodic : a ∈ Function.periodicPts env.up := ⟨i + j, hpos, iterate_up hround⟩
  refine ⟨Function.periodicOrbit env.up a, Function.nodup_periodicOrbit, ?_,
    Function.self_mem_periodicOrbit hperiodic,
    (Function.mem_periodicOrbit_iff hperiodic).mpr ⟨i, iterate_up hb⟩⟩
  refine (Function.periodicOrbit_chain' _ hperiodic).mpr fun n => ?_
  rw [← lineage?_succ (lineage?_iterate_up hpos hround n)]
  exact lineage?_iterate_up hpos hround (n + 1)

/-- On a cycle of superclasses each name is a subclass of each. -/
theorem isSubclass_of_cycle {cycle : Cycle String}
    (h : cycle.Chain fun x s => env.superclassOf? x = some s) {a b : String} (ha : a ∈ cycle)
    (hb : b ∈ cycle) : env.isSubclass a b = true := by
  have : IsTrans String fun x y => env.isSubclass x y = true := ⟨fun _ _ _ => isSubclass_trans⟩
  have hstep : ∀ x s, env.superclassOf? x = some s → env.isSubclass x s = true := by
    intro x s hs
    refine isSubclass_iff.mpr ⟨1, ?_⟩
    rw [lineage?, hs]
    rfl
  exact Cycle.chain_iff_pairwise.mp (h.imp hstep) a ha b hb

/-! ## Top theorem -/

/-- **Being a subclass is being below on the chain of superclasses.**  In every environment, with
cycles of superclasses or without, the walk up ends, and its answer is whether the ancestor is some
number of superclasses up.  Every name is a subclass of itself, subclasses of subclasses are
subclasses, and two names are subclasses of each other exactly if one cycle of superclasses has both. -/
theorem isSubclass_reachability (env : Environment) :
    (∀ name ancestor, env.Ascent ancestor [] name (env.isSubclass name ancestor)) ∧
    (∀ name ancestor, env.isSubclass name ancestor = true ↔
      ∃ i, env.lineage? i name = some ancestor) ∧
    (∀ name, env.isSubclass name name = true) ∧
    (∀ a b c, env.isSubclass a b = true → env.isSubclass b c = true → env.isSubclass a c = true) ∧
    (∀ a b, a ≠ b → (env.isSubclass a b = true ∧ env.isSubclass b a = true ↔
      ∃ cycle : Cycle String, cycle.Nodup ∧
        cycle.Chain (fun x s => env.superclassOf? x = some s) ∧ a ∈ cycle ∧ b ∈ cycle)) := by
  refine ⟨ascent_isSubclass, fun _ _ => isSubclass_iff, isSubclass_refl,
    fun _ _ _ => isSubclass_trans, fun a b hne => ⟨?_, ?_⟩⟩
  · rintro ⟨hab, hba⟩
    obtain ⟨i, hi⟩ := isSubclass_iff.mp hab
    obtain ⟨j, hj⟩ := isSubclass_iff.mp hba
    refine exists_cycle (Nat.pos_of_ne_zero ?_) hi hj
    rintro rfl
    exact hne (Option.some.inj hj).symm
  · rintro ⟨cycle, -, hchain, ha, hb⟩
    exact ⟨isSubclass_of_cycle hchain ha hb, isSubclass_of_cycle hchain hb ha⟩

/-- Two classes of one text that are subclasses of each other, and a third that is below both. -/
theorem isSubclass_reachability_mutual :
    ∃ env ds, addSignature { marker := ⟨"siggen:", by decide⟩ }
        "class A < B\nend\nclass B < A\nend\nclass C < A\nend\n" = .ok (env, ds) ∧
      (∃ cycle : Cycle String, cycle.Nodup ∧
        cycle.Chain (fun x s => env.superclassOf? x = some s) ∧ "A" ∈ cycle ∧ "B" ∈ cycle) ∧
      env.isSubclass "C" "B" = true ∧ env.isSubclass "A" "C" = false := by
  obtain ⟨env, ds, hadd, hab, hba, hcb, hac⟩ := exists_added
    "class A < B\nend\nclass B < A\nend\nclass C < A\nend\n"
    (P := fun env => env.isSubclass "A" "B" = true ∧ env.isSubclass "B" "A" = true ∧
      env.isSubclass "C" "B" = true ∧ env.isSubclass "A" "C" = false) (by decide +kernel)
  exact ⟨env, ds, hadd, ((isSubclass_reachability env).2.2.2.2 "A" "B" (by decide)).mp ⟨hab, hba⟩,
    hcb, hac⟩

end RbsSynth.Environment
