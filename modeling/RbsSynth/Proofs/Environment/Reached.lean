import RbsSynth.Proofs.Environment.Kinds
import RbsSynth.Proofs.Environment.Mixins

/-!
# Which modules are ancestors

`env.lineage? i name` is the `i`-th superclass of a name.  The ancestors of its instances are walked
class by class; before the class at position `i` the list holds exactly what is mixed into the classes
before it (`Stage`), which one walk keeps (`Stage.next`) and so the whole chain does (`exists_stage`).
Where positions and paths stay within the depth limit,

    ⟨m, instance⟩ ∈ env.ancestors name instance ↔ env.hasModule m ∧ env.Reaches name m (mem_ancestors_iff)

The bound excludes cycles, as going round one gives paths of every length.  A class comes before its
superclass unless that is itself mixed in earlier, which takes a superclass that is a module.
-/

namespace RbsSynth.Environment

open Relation (ReflTransGen TransGen)

/-- The superclass of a name that is `i` steps up; 0 steps up is the name itself. -/
def lineage? (env : Environment) : Nat → String → Option String
  | 0, name => some name
  | i + 1, name => (env.superclassOf? name).bind (env.lineage? i)

/-- The module `m` is mixed into `name`, one of its superclasses or, for a module, `Object`. -/
def Reaches (env : Environment) (name m : String) : Prop :=
  (∃ i c, env.lineage? i name = some c ∧ env.Mixed c m) ∨
    (env.kindOf? name = some .ofModule ∧ env.Mixed "Object" m)

/-- The position of a class on the chain and the length of a path from it to a module stay within the
depth limit together; the `Object` of a module has position 1. -/
structure WithinDepth (env : Environment) (name : String) : Prop where
  chain : ∀ {i k : Nat} {c m : String}, env.lineage? i name = some c → env.MixesIn k c m →
    env.hasModule m = true → i + k ≤ depthLimit
  object : env.kindOf? name = some .ofModule → ∀ {k : Nat} {m : String},
    env.MixesIn k "Object" m → env.hasModule m = true → 1 + k ≤ depthLimit

/-- Whatever is mixed in from `name` on is a module. -/
def MixesModules (env : Environment) (name : String) : Prop :=
  ∀ x m, env.Reaches name x → env.Mixes x m → env.hasModule m = true →
    env.kindOf? m = some .ofModule

variable {env : Environment}

/-! ## The chain of superclasses -/

theorem lineage?_add (i j : Nat) (name : String) :
    env.lineage? (i + j) name = (env.lineage? i name).bind (env.lineage? j) := by
  induction i generalizing name with
  | zero => rw [Nat.zero_add]; rfl
  | succ i ih =>
    rw [Nat.succ_add, lineage?, lineage?, Option.bind_assoc]
    exact congrArg _ (funext ih)

theorem lineage?_succ {i : Nat} {name c : String} (h : env.lineage? i name = some c) :
    env.lineage? (i + 1) name = env.superclassOf? c := by
  rw [lineage?_add, h]
  show (env.superclassOf? c).bind some = _
  exact Option.bind_fun_some _

/-- A chain that has a position has those before it. -/
theorem exists_lineage?_of_le {i j : Nat} {name c : String} (h : env.lineage? j name = some c)
    (hij : i ≤ j) : ∃ b, env.lineage? i name = some b := by
  obtain ⟨k, rfl⟩ := Nat.exists_eq_add_of_le hij
  rw [lineage?_add] at h
  obtain ⟨b, hb, _⟩ := Option.bind_eq_some_iff.mp h
  exact ⟨b, hb⟩

theorem lineage?_repeat {k : Nat} {c : String} (h : env.lineage? k c = some c) (n : Nat) :
    env.lineage? (n * k) c = some c := by
  induction n with
  | zero => rw [Nat.zero_mul]; rfl
  | succ n ih => rw [Nat.succ_mul, lineage?_add, ih, Option.bind_some, h]

/-- An unknown name has no superclass. -/
theorem eq_of_lineage? {i : Nat} {name c : String} (h : env.entry? name = none)
    (hc : env.lineage? i name = some c) : c = name := by
  cases i with
  | zero => exact (Option.some.inj hc).symm
  | succ i =>
    rw [lineage?, superclassOf?, h] at hc
    cases hc

/-- Within the depth limit no class is its own superclass, however far up. -/
theorem WithinDepth.apart {name c : String} (h : env.WithinDepth name) (hc : env.hasModule c = true)
    {i j : Nat} (hi : env.lineage? i name = some c) (hj : env.lineage? j name = some c) : i = j := by
  have hle : ∀ {i j : Nat}, env.lineage? i name = some c → env.lineage? j name = some c →
      ¬ i < j := by
    intro i j hi hj hij
    obtain ⟨k, rfl⟩ := Nat.exists_eq_add_of_lt hij
    rw [Nat.add_assoc, lineage?_add, hi, Option.bind_some] at hj
    have hfar : env.lineage? (i + (depthLimit + 1) * (k + 1)) name = some c := by
      rw [lineage?_add, hi, Option.bind_some, lineage?_repeat hj]
    have hbound := h.chain hfar (.none c) hc
    have hlong : depthLimit + 1 ≤ (depthLimit + 1) * (k + 1) :=
      Nat.le_mul_of_pos_right _ (Nat.succ_pos k)
    omega
  exact Nat.le_antisymm (Nat.not_lt.mp (hle hj hi)) (Nat.not_lt.mp (hle hi hj))

/-- A name with a superclass is a class. -/
theorem class_of_superclassOf? {c s : String} (h : env.superclassOf? c = some s) :
    env.hasModule c = true ∧ env.kindOf? c = some .ofClass := by
  unfold superclassOf? at h
  cases he : env.entry? c with
  | none =>
    rw [he] at h
    cases h
  | some e =>
    rw [he] at h
    dsimp only at h
    split at h
    · cases h
    · next hkind =>
      have hclass : e.kind = .ofClass := by
        apply Decidable.byContradiction
        intro hne
        exact hkind (by simp [hne])
      refine ⟨hasModule_of_entry he, ?_⟩
      show (env.entry? c).map (·.kind) = _
      rw [he]
      exact congrArg some hclass

theorem Reaches.mixed {name m y : String} (h : env.Reaches name m) (hm : env.Mixed m y) :
    env.Reaches name y := by
  rcases h with ⟨i, c, hc, hcm⟩ | ⟨hkind, hom⟩
  · exact .inl ⟨i, c, hc, hcm.trans hm⟩
  · exact .inr ⟨hkind, hom.trans hm⟩

/-! ## The walk up the chain -/

/-- What each walk from a class of the chain keeps, the whole chain keeps. -/
theorem addChain_keeps {Q : List Ancestor → Prop} {name : String}
    (side : ∀ i c, env.lineage? i name = some c → ∀ n found, Q found → Q (env.addSide n c found))
    (n : Nat) {found : List Ancestor} (h : Q found) : Q (env.addChain n (some name) found) := by
  induction n generalizing name found with
  | zero => exact h
  | succ n ih =>
    rw [addChain]
    have hside : Q (env.addSide (n + 1) name found) := side 0 name rfl (n + 1) found h
    cases hs : env.superclassOf? name with
    | none => cases n <;> exact hside
    | some s =>
      refine ih (fun i c hc => side (i + 1) c ?_) hside
      rw [lineage?, hs]
      exact hc

theorem prefix_addChain (n : Nat) (name : Option String) (found : List Ancestor) :
    found <+: env.addChain n name found := by
  cases name with
  | none => cases n <;> exact List.prefix_refl found
  | some name =>
    exact addChain_keeps (Q := (found <+: ·)) (fun _ c _ n l h => h.trans (prefix_addSide n c l)) n
      (List.prefix_refl found)

theorem mem_addChain {n : Nat} {name : String} {a : Ancestor}
    (h : a ∈ env.addChain n (some name) []) :
    ∃ m, a = ⟨m, .ofInstance⟩ ∧ env.hasModule m = true ∧
      ∃ i c, env.lineage? i name = some c ∧ env.Mixed c m := by
  refine addChain_keeps (Q := fun l => ∀ a ∈ l, ∃ m, a = ⟨m, .ofInstance⟩ ∧
    env.hasModule m = true ∧ ∃ i c, env.lineage? i name = some c ∧ env.Mixed c m) ?_ n
    (fun a ha => absurd ha List.not_mem_nil) a h
  intro i c hc n l hl a ha
  rcases mem_addSide ha with ha | ⟨m, hm, hmodule, hmixed⟩
  · exact hl a ha
  · exact ⟨m, hm, hmodule, i, c, hc, hmixed⟩

/-- What is listed before the class at position `i` has its turn: the modules mixed into the classes
before it. -/
structure Stage (env : Environment) (name : String) (i : Nat) (found : List Ancestor) : Prop where
  sound : ∀ a ∈ found, ∃ m, a = ⟨m, .ofInstance⟩ ∧ ∃ j < i, ∃ c,
    env.lineage? j name = some c ∧ env.Mixed c m
  complete : ∀ j < i, ∀ c, env.lineage? j name = some c → env.Lists c found

theorem Stage.start (name : String) : env.Stage name 0 [] where
  sound _ ha := absurd ha List.not_mem_nil
  complete _ hj := absurd hj (Nat.not_lt_zero _)

theorem Stage.settled {name : String} {i : Nat} {found : List Ancestor} (h : env.Stage name i found)
    (x : String) : env.Settled x found := by
  intro y _ hin
  obtain ⟨m, hm, j, hj, c, hc, hmixed⟩ := h.sound _ hin
  obtain rfl : y = m := congrArg Ancestor.name hm
  exact (h.complete j hj c hc).of_mixed hmixed

/-- The step: one more class has its turn. -/
theorem Stage.next {name c : String} {i n : Nat} {found : List Ancestor}
    (h : env.Stage name i found) (hc : env.lineage? i name = some c)
    (hn : ∀ k m, env.MixesIn k c m → env.hasModule m = true → k < n) :
    env.Stage name (i + 1) (env.addSide n c found) where
  sound a ha := by
    rcases mem_addSide ha with ha | ⟨m, hm, _, hmixed⟩
    · obtain ⟨m, hm, j, hj, hmixed⟩ := h.sound a ha
      exact ⟨m, hm, j, Nat.lt_succ_of_lt hj, hmixed⟩
    · exact ⟨m, hm, i, Nat.lt_succ_self i, c, hc, hmixed⟩
  complete j hj b hb := by
    rcases Nat.lt_succ_iff_lt_or_eq.mp hj with hj | rfl
    · exact (h.complete j hj b hb).mono (prefix_addSide n c found).subset
    · obtain rfl : b = c := Option.some.inj (hb.symm.trans hc)
      exact lists_addSide hn (h.settled b)

/-- The run: each class of the chain has its turn at its stage. -/
theorem exists_stage {name : String} {n i : Nat} {found : List Ancestor}
    (h : env.Stage name i found)
    (hn : ∀ j k c m, env.lineage? j name = some c → env.MixesIn k c m → env.hasModule m = true →
      j + k < i + n) {j : Nat} {c : String} (hc : env.lineage? j name = some c) (hij : i ≤ j)
    (hj : j < i + n) :
    ∃ before, env.Stage name j before ∧
      env.addSide (i + n - j) c before <+: env.addChain n (env.lineage? i name) found := by
  induction n generalizing i found with
  | zero => exact absurd hij (Nat.not_le.mpr hj)
  | succ n ih =>
    obtain ⟨b, hb⟩ := exists_lineage?_of_le hc hij
    rw [hb, addChain, ← lineage?_succ hb]
    rcases Nat.eq_or_lt_of_le hij with rfl | hij
    · obtain rfl : c = b := Option.some.inj (hc.symm.trans hb)
      refine ⟨found, h, ?_⟩
      rw [Nat.add_sub_cancel_left]
      exact prefix_addChain n _ _
    · have hlevels : i + (n + 1) = i + 1 + n := by omega
      rw [hlevels] at hn hj ⊢
      refine ih (h.next hb fun k m hk hm => ?_) hn hij hj
      have := hn i k b m hb hk hm
      omega

/-! ## Ancestors -/

theorem ancestors_of_none {name : String} (h : env.entry? name = none) (side : Side) :
    env.ancestors name side = [] := by
  rw [ancestors, h]

theorem ancestors_instance {name : String} {e : ModuleEntry} (h : env.entry? name = some e) :
    env.ancestors name .ofInstance = if env.kindOf? name = some .ofModule
      then env.addSide depthLimit "Object" (env.addChain (depthLimit + 1) (some name) [])
      else env.addChain (depthLimit + 1) (some name) [] := by
  have hkind : env.kindOf? name = some e.kind := congrArg (Option.map _) h
  rw [ancestors, h, hkind]
  by_cases hm : e.kind = .ofModule
  · rw [if_pos (congrArg some hm)]
    exact if_pos hm
  · rw [if_neg fun he => hm (Option.some.inj he)]
    exact if_neg hm

theorem ancestors_singleton {name : String} {e : ModuleEntry} (h : env.entry? name = some e) :
    env.ancestors name .ofSingleton =
      env.addChain (env.addSingletons (depthLimit + 1) (some name) []).2
        (some (if e.kind = .ofModule then "Module" else "Class"))
        (env.addSingletons (depthLimit + 1) (some name) []).1 := by
  rw [ancestors, h]

theorem addSingletons_keeps {Q : List Ancestor → Prop}
    (side : ∀ n x found, Q found → Q (env.addSide n x found))
    (single : ∀ x found, env.hasModule x = true → ⟨x, .ofSingleton⟩ ∉ found → Q found →
      Q (found ++ [⟨x, .ofSingleton⟩]))
    (n : Nat) (name : Option String) {found : List Ancestor} (h : Q found) :
    Q (env.addSingletons n name found).1 := by
  induction n generalizing name found with
  | zero => exact h
  | succ n ih =>
    cases name with
    | none => exact h
    | some x =>
      rw [addSingletons]
      cases he : env.entry? x with
      | none => exact h
      | some e =>
        dsimp only
        split
        · exact h
        · next hin =>
          refine ih _ (addSides_keeps (fun m _ => side n m) ?_)
          exact single x found (hasModule_of_entry he) (fun hx => hin (List.contains_iff_mem.mpr hx)) h

/-- On both sides, the list is made by walks along mixins and by singleton sides that are new. -/
theorem ancestors_keeps {Q : List Ancestor → Prop} (nil : Q [])
    (side : ∀ n x found, Q found → Q (env.addSide n x found))
    (single : ∀ x found, env.hasModule x = true → ⟨x, .ofSingleton⟩ ∉ found → Q found →
      Q (found ++ [⟨x, .ofSingleton⟩]))
    (name : String) (s : Side) : Q (env.ancestors name s) := by
  have chain : ∀ n x found, Q found → Q (env.addChain n (some x) found) := fun n x found hq =>
    addChain_keeps (fun _ c _ n found => side n c found) n hq
  cases he : env.entry? name with
  | none =>
    rw [ancestors_of_none he]
    exact nil
  | some e =>
    cases s with
    | ofInstance =>
      rw [ancestors_instance he]
      split
      · exact side _ _ _ (chain _ _ _ nil)
      · exact chain _ _ _ nil
    | ofSingleton =>
      rw [ancestors_singleton he]
      exact chain _ _ _ (addSingletons_keeps side single _ _ nil)

/-- Every ancestor is a class, a module or an interface. -/
theorem hasModule_of_mem_ancestors {name : String} {s : Side} {a : Ancestor}
    (h : a ∈ env.ancestors name s) : env.hasModule a.name = true := by
  refine ancestors_keeps (Q := fun l => ∀ a ∈ l, env.hasModule a.name = true)
    (fun a ha => absurd ha List.not_mem_nil) (fun n x found hl a ha => ?_)
    (fun x found hx _ hl a ha => ?_) name s a h
  · rcases mem_addSide ha with ha | ⟨m, rfl, hm, _⟩
    · exact hl a ha
    · exact hm
  · rcases List.mem_append.mp ha with ha | ha
    · exact hl a ha
    · rw [List.mem_singleton.mp ha]
      exact hx

theorem prefix_ancestors {name : String} {e : ModuleEntry} (h : env.entry? name = some e) :
    env.addChain (depthLimit + 1) (some name) [] <+: env.ancestors name .ofInstance := by
  rw [ancestors_instance h]
  split
  · exact prefix_addSide _ _ _
  · exact List.prefix_refl _

/-- Ancestors of instances are instance sides of modules that are reached. -/
theorem mem_ancestors {name : String} {a : Ancestor} (h : a ∈ env.ancestors name .ofInstance) :
    ∃ m, a = ⟨m, .ofInstance⟩ ∧ env.hasModule m = true ∧ env.Reaches name m := by
  cases he : env.entry? name with
  | none =>
    rw [ancestors_of_none he] at h
    exact absurd h List.not_mem_nil
  | some e =>
    rw [ancestors_instance he] at h
    have chain : a ∈ env.addChain (depthLimit + 1) (some name) [] →
        ∃ m, a = ⟨m, .ofInstance⟩ ∧ env.hasModule m = true ∧ env.Reaches name m := by
      intro ha
      obtain ⟨m, hm, hmodule, hreached⟩ := mem_addChain ha
      exact ⟨m, hm, hmodule, .inl hreached⟩
    split at h
    · next hkind =>
      rcases mem_addSide h with ha | ⟨m, hm, hmodule, hmixed⟩
      · exact chain ha
      · exact ⟨m, hm, hmodule, .inr ⟨hkind, hmixed⟩⟩
    · exact chain h

/-- Everything mixed into a class of the chain is listed. -/
theorem WithinDepth.lists {name : String} (h : env.WithinDepth name) {i : Nat} {c : String}
    (hc : env.lineage? i name = some c) :
    env.Lists c (env.addChain (depthLimit + 1) (some name) []) := by
  have hn : ∀ j k c m, env.lineage? j name = some c → env.MixesIn k c m → env.hasModule m = true →
      j + k < 0 + (depthLimit + 1) := by
    intro j k c m hc hk hm
    have := h.chain hc hk hm
    omega
  intro m hm hmodule
  obtain ⟨k, hk⟩ := exists_mixesIn hm
  have hi := hn i k c m hc hk hmodule
  obtain ⟨before, hstage, hprefix⟩ := exists_stage (.start name) hn hc (Nat.zero_le i) (by omega)
  refine hprefix.subset (lists_addSide (fun k m hk hm => ?_) (hstage.settled c) m hm hmodule)
  have := hn i k c m hc hk hm
  omega

/-- **Ancestors are the modules reached**, for every name within the depth limit. -/
theorem mem_ancestors_iff {name : String} (h : env.WithinDepth name) (m : String) :
    ⟨m, .ofInstance⟩ ∈ env.ancestors name .ofInstance
      ↔ env.hasModule m = true ∧ env.Reaches name m := by
  constructor
  · intro hin
    obtain ⟨y, hy, hreached⟩ := mem_ancestors hin
    obtain rfl : m = y := congrArg Ancestor.name hy
    exact hreached
  · rintro ⟨hmodule, hreached⟩
    cases he : env.entry? name with
    | none =>
      have hkind : env.kindOf? name = none := congrArg (Option.map _) he
      rcases hreached with ⟨i, c, hc, hm⟩ | ⟨hmod, _⟩
      · obtain rfl := eq_of_lineage? he hc
        obtain ⟨e, hm'⟩ := exists_entry (eq_of_mixed he hm ▸ hmodule)
        cases he.symm.trans hm'
      · cases hkind.symm.trans hmod
    | some e =>
      rw [ancestors_instance he]
      rcases hreached with ⟨i, c, hc, hm⟩ | ⟨hkind, hm⟩
      · have hin := h.lists hc m hm hmodule
        split
        · exact (prefix_addSide depthLimit "Object" _).subset hin
        · exact hin
      · rw [if_pos hkind]
        refine lists_addSide (fun k m hk hm => ?_) (fun y _ hin => ?_) m hm hmodule
        · have := h.object hkind hk hm
          omega
        · obtain ⟨x, hx, _, i, c, hc, hmixed⟩ := mem_addChain hin
          obtain rfl : y = x := congrArg Ancestor.name hx
          exact (h.lists hc).of_mixed hmixed

/-! ## Mixed-in modules -/

/-- What is mixed in, in zero or more steps, is the start itself or a module. -/
theorem MixesModules.eq_or_module {name x m : String} (h : env.MixesModules name)
    (hx : ∀ y, env.Mixed x y → env.Reaches name y) (hm : env.Mixed x m)
    (hmodule : env.hasModule m = true) : m = x ∨ env.kindOf? m = some .ofModule := by
  rcases ReflTransGen.cases_tail hm with rfl | ⟨y, hy, hym⟩
  · exact .inl rfl
  · exact .inr (h y m (hx y hy) hym hmodule)

/-- Whatever is mixed in anywhere is a module. -/
theorem mixesModules_of_modules (h : ∀ q ∈ env.modules,
    ∀ m ∈ env.prepended q.2 ++ env.included q.2, env.hasModule m = true →
      env.kindOf? m = some .ofModule) (name : String) : env.MixesModules name := by
  rintro x m _ ⟨e, he, hm⟩
  exact h (x, e) (mem_of_find? he) m (List.mem_append.mpr hm)

/-! ## Ranks -/

/-- Ranks go down along mixins and superclasses. -/
def Ranked (env : Environment) (rank : String → Nat) : Prop :=
  ∀ q ∈ env.modules, (∀ m ∈ env.prepended q.2 ++ env.included q.2, rank m < rank q.1) ∧
    ∀ s ∈ env.superclassOf? q.1, rank s < rank q.1

instance (env : Environment) (rank : String → Nat) : Decidable (env.Ranked rank) :=
  inferInstanceAs (Decidable (∀ q ∈ env.modules, _))

theorem Ranked.mixes {rank : String → Nat} (h : env.Ranked rank) {x m : String}
    (hm : env.Mixes x m) : rank m < rank x := by
  obtain ⟨e, he, hin⟩ := hm
  exact (h (x, e) (mem_of_find? he)).1 m (List.mem_append.mpr hin)

theorem Ranked.superclass {rank : String → Nat} (h : env.Ranked rank) {c s : String}
    (hs : env.superclassOf? c = some s) : rank s < rank c := by
  obtain ⟨e, he⟩ := exists_entry (class_of_superclassOf? hs).1
  exact (h (c, e) (mem_of_find? he)).2 s hs

/-- No way along mixins and superclasses leads back. -/
theorem Ranked.acyclic {rank : String → Nat} (h : env.Ranked rank) (x : String) :
    ¬ TransGen (fun x m => env.Mixes x m ∨ env.superclassOf? x = some m) x x := by
  have down : ∀ y, TransGen (fun x m => env.Mixes x m ∨ env.superclassOf? x = some m) x y →
      rank y < rank x := by
    intro y hy
    induction hy with
    | single hm => exact hm.elim h.mixes h.superclass
    | tail _ hm ih => exact Nat.lt_trans (hm.elim h.mixes h.superclass) ih
  exact fun hx => Nat.lt_irrefl _ (down x hx)

theorem Ranked.mixesIn {rank : String → Nat} (h : env.Ranked rank) {k : Nat} {x m : String}
    (hk : env.MixesIn k x m) : k + rank m ≤ rank x := by
  induction hk with
  | none x => exact Nat.le_of_eq (Nat.zero_add _)
  | more hm _ ih =>
    have := h.mixes hm
    omega

theorem Ranked.lineage {rank : String → Nat} (h : env.Ranked rank) {i : Nat} {name c : String}
    (hc : env.lineage? i name = some c) : i + rank c ≤ rank name := by
  induction i generalizing name with
  | zero =>
    obtain rfl := Option.some.inj hc
    exact Nat.le_of_eq (Nat.zero_add _)
  | succ i ih =>
    obtain ⟨s, hs, hc⟩ := Option.bind_eq_some_iff.mp hc
    have := h.superclass hs
    have := ih hc
    omega

/-- With small ranks a name is within the depth limit. -/
theorem Ranked.withinDepth {rank : String → Nat} (h : env.Ranked rank) {name : String}
    (hname : rank name ≤ depthLimit) (hobject : rank "Object" < depthLimit) :
    env.WithinDepth name where
  chain hc hk _ := by
    have := h.lineage hc
    have := h.mixesIn hk
    omega
  object _ _ _ hk _ := by
    have := h.mixesIn hk
    omega

/-- A text that is accepted, with something that can be checked of its environment. -/
theorem exists_added (text : String) {P : Environment → Prop} [DecidablePred P]
    (h : ((addSignature { marker := ⟨"siggen:", by decide⟩ } text).toOption.any
      fun p => decide (P p.1)) = true) :
    ∃ env ds, addSignature { marker := ⟨"siggen:", by decide⟩ } text = .ok (env, ds) ∧ P env := by
  cases ha : addSignature { marker := ⟨"siggen:", by decide⟩ } text with
  | error f =>
    rw [ha] at h
    cases h
  | ok p =>
    rw [ha] at h
    exact ⟨p.1, p.2, rfl, of_decide_eq_true h⟩

end RbsSynth.Environment
