import Mathlib.Logic.Relation
import RbsSynth.Environment.Ancestors

/-!
# Mixins and the walk along them

`env.Mixes x m` says that a name which `x` prepends or includes stands for `m`; `env.Mixed` is zero or
more such steps, and `env.MixesIn k` is `k` of them.  The walk `addSide` appends instance sides of
modules that are mixed into its start, and misses none of them if it has enough levels and what was
listed before was listed together with what is mixed into it (`Settled`):

    a ∈ addSide n x found → a ∈ found ∨ (∃ m, a = ⟨m, instance⟩ ∧ env.Mixed x m)       (mem_addSide)
    env.Mixed x m → ⟨m, instance⟩ ∈ addSide n x found                                  (lists_addSide)

A module is listed between its prepended and its included modules, so while these are walked the list
is not settled for the module itself; without cycles it is for all that is mixed into it.
-/

namespace RbsSynth.Environment

open Relation (ReflTransGen)

/-- A name that `x` prepends or includes stands for `m`. -/
def Mixes (env : Environment) (x m : String) : Prop :=
  ∃ e, env.entry? x = some e ∧ (m ∈ env.prepended e ∨ m ∈ env.included e)

/-- Zero or more mixins lead from `x` to `m`. -/
abbrev Mixed (env : Environment) : String → String → Prop := ReflTransGen env.Mixes

/-- `k` mixins lead from one module to another. -/
inductive MixesIn (env : Environment) : Nat → String → String → Prop
  | none (x : String) : MixesIn env 0 x x
  | more {k : Nat} {x y m : String} (h : env.Mixes x y) (hm : MixesIn env k y m) :
    MixesIn env (k + 1) x m

variable {env : Environment}

theorem MixesIn.mixed {k : Nat} {x m : String} (h : env.MixesIn k x m) : env.Mixed x m := by
  induction h with
  | none x => exact .refl
  | more h _ ih => exact .head h ih

theorem exists_mixesIn {x m : String} (h : env.Mixed x m) : ∃ k, env.MixesIn k x m := by
  induction h using ReflTransGen.head_induction_on with
  | refl => exact ⟨0, .none m⟩
  | head h _ ih =>
    obtain ⟨k, hk⟩ := ih
    exact ⟨k + 1, .more h hk⟩

theorem MixesIn.trans {j k : Nat} {x y m : String} (h : env.MixesIn j x y) (h' : env.MixesIn k y m) :
    env.MixesIn (j + k) x m := by
  induction h with
  | none x => rwa [Nat.zero_add]
  | more h _ ih =>
    rw [Nat.add_right_comm]
    exact .more h (ih h')

/-- Going round a cycle gives paths of every multiple of its length. -/
theorem MixesIn.repeat {k : Nat} {x : String} (h : env.MixesIn k x x) (n : Nat) :
    env.MixesIn (n * k) x x := by
  induction n with
  | zero =>
    rw [Nat.zero_mul]
    exact .none x
  | succ n ih =>
    rw [Nat.succ_mul]
    exact ih.trans h

/-- Where paths are bounded, nothing is mixed into itself. -/
theorem not_mixed_of_bounded {n : Nat} {x y : String} (hx : env.hasModule x = true)
    (hn : ∀ k m, env.MixesIn k x m → env.hasModule m = true → k < n) (h : env.Mixes x y) :
    ¬ env.Mixed y x := by
  intro hback
  obtain ⟨k, hk⟩ := exists_mixesIn hback
  have hlong := hn _ x ((MixesIn.more h hk).repeat n) hx
  exact absurd hlong (Nat.not_lt.mpr (Nat.le_mul_of_pos_right n (Nat.succ_pos k)))

/-- What is no class, module or interface mixes nothing in. -/
theorem eq_of_mixed {x m : String} (hx : env.entry? x = none) (h : env.Mixed x m) : m = x := by
  rcases ReflTransGen.cases_head h with h | ⟨y, ⟨e, he, _⟩, _⟩
  · exact h.symm
  · exact absurd (he.symm.trans hx) (by simp)

theorem hasModule_of_entry {x : String} {e : ModuleEntry} (h : env.entry? x = some e) :
    env.hasModule x = true :=
  Option.isSome_of_mem h

theorem exists_entry {x : String} (h : env.hasModule x = true) : ∃ e, env.entry? x = some e :=
  Option.isSome_iff_exists.mp h

/-- Where something is mixed in that is declared, the start is declared. -/
theorem hasModule_of_mixed {x m : String} (h : env.Mixed x m) (hm : env.hasModule m = true) :
    env.hasModule x = true := by
  cases hx : env.entry? x with
  | some e => exact hasModule_of_entry hx
  | none => rwa [eq_of_mixed hx h] at hm

/-! ## One walk -/

/-- The instance sides of some modules, one after another. -/
def addSides (env : Environment) (n : Nat) (ms : List String) (found : List Ancestor) :
    List Ancestor :=
  ms.foldl (fun found m => env.addSide n m found) found

theorem addSide_of_none {x : String} (h : env.entry? x = none) (n : Nat) (found : List Ancestor) :
    env.addSide n x found = found := by
  cases n with
  | zero => rfl
  | succ n => rw [addSide, h]

theorem addSide_of_mem {x : String} {found : List Ancestor} (h : ⟨x, .ofInstance⟩ ∈ found) (n : Nat) :
    env.addSide n x found = found := by
  cases n with
  | zero => rfl
  | succ n =>
    rw [addSide]
    split
    · rfl
    · rw [if_pos (List.contains_iff_mem.mpr h)]

theorem addSide_of_new {x : String} {e : ModuleEntry} {found : List Ancestor}
    (he : env.entry? x = some e) (h : ⟨x, .ofInstance⟩ ∉ found) (n : Nat) :
    env.addSide (n + 1) x found = env.addSides n (env.included e)
      (env.addSides n (env.prepended e) found ++ [⟨x, .ofInstance⟩]) := by
  rw [addSide, he]
  dsimp only
  rw [if_neg fun hin => h (List.contains_iff_mem.mp hin)]
  rfl

theorem addSides_keeps {Q : List Ancestor → Prop} {n : Nat} {ms : List String}
    {found : List Ancestor}
    (step : ∀ m ∈ ms, ∀ found, Q found → Q (env.addSide n m found)) (h : Q found) :
    Q (env.addSides n ms found) :=
  List.foldlRecOn ms _ h fun found hq m hm => step m hm found hq

/-- The walk appends instance sides of modules that are mixed into its start, and keeps what that
keeps. -/
theorem addSide_keeps {Q : List Ancestor → Prop} {x : String}
    (step : ∀ found m, env.Mixed x m → env.hasModule m = true → Q found →
      Q (found ++ [⟨m, .ofInstance⟩]))
    (n : Nat) {found : List Ancestor} (h : Q found) : Q (env.addSide n x found) := by
  induction n generalizing x found with
  | zero => exact h
  | succ n ih =>
    cases he : env.entry? x with
    | none => rwa [addSide_of_none he]
    | some e =>
      by_cases hin : ⟨x, .ofInstance⟩ ∈ found
      · rwa [addSide_of_mem hin]
      · rw [addSide_of_new he hin]
        have side : ∀ m, env.Mixes x m → ∀ found, Q found → Q (env.addSide n m found) :=
          fun m hm found hq => ih (fun found y hy => step found y (.head hm hy)) hq
        have prepends : Q (env.addSides n (env.prepended e) found) :=
          addSides_keeps (fun m hm => side m ⟨e, he, .inl hm⟩) h
        exact addSides_keeps (fun m hm => side m ⟨e, he, .inr hm⟩)
          (step _ x .refl (hasModule_of_entry he) prepends)

theorem prefix_addSide (n : Nat) (x : String) (found : List Ancestor) :
    found <+: env.addSide n x found :=
  addSide_keeps (Q := (found <+: ·)) (fun _ _ _ _ h => h.trans (List.prefix_append _ _)) n
    (List.prefix_refl found)

theorem prefix_addSides (n : Nat) (ms : List String) (found : List Ancestor) :
    found <+: env.addSides n ms found :=
  addSides_keeps (Q := (found <+: ·)) (fun m _ l h => h.trans (prefix_addSide n m l))
    (List.prefix_refl found)

theorem mem_addSide_self {x : String} (h : env.hasModule x = true) (n : Nat) (found : List Ancestor) :
    ⟨x, .ofInstance⟩ ∈ env.addSide (n + 1) x found := by
  obtain ⟨e, he⟩ := exists_entry h
  by_cases hin : ⟨x, .ofInstance⟩ ∈ found
  · rwa [addSide_of_mem hin]
  · rw [addSide_of_new he hin]
    exact (prefix_addSides n _ _).subset (List.mem_append_right _ List.mem_cons_self)

/-- What the walk lists was listed before, or is mixed into its start. -/
theorem mem_addSide {n : Nat} {x : String} {found : List Ancestor} {a : Ancestor}
    (h : a ∈ env.addSide n x found) :
    a ∈ found ∨ ∃ m, a = ⟨m, .ofInstance⟩ ∧ env.hasModule m = true ∧ env.Mixed x m := by
  refine addSide_keeps (Q := fun l => ∀ a ∈ l, a ∈ found ∨
    ∃ m, a = ⟨m, .ofInstance⟩ ∧ env.hasModule m = true ∧ env.Mixed x m) ?_ n (fun a ha => .inl ha) a h
  intro l m hm hmodule hl a ha
  rcases List.mem_append.mp ha with ha | ha
  · exact hl a ha
  · exact .inr ⟨m, List.mem_singleton.mp ha, hmodule, hm⟩

theorem mem_addSides {n : Nat} {ms : List String} {found : List Ancestor} {a : Ancestor}
    (h : a ∈ env.addSides n ms found) :
    a ∈ found ∨ ∃ c ∈ ms, ∃ m, a = ⟨m, .ofInstance⟩ ∧ env.hasModule m = true ∧ env.Mixed c m := by
  refine addSides_keeps (Q := fun l => ∀ a ∈ l, a ∈ found ∨ ∃ c ∈ ms, ∃ m, a = ⟨m, .ofInstance⟩ ∧
    env.hasModule m = true ∧ env.Mixed c m) ?_ (fun a ha => .inl ha) a h
  intro c hc l hl a ha
  rcases mem_addSide ha with ha | hnew
  · exact hl a ha
  · exact .inr ⟨c, hc, hnew⟩

/-! ## Nothing is missed -/

/-- Everything mixed into `x` that is a module is listed. -/
def Lists (env : Environment) (x : String) (found : List Ancestor) : Prop :=
  ∀ m, env.Mixed x m → env.hasModule m = true → ⟨m, .ofInstance⟩ ∈ found

/-- What is mixed into `x` is listed only together with everything mixed into it. -/
def Settled (env : Environment) (x : String) (found : List Ancestor) : Prop :=
  ∀ y, env.Mixed x y → ⟨y, .ofInstance⟩ ∈ found → env.Lists y found

theorem Lists.mono {x : String} {found found' : List Ancestor} (h : env.Lists x found)
    (hsub : found ⊆ found') : env.Lists x found' :=
  fun m hm hmodule => hsub (h m hm hmodule)

theorem Lists.of_mixed {x y : String} {found : List Ancestor} (h : env.Lists x found)
    (hy : env.Mixed x y) : env.Lists y found :=
  fun m hm => h m (hy.trans hm)

theorem Settled.of_mixed {x y : String} {found : List Ancestor} (h : env.Settled x found)
    (hy : env.Mixed x y) : env.Settled y found :=
  fun z hz => h z (hy.trans hz)

/-- Listing a module unsettles nothing for what it is not mixed into. -/
theorem Settled.append_self {x c : String} {found : List Ancestor} (h : env.Settled c found)
    (hx : ¬ env.Mixed c x) : env.Settled c (found ++ [⟨x, .ofInstance⟩]) := by
  intro y hy hin
  rcases List.mem_append.mp hin with hin | hin
  · exact (h y hy hin).mono (List.subset_append_left _ _)
  · obtain rfl : y = x := congrArg Ancestor.name (List.mem_singleton.mp hin)
    exact absurd hy hx

/-- A walk that misses nothing leaves the list settled. -/
theorem Settled.addSide {n : Nat} {x c : String} {found : List Ancestor} (h : env.Settled x found)
    (hc : env.Lists c (env.addSide n c found)) : env.Settled x (env.addSide n c found) := by
  intro y hy hin
  rcases mem_addSide hin with hold | ⟨m, hm, _, hmixed⟩
  · exact (h y hy hold).mono (prefix_addSide n c found).subset
  · obtain rfl : y = m := congrArg Ancestor.name hm
    exact hc.of_mixed hmixed

/-- Walks that miss nothing, one after another. -/
theorem lists_addSides {n : Nat} {ms : List String} {found : List Ancestor}
    (walk : ∀ c ∈ ms, ∀ found, env.Settled c found → env.Lists c (env.addSide n c found))
    (hs : ∀ c ∈ ms, env.Settled c found) :
    (∀ c ∈ ms, env.Lists c (env.addSides n ms found)) ∧
      ∀ x, env.Settled x found → env.Settled x (env.addSides n ms found) := by
  induction ms generalizing found with
  | nil => exact ⟨fun c hc => absurd hc List.not_mem_nil, fun x hx => hx⟩
  | cons c ms ih =>
    have hc : env.Lists c (env.addSide n c found) := walk c List.mem_cons_self found
      (hs c List.mem_cons_self)
    have hrest : ∀ d ∈ ms, env.Settled d (env.addSide n c found) := fun d hd =>
      (hs d (List.mem_cons_of_mem c hd)).addSide hc
    obtain ⟨hlists, hsettled⟩ := ih (fun d hd => walk d (List.mem_cons_of_mem c hd)) hrest
    refine ⟨fun d hd => ?_, fun x hx => hsettled x (hx.addSide hc)⟩
    rcases List.mem_cons.mp hd with rfl | hd
    · exact hc.mono (prefix_addSides n ms _).subset
    · exact hlists d hd

/-- **The walk misses nothing**, where it has a level for each step of a path. -/
theorem lists_addSide {n : Nat} {x : String} {found : List Ancestor}
    (hn : ∀ k m, env.MixesIn k x m → env.hasModule m = true → k < n) (hs : env.Settled x found) :
    env.Lists x (env.addSide n x found) := by
  induction n generalizing x found with
  | zero =>
    intro m hm hmodule
    obtain ⟨k, hk⟩ := exists_mixesIn hm
    exact absurd (hn k m hk hmodule) (Nat.not_lt_zero k)
  | succ n ih =>
    cases he : env.entry? x with
    | none =>
      intro m hm hmodule
      rw [eq_of_mixed he hm] at hmodule
      obtain ⟨e, hx⟩ := exists_entry hmodule
      cases he.symm.trans hx
    | some e =>
      by_cases hin : ⟨x, .ofInstance⟩ ∈ found
      · rw [addSide_of_mem hin]
        exact hs x .refl hin
      · rw [addSide_of_new he hin]
        have walk : ∀ c, env.Mixes x c → ∀ found, env.Settled c found →
            env.Lists c (env.addSide n c found) := by
          intro c hc found hsettled
          refine ih (fun k m hk hmodule => ?_) hsettled
          exact Nat.lt_of_succ_lt_succ (hn (k + 1) m (.more hc hk) hmodule)
        have hp : ∀ c ∈ env.prepended e, env.Mixes x c := fun c hc => ⟨e, he, .inl hc⟩
        have hi : ∀ c ∈ env.included e, env.Mixes x c := fun c hc => ⟨e, he, .inr hc⟩
        obtain ⟨hprepended, hafter⟩ := lists_addSides (fun c hc => walk c (hp c hc))
          fun c hc => hs.of_mixed (.single (hp c hc))
        obtain ⟨hincluded, _⟩ := lists_addSides (fun c hc => walk c (hi c hc)) fun c hc =>
          (hafter c (hs.of_mixed (.single (hi c hc)))).append_self
            (not_mixed_of_bounded (hasModule_of_entry he) hn (hi c hc))
        have hkept : env.addSides n (env.prepended e) found ++ [⟨x, .ofInstance⟩] ⊆
            env.addSides n (env.included e)
              (env.addSides n (env.prepended e) found ++ [⟨x, .ofInstance⟩]) :=
          (prefix_addSides n _ _).subset
        intro m hm hmodule
        rcases ReflTransGen.cases_head hm with rfl | ⟨c, ⟨e', he', hc⟩, hcm⟩
        · exact hkept (List.mem_append_right _ List.mem_cons_self)
        · obtain rfl : e' = e := Option.some.inj (he'.symm.trans he)
          rcases hc with hc | hc
          · exact hkept (List.mem_append_left _ (hprepended c hc m hcm hmodule))
          · exact hincluded c hc m hcm hmodule

end RbsSynth.Environment
