import Mathlib.Data.List.ProdSigma
import RbsSynth.Environment.Methods
import RbsSynth.Proofs.Environment.Reached

/-!
# Method lookups and the aliases between them

An alias at an ancestor leads from one lookup to another (`Leads`), and a lookup finds what the records
of an ancestor define (`Defines`).  A search that finds something has followed aliases to a lookup that
defines it; one that finds nothing has begun every lookup that its aliases lead to (`Exhausts`), as the
lookups that can be begun are fewer than the levels it has:

    findMethod? name method side = some m → ∃ l, ⟨name, method, side⟩ leads to l, which defines m
                                                                              (exists_leads_of_findMethod?)
    (findMethod? name method side).isSome ↔ ⟨name, method, side⟩ leads to a lookup that defines something
                                                                                (findMethod?_isSome_iff)
-/

namespace RbsSynth.Environment

open Relation (ReflTransGen)
open Signature

/-- At an ancestor, an alias of the method of `l` stands for that of `l'`. -/
def Leads (env : Environment) (l l' : Lookup) : Prop :=
  ∃ a ∈ env.ancestors l.name l.side, ∃ e target, env.entry? a.name = some e ∧
    (e.methodAliases a.side).find? l.method = some target ∧ l' = ⟨a.name, target, a.side⟩

/-- An ancestor defines the method of `l`. -/
def Defines (env : Environment) (l : Lookup) (m : MethodEntry) : Prop :=
  ∃ a ∈ env.ancestors l.name l.side, ∃ e, env.entry? a.name = some e ∧
    e.records env.marker a.side l.method ≠ [] ∧
    m = e.methodEntry a.side l.method (e.records env.marker a.side l.method)

variable {env : Environment}

/-! ## What is found -/

theorem searchAlong_sound {P : MethodEntry → Prop}
    {follow : Lookup → List Lookup → Option MethodEntry × List Lookup} {method : String}
    {as : List Ancestor} {begun : List Lookup} {m : MethodEntry}
    (defined : ∀ a ∈ as, ∀ e, env.entry? a.name = some e → e.records env.marker a.side method ≠ [] →
      P (e.methodEntry a.side method (e.records env.marker a.side method)))
    (followed : ∀ a ∈ as, ∀ e target, env.entry? a.name = some e →
      (e.methodAliases a.side).find? method = some target → ∀ begun m,
        (follow ⟨a.name, target, a.side⟩ begun).1 = some m → P m)
    (h : (env.searchAlong follow method as begun).1 = some m) : P m := by
  induction as generalizing begun with
  | nil => cases h
  | cons a as ih =>
    have ih := @ih
    have rest : ∀ begun, (env.searchAlong follow method as begun).1 = some m → P m := fun begun =>
      ih (fun b hb => defined b (List.mem_cons_of_mem a hb))
        fun b hb => followed b (List.mem_cons_of_mem a hb)
    rw [searchAlong] at h
    split at h
    · exact rest begun h
    · next e he =>
      split at h
      · next r rs hr =>
        have hfound := defined a List.mem_cons_self e he (by rw [hr]; exact List.cons_ne_nil r rs)
        rw [hr, Option.some.inj h] at hfound
        exact hfound
      · split at h
        · exact rest begun h
        · next target ht =>
          split at h
          · next found begun' hf =>
            refine followed a List.mem_cons_self e target he ht begun m ?_
            rw [hf]
            exact h
          · next begun' _ => exact rest begun' h

theorem search_sound {n : Nat} {l : Lookup} {begun : List Lookup} {m : MethodEntry}
    (h : (env.search n l begun).1 = some m) : ∃ l', ReflTransGen env.Leads l l' ∧ env.Defines l' m := by
  induction n generalizing l begun m with
  | zero => cases h
  | succ n ih =>
    rw [search] at h
    split at h
    · cases h
    · refine searchAlong_sound (P := fun m => ∃ l', ReflTransGen env.Leads l l' ∧ env.Defines l' m)
        (fun a ha e he hr => ⟨l, .refl, a, ha, e, he, hr, rfl⟩)
        (fun a ha e target he ht begun m hm => ?_) h
      obtain ⟨l', hl', hdef⟩ := ih hm
      exact ⟨l', .head ⟨a, ha, e, target, he, ht, rfl⟩ hl', hdef⟩

/-- **What is found is defined** by an ancestor of a lookup that aliases lead to. -/
theorem exists_leads_of_findMethod? {name method : String} {side : Side} {m : MethodEntry}
    (h : env.findMethod? name method side = some m) :
    ∃ l, ReflTransGen env.Leads ⟨name, method, side⟩ l ∧ env.Defines l m :=
  search_sound h

/-! ## Lookups that can be begun -/

/-- The first lookup, and those that aliases may lead to. -/
def possible (env : Environment) (first : Lookup) : List Lookup :=
  first :: ((env.modules ×ˢ env.aliasTargets) ×ˢ [Side.ofInstance, .ofSingleton]).map
    fun p => ⟨p.1.1.1, p.1.2, p.2⟩

/-- How many lookups can still be begun. -/
def remaining (env : Environment) (first : Lookup) (begun : List Lookup) : Nat :=
  ((env.possible first).filter (· ∉ begun)).length

theorem length_possible_lt (env : Environment) (first : Lookup) :
    (env.possible first).length < env.lookupBound := by
  have hlength : (env.possible first).length
      = env.modules.length * env.aliasTargets.length * 2 + 1 := by
    rw [possible, List.length_cons, List.length_map, List.length_product, List.length_product]
    rfl
  rw [hlength, lookupBound, Nat.mul_comm _ 2, ← Nat.mul_assoc]
  exact Nat.lt_succ_self _

theorem remaining_nil (env : Environment) (first : Lookup) : env.remaining first [] < env.lookupBound :=
  Nat.lt_of_le_of_lt (List.length_filter_le _ _) (env.length_possible_lt first)

theorem remaining_mono (first : Lookup) {begun begun' : List Lookup} (h : begun ⊆ begun') :
    env.remaining first begun' ≤ env.remaining first begun := by
  refine (List.monotone_filter_right _ fun l hl => ?_).length_le
  rw [decide_eq_true_eq] at hl ⊢
  exact fun hin => hl (h hin)

theorem remaining_cons {first l : Lookup} {begun : List Lookup} (hl : l ∈ env.possible first)
    (h : l ∉ begun) : env.remaining first (l :: begun) < env.remaining first begun := by
  have hfilter : (env.possible first).filter (· ∉ l :: begun)
      = ((env.possible first).filter (· ∉ begun)).filter (· ≠ l) := by
    rw [List.filter_filter]
    refine List.filter_congr fun x _ => ?_
    simp [List.mem_cons, not_or]
  rw [remaining, hfilter]
  refine List.length_filter_lt_length_iff_exists.mpr ⟨l, List.mem_filter.mpr ⟨hl, ?_⟩, ?_⟩
  · exact decide_eq_true h
  · simp

theorem possible_of_alias {first : Lookup} {a : Ancestor} {e : ModuleEntry} {method target : String}
    (he : env.entry? a.name = some e)
    (ht : (e.methodAliases a.side).find? method = some target) :
    ⟨a.name, target, a.side⟩ ∈ env.possible first := by
  have hmodule : (a.name, e) ∈ env.modules := mem_of_find? he
  obtain ⟨m, hm, hpair⟩ := List.mem_filterMap.mp (List.mem_reverse.mp (mem_of_find? ht))
  have htarget : target ∈ env.aliasTargets := by
    refine List.mem_flatMap.mpr ⟨(a.name, e), hmodule, List.mem_filterMap.mpr ⟨m, hm, ?_⟩⟩
    cases m with
    | aliasMember m =>
      rw [ModuleEntry.aliasPair?] at hpair
      split at hpair
      · exact congrArg some (Prod.mk.inj (Option.some.inj hpair)).2
      · cases hpair
    | _ => cases hpair
  have hside : a.side ∈ [Side.ofInstance, .ofSingleton] := by cases a.side <;> decide
  exact List.mem_cons_of_mem _ (List.mem_map.mpr ⟨(((a.name, e), target), a.side),
    List.pair_mem_product.mpr ⟨List.pair_mem_product.mpr ⟨hmodule, htarget⟩, hside⟩, rfl⟩)

/-! ## What is not found -/

/-- Between two stages of a search, every lookup that was begun defines nothing and was followed. -/
structure Exhausts (env : Environment) (begun begun' : List Lookup) : Prop where
  grown : begun ⊆ begun'
  undefined : ∀ l ∈ begun', l ∉ begun → ∀ m, ¬ env.Defines l m
  followed : ∀ l ∈ begun', l ∉ begun → ∀ l', env.Leads l l' → l' ∈ begun'

theorem Exhausts.refl (begun : List Lookup) : env.Exhausts begun begun where
  grown := List.Subset.refl begun
  undefined _ hl hn := absurd hl hn
  followed _ hl hn := absurd hl hn

theorem Exhausts.trans {begun begun' begun'' : List Lookup} (h : env.Exhausts begun begun')
    (h' : env.Exhausts begun' begun'') : env.Exhausts begun begun'' where
  grown := List.Subset.trans h.grown h'.grown
  undefined l hl hn := by
    by_cases hin : l ∈ begun'
    · exact h.undefined l hin hn
    · exact h'.undefined l hl hin
  followed l hl hn l' hl' := by
    by_cases hin : l ∈ begun'
    · exact h'.grown (h.followed l hin hn l' hl')
    · exact h'.followed l hl hin l' hl'

/-- The lookup just begun may be counted among those since. -/
theorem Exhausts.drop {l : Lookup} {begun begun' : List Lookup}
    (h : env.Exhausts (l :: begun) begun') (hl : ∀ m, ¬ env.Defines l m)
    (hfollowed : ∀ l', env.Leads l l' → l' ∈ begun') : env.Exhausts begun begun' where
  grown := List.Subset.trans (List.subset_cons_self l begun) h.grown
  undefined x hx hn := by
    by_cases hxl : x = l
    · exact hxl ▸ hl
    · exact h.undefined x hx fun hin => (List.mem_cons.mp hin).elim hxl hn
  followed x hx hn := by
    by_cases hxl : x = l
    · exact hxl ▸ hfollowed
    · exact h.followed x hx fun hin => (List.mem_cons.mp hin).elim hxl hn

/-- A search along ancestors that finds nothing: none of them defines the method, and what their
aliases stand for was looked up. -/
theorem searchAlong_none (first : List Lookup)
    {follow : Lookup → List Lookup → Option MethodEntry × List Lookup} {method : String}
    {as : List Ancestor}
    (step : ∀ a ∈ as, ∀ e target, env.entry? a.name = some e →
      (e.methodAliases a.side).find? method = some target → ∀ begun, first ⊆ begun →
        (follow ⟨a.name, target, a.side⟩ begun).1 = none →
          env.Exhausts begun (follow ⟨a.name, target, a.side⟩ begun).2 ∧
            ⟨a.name, target, a.side⟩ ∈ (follow ⟨a.name, target, a.side⟩ begun).2)
    {begun : List Lookup} (hfirst : first ⊆ begun)
    (h : (env.searchAlong follow method as begun).1 = none) :
    env.Exhausts begun (env.searchAlong follow method as begun).2 ∧
      ∀ a ∈ as, ∀ e, env.entry? a.name = some e → e.records env.marker a.side method = [] ∧
        ∀ target, (e.methodAliases a.side).find? method = some target →
          ⟨a.name, target, a.side⟩ ∈ (env.searchAlong follow method as begun).2 := by
  induction as generalizing begun with
  | nil => exact ⟨.refl begun, fun a ha => absurd ha List.not_mem_nil⟩
  | cons a as ih =>
    have step' := fun b hb => step b (List.mem_cons_of_mem a hb)
    have skip : ∀ begun', first ⊆ begun' → (env.searchAlong follow method as begun').1 = none →
        (∀ e, env.entry? a.name = some e → e.records env.marker a.side method = [] ∧
          ∀ target, (e.methodAliases a.side).find? method = some target →
            ⟨a.name, target, a.side⟩ ∈ begun') →
        env.Exhausts begun' (env.searchAlong follow method as begun').2 ∧
          ∀ b ∈ a :: as, ∀ e, env.entry? b.name = some e →
            e.records env.marker b.side method = [] ∧
              ∀ target, (e.methodAliases b.side).find? method = some target →
                ⟨b.name, target, b.side⟩ ∈ (env.searchAlong follow method as begun').2 := by
      intro begun' hfirst' h' ha
      obtain ⟨hex, hall⟩ := ih step' hfirst' h'
      refine ⟨hex, fun b hb e he => ?_⟩
      rcases List.mem_cons.mp hb with rfl | hb
      · exact ⟨(ha e he).1, fun target ht => hex.grown ((ha e he).2 target ht)⟩
      · exact hall b hb e he
    rw [searchAlong] at h ⊢
    cases he : env.entry? a.name with
    | none =>
      rw [he] at h
      exact skip begun hfirst h fun e he' => by cases he.symm.trans he'
    | some e =>
      have same : ∀ e', env.entry? a.name = some e' → e' = e := fun e' he' =>
        Option.some.inj (he'.symm.trans he)
      rw [he] at h
      dsimp only at h ⊢
      cases hr : e.records env.marker a.side method with
      | cons r rs =>
        rw [hr] at h
        cases h
      | nil =>
        rw [hr] at h
        dsimp only at h ⊢
        cases ht : (e.methodAliases a.side).find? method with
        | none =>
          rw [ht] at h
          refine skip begun hfirst h fun e' he' => ?_
          obtain rfl := same e' he'
          exact ⟨hr, fun target ht' => by cases ht.symm.trans ht'⟩
        | some target =>
          rw [ht] at h
          dsimp only at h ⊢
          have hstep := step a List.mem_cons_self e target he ht begun hfirst
          generalize follow ⟨a.name, target, a.side⟩ begun = result at h hstep ⊢
          obtain ⟨found, begun'⟩ := result
          cases found with
          | some m => cases h
          | none =>
            obtain ⟨hex, hin⟩ := hstep rfl
            obtain ⟨hrest, hall⟩ := skip begun' (List.Subset.trans hfirst hex.grown) h fun e' he' => by
              obtain rfl := same e' he'
              refine ⟨hr, fun target' ht' => ?_⟩
              obtain rfl := Option.some.inj (ht'.symm.trans ht)
              exact hin
            exact ⟨hex.trans hrest, hall⟩

/-- A search with a level for each lookup that can be begun, which finds nothing. -/
theorem search_none {n : Nat} {first l : Lookup} {begun : List Lookup}
    (hl : l ∈ env.possible first) (hn : env.remaining first begun < n)
    (h : (env.search n l begun).1 = none) :
    env.Exhausts begun (env.search n l begun).2 ∧ l ∈ (env.search n l begun).2 := by
  induction n generalizing l begun with
  | zero => exact absurd hn (Nat.not_lt_zero _)
  | succ n ih =>
    rw [search] at h ⊢
    by_cases hin : l ∈ begun
    · rw [if_pos (List.contains_iff_mem.mpr hin)] at h ⊢
      exact ⟨.refl begun, hin⟩
    · have hc : ¬ begun.contains l = true := fun hc => hin (List.contains_iff_mem.mp hc)
      rw [if_neg hc] at h ⊢
      have hfewer := remaining_cons hl hin
      have fewer : ∀ begun', l :: begun ⊆ begun' → env.remaining first begun' < n :=
        fun begun' hsub => Nat.lt_of_le_of_lt (remaining_mono first hsub) (by omega)
      obtain ⟨hex, hall⟩ := searchAlong_none (l :: begun)
        (fun a _ e target he ht begun' hsub => ih (possible_of_alias he ht) (fewer begun' hsub))
        (List.Subset.refl _) h
      refine ⟨hex.drop (fun m ⟨a, ha, e, he, hr, _⟩ => hr (hall a ha e he).1) ?_,
        hex.grown List.mem_cons_self⟩
      rintro l' ⟨a, ha, e, target, he, ht, rfl⟩
      exact (hall a ha e he).2 target ht

/-- **A lookup finds something exactly if aliases lead to a definition.** -/
theorem findMethod?_isSome_iff {name method : String} {side : Side} :
    (env.findMethod? name method side).isSome = true
      ↔ ∃ l m, ReflTransGen env.Leads ⟨name, method, side⟩ l ∧ env.Defines l m := by
  constructor
  · intro h
    obtain ⟨m, hm⟩ := Option.isSome_iff_exists.mp h
    obtain ⟨l, hl, hdef⟩ := exists_leads_of_findMethod? hm
    exact ⟨l, m, hl, hdef⟩
  · rintro ⟨l, m, hl, hdef⟩
    apply Option.isSome_iff_ne_none.mpr
    intro hnone
    obtain ⟨hex, hin⟩ := search_none List.mem_cons_self (remaining_nil env _) hnone
    have hbegun : l ∈ (env.search env.lookupBound ⟨name, method, side⟩ []).2 := by
      clear hdef
      induction hl with
      | refl => exact hin
      | tail _ hlead ih => exact hex.followed _ ih List.not_mem_nil _ hlead
    exact hex.undefined l hbegun List.not_mem_nil m hdef

end RbsSynth.Environment
