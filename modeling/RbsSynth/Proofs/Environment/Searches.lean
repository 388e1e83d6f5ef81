import Mathlib.Data.List.Perm.Subperm
import RbsSynth.Proofs.Environment.Lookups
import RbsSynth.Proofs.Environment.Walks

/-!
# Lookups of methods come to an end

How a method is looked up, step by step, with nothing that bounds the number of steps: at each ancestor an alias
is followed by a search of its own, along the ancestors of that ancestor, unless that lookup was begun before.
All lookups begun are handed on, each put in front of those before it, so none is begun twice.  There are only so
many of them, and every lookup has just one run, for any aliases:

    env.Finds l m begun  ↔  (m, begun) = env.search env.lookupBound l []                        (finds_iff)

The lists of ancestors along which is searched have one run each (`hasAncestors_iff`).  Where aliases lead to no
definition nothing is found, as in a cycle of aliases that no ancestor defines.
-/

namespace RbsSynth.Environment

open Relation (ReflTransGen)
open Signature

/-- A search for a method along ancestors, with the lookups begun before it and behind it. -/
inductive Searches (env : Environment) :
    String → List Ancestor → List Lookup → Option MethodEntry → List Lookup → Prop
  | exhausted (method : String) (begun : List Lookup) : Searches env method [] begun none begun
  | found {method : String} {a : Ancestor} {as : List Ancestor} {e : ModuleEntry} {begun : List Lookup}
    (he : env.entry? a.name = some e) (hr : e.records env.marker a.side method ≠ []) :
    Searches env method (a :: as) begun
      (some (e.methodEntry a.side method (e.records env.marker a.side method))) begun
  | passed {method : String} {a : Ancestor} {as : List Ancestor} {e : ModuleEntry} {begun begun' : List Lookup}
    {m : Option MethodEntry} (he : env.entry? a.name = some e) (hr : e.records env.marker a.side method = [])
    (ht : (e.methodAliases a.side).find? method = none) (rest : Searches env method as begun m begun') :
    Searches env method (a :: as) begun m begun'
  | again {method target : String} {a : Ancestor} {as : List Ancestor} {e : ModuleEntry}
    {begun begun' : List Lookup} {m : Option MethodEntry} (he : env.entry? a.name = some e)
    (hr : e.records env.marker a.side method = [])
    (ht : (e.methodAliases a.side).find? method = some target) (old : ⟨a.name, target, a.side⟩ ∈ begun)
    (rest : Searches env method as begun m begun') : Searches env method (a :: as) begun m begun'
  | followed {method target : String} {a : Ancestor} {as bs : List Ancestor} {e : ModuleEntry}
    {begun begun' : List Lookup} {m : MethodEntry} (he : env.entry? a.name = some e)
    (hr : e.records env.marker a.side method = [])
    (ht : (e.methodAliases a.side).find? method = some target) (new : ⟨a.name, target, a.side⟩ ∉ begun)
    (along : env.HasAncestors a.name a.side bs)
    (search : Searches env target bs (⟨a.name, target, a.side⟩ :: begun) (some m) begun') :
    Searches env method (a :: as) begun (some m) begun'
  | returned {method target : String} {a : Ancestor} {as bs : List Ancestor} {e : ModuleEntry}
    {begun begun' begun'' : List Lookup} {m : Option MethodEntry} (he : env.entry? a.name = some e)
    (hr : e.records env.marker a.side method = [])
    (ht : (e.methodAliases a.side).find? method = some target) (new : ⟨a.name, target, a.side⟩ ∉ begun)
    (along : env.HasAncestors a.name a.side bs)
    (search : Searches env target bs (⟨a.name, target, a.side⟩ :: begun) none begun')
    (rest : Searches env method as begun' m begun'') : Searches env method (a :: as) begun m begun''

/-- A lookup that is the first to be begun, with all lookups begun for it. -/
def Finds (env : Environment) (l : Lookup) (m : Option MethodEntry) (begun : List Lookup) : Prop :=
  ∃ as, env.HasAncestors l.name l.side as ∧ env.Searches l.method as [l] m begun

variable {env : Environment}

/-! ## What is begun -/

/-- What holds of the lookups begun and of a new one in front of them, a search keeps. -/
theorem Searches.keeps {P : List Lookup → Prop}
    (step : ∀ (a : Ancestor) e method target begun, env.entry? a.name = some e →
      (e.methodAliases a.side).find? method = some target → ⟨a.name, target, a.side⟩ ∉ begun → P begun →
        P (⟨a.name, target, a.side⟩ :: begun))
    {method : String} {as : List Ancestor} {begun begun' : List Lookup} {m : Option MethodEntry}
    (h : env.Searches method as begun m begun') (hbegun : P begun) : P begun' := by
  induction h with
  | exhausted | found => exact hbegun
  | passed _ _ _ _ ih | again _ _ _ _ _ ih => exact ih hbegun
  | followed he _ ht new _ _ ih => exact ih (step _ _ _ _ _ he ht new hbegun)
  | returned he _ ht new _ _ _ ihsearch ihrest => exact ihrest (ihsearch (step _ _ _ _ _ he ht new hbegun))

theorem Searches.subset {method : String} {as : List Ancestor} {begun begun' : List Lookup}
    {m : Option MethodEntry} (h : env.Searches method as begun m begun') : begun ⊆ begun' :=
  h.keeps (P := (begun ⊆ ·)) (fun _ _ _ _ _ _ _ _ hsub => List.Subset.trans hsub (List.subset_cons_self _ _))
    (List.Subset.refl begun)

/-- No lookup is begun twice. -/
theorem Searches.nodup {method : String} {as : List Ancestor} {begun begun' : List Lookup}
    {m : Option MethodEntry} (h : env.Searches method as begun m begun') (hbegun : begun.Nodup) :
    begun'.Nodup :=
  h.keeps (fun _ _ _ _ _ _ _ new hnodup => List.nodup_cons.mpr ⟨new, hnodup⟩) hbegun

/-- Only the first lookup is begun, and those that aliases may lead to. -/
theorem Searches.possible {first : Lookup} {method : String} {as : List Ancestor} {begun begun' : List Lookup}
    {m : Option MethodEntry} (h : env.Searches method as begun m begun')
    (hbegun : begun ⊆ env.possible first) : begun' ⊆ env.possible first :=
  h.keeps (P := (· ⊆ env.possible first))
    (fun _ _ _ _ _ he ht _ hsub => List.cons_subset.mpr ⟨possible_of_alias he ht, hsub⟩) hbegun

/-- What is begun can no longer be begun. -/
theorem Searches.remaining_le {method : String} {as : List Ancestor} {begun begun' : List Lookup}
    {m : Option MethodEntry} (h : env.Searches method as begun m begun') (first : Lookup) :
    env.remaining first begun' ≤ env.remaining first begun :=
  remaining_mono first h.subset

theorem remaining_of_alias (first : Lookup) {a : Ancestor} {e : ModuleEntry} {method target : String}
    {begun : List Lookup} (he : env.entry? a.name = some e)
    (ht : (e.methodAliases a.side).find? method = some target) (new : ⟨a.name, target, a.side⟩ ∉ begun) :
    env.remaining first (⟨a.name, target, a.side⟩ :: begun) < env.remaining first begun :=
  remaining_cons (possible_of_alias he ht) new

/-! ## Runs and levels -/

theorem search_of_mem {l : Lookup} {begun : List Lookup} (h : l ∈ begun) (n : Nat) :
    env.search n l begun = (none, begun) := by
  cases n with
  | zero => rfl
  | succ n => rw [search, if_pos (List.contains_iff_mem.mpr h)]

theorem search_of_new {l : Lookup} {begun : List Lookup} (h : l ∉ begun) (n : Nat) :
    env.search (n + 1) l begun
      = env.searchAlong (env.search n) l.method (env.ancestors l.name l.side) (l :: begun) := by
  rw [search, if_neg fun hin => h (List.contains_iff_mem.mp hin)]

section

variable {follow : Lookup → List Lookup → Option MethodEntry × List Lookup} {method target : String}
  {a : Ancestor} {e : ModuleEntry}

theorem searchAlong_found (he : env.entry? a.name = some e) (hr : e.records env.marker a.side method ≠ [])
    (as : List Ancestor) (begun : List Lookup) : env.searchAlong follow method (a :: as) begun
      = (some (e.methodEntry a.side method (e.records env.marker a.side method)), begun) := by
  rw [searchAlong, he]
  dsimp only
  cases hrecords : e.records env.marker a.side method with
  | nil => exact absurd hrecords hr
  | cons r rs => rfl

theorem searchAlong_passed (he : env.entry? a.name = some e) (hr : e.records env.marker a.side method = [])
    (ht : (e.methodAliases a.side).find? method = none) (as : List Ancestor) (begun : List Lookup) :
    env.searchAlong follow method (a :: as) begun = env.searchAlong follow method as begun := by
  rw [searchAlong, he]
  simp only [hr, ht]

theorem searchAlong_followed (he : env.entry? a.name = some e) (hr : e.records env.marker a.side method = [])
    (ht : (e.methodAliases a.side).find? method = some target) {begun begun' : List Lookup} {m : MethodEntry}
    (hf : follow ⟨a.name, target, a.side⟩ begun = (some m, begun')) (as : List Ancestor) :
    env.searchAlong follow method (a :: as) begun = (some m, begun') := by
  rw [searchAlong, he]
  simp only [hr, ht, hf]

theorem searchAlong_returned (he : env.entry? a.name = some e) (hr : e.records env.marker a.side method = [])
    (ht : (e.methodAliases a.side).find? method = some target) {begun begun' : List Lookup}
    (hf : follow ⟨a.name, target, a.side⟩ begun = (none, begun')) (as : List Ancestor) :
    env.searchAlong follow method (a :: as) begun = env.searchAlong follow method as begun' := by
  rw [searchAlong, he]
  simp only [hr, ht, hf]

end

/-- A run gives what a search gives that has a level for each lookup which can still be begun. -/
theorem Searches.eq {method : String} {as : List Ancestor} {begun begun' : List Lookup}
    {m : Option MethodEntry} (h : env.Searches method as begun m begun') (first : Lookup) {n : Nat}
    (hn : env.remaining first begun < n) : env.searchAlong (env.search n) method as begun = (m, begun') := by
  induction h generalizing n with
  | exhausted => rfl
  | found he hr => exact searchAlong_found he hr _ _
  | passed he hr ht _ ih => rw [searchAlong_passed he hr ht, ih hn]
  | again he hr ht old _ ih =>
    rw [searchAlong_returned he hr ht (search_of_mem old n)]
    exact ih hn
  | followed he hr ht new along _ ih =>
    have hfewer := remaining_of_alias first he ht new
    obtain ⟨n, rfl⟩ := Nat.exists_eq_succ_of_ne_zero (Nat.ne_zero_of_lt hn)
    refine searchAlong_followed he hr ht ?_ _
    rw [search_of_new new, along.eq]
    exact ih (by omega)
  | returned he hr ht new along search _ ihsearch ihrest =>
    have hfewer := remaining_of_alias first he ht new
    have hgrown := search.remaining_le first
    obtain ⟨k, rfl⟩ := Nat.exists_eq_succ_of_ne_zero (Nat.ne_zero_of_lt hn)
    refine (searchAlong_returned he hr ht ?_ _).trans (ihrest (by omega))
    rw [search_of_new new, along.eq]
    exact ihsearch (by omega)

/-- Along declared ancestors, a search with enough levels is a run. -/
theorem exists_searches (first : Lookup) (n : Nat) {method : String} {as : List Ancestor}
    {begun : List Lookup} (has : ∀ a ∈ as, env.hasModule a.name = true) (hn : env.remaining first begun < n) :
    ∃ m begun', env.Searches method as begun m begun' := by
  induction n generalizing method as begun with
  | zero => exact absurd hn (Nat.not_lt_zero _)
  | succ n ih =>
    induction as generalizing begun with
    | nil => exact ⟨none, begun, .exhausted method begun⟩
    | cons a as ihas =>
      obtain ⟨ha, has⟩ := List.forall_mem_cons.mp has
      obtain ⟨e, he⟩ := exists_entry ha
      by_cases hr : e.records env.marker a.side method = []
      · cases ht : (e.methodAliases a.side).find? method with
        | none =>
          obtain ⟨m, begun', rest⟩ := ihas has hn
          exact ⟨m, begun', .passed he hr ht rest⟩
        | some target =>
          by_cases hin : ⟨a.name, target, a.side⟩ ∈ begun
          · obtain ⟨m, begun', rest⟩ := ihas has hn
            exact ⟨m, begun', .again he hr ht hin rest⟩
          · have hfewer := remaining_of_alias first he ht hin
            obtain ⟨m, begun', search⟩ : ∃ m begun', env.Searches target (env.ancestors a.name a.side)
                (⟨a.name, target, a.side⟩ :: begun) m begun' :=
              ih (fun b hb => hasModule_of_mem_ancestors hb) (by omega)
            have along := hasAncestors_iff.mpr (rfl : env.ancestors a.name a.side = _)
            cases m with
            | some m => exact ⟨some m, begun', .followed he hr ht hin along search⟩
            | none =>
              have hgrown := search.remaining_le first
              obtain ⟨m, begun'', rest⟩ := ihas has (Nat.lt_of_le_of_lt hgrown (by omega))
              exact ⟨m, begun'', .returned he hr ht hin along search rest⟩
      · exact ⟨_, begun, .found he hr⟩

theorem Finds.eq {l : Lookup} {m : Option MethodEntry} {begun : List Lookup} (h : env.Finds l m begun) :
    env.search env.lookupBound l [] = (m, begun) := by
  obtain ⟨as, along, search⟩ := h
  have hfewer : env.remaining l [l] < env.remaining l [] :=
    remaining_cons List.mem_cons_self List.not_mem_nil
  have hall := remaining_nil env l
  have hbound : env.lookupBound = env.lookupBound - 1 + 1 := by
    unfold lookupBound
    omega
  rw [hbound, search_of_new List.not_mem_nil, along.eq]
  exact search.eq l (by omega)

/-- **A lookup has just one run.** -/
theorem finds_iff {l : Lookup} {m : Option MethodEntry} {begun : List Lookup} :
    env.Finds l m begun ↔ (m, begun) = env.search env.lookupBound l [] := by
  constructor
  · intro h
    exact h.eq.symm
  · intro h
    obtain ⟨m', begun', search⟩ : ∃ m' begun', env.Searches l.method (env.ancestors l.name l.side) [l] m' begun' :=
      exists_searches l _ (fun a ha => hasModule_of_mem_ancestors ha) (Nat.lt_succ_self _)
    have hfinds : env.Finds l m' begun' := ⟨_, hasAncestors_iff.mpr rfl, search⟩
    obtain ⟨rfl, rfl⟩ := Prod.mk.inj (h.trans hfinds.eq)
    exact hfinds

/-- The lookups begun for one lookup are different, and fewer than the levels of a search. -/
theorem Finds.bounded {l : Lookup} {m : Option MethodEntry} {begun : List Lookup} (h : env.Finds l m begun) :
    begun.Nodup ∧ begun.length < env.lookupBound := by
  obtain ⟨as, along, search⟩ := h
  have hnodup : begun.Nodup := search.nodup (List.nodup_cons.mpr ⟨List.not_mem_nil, List.nodup_nil⟩)
  have hpossible : begun ⊆ env.possible l :=
    search.possible (List.cons_subset.mpr ⟨List.mem_cons_self, List.nil_subset _⟩)
  have hlength : begun.length ≤ (env.possible l).length := (List.Nodup.subperm hnodup hpossible).length_le
  exact ⟨hnodup, Nat.lt_of_le_of_lt hlength (env.length_possible_lt l)⟩

/-- **Lookups come to an end in every environment**, whatever its superclasses, mixins and aliases lead back to.
The ancestors of a name have one run, which lists a module no more often than there are depths.  A lookup has one
run, which begins no lookup twice.  Nothing is found exactly if no lookup that aliases lead to is defined. -/
theorem lookup_terminates (env : Environment) :
    (∀ name side, (∀ as, env.HasAncestors name side as ↔ as = env.ancestors name side) ∧
      ∀ m, (env.ancestors name side).count ⟨m, .ofInstance⟩ ≤ depthLimit + 1) ∧
    (∀ l : Lookup, ∃ entered, entered.Nodup ∧ entered.length < env.lookupBound ∧
      ∀ m begun, env.Finds l m begun ↔ m = env.findMethod? l.name l.method l.side ∧ begun = entered) ∧
    ∀ l : Lookup, env.findMethod? l.name l.method l.side = none
      ↔ ∀ l', ReflTransGen env.Leads l l' → ∀ m, ¬ env.Defines l' m := by
  refine ⟨fun name side => ⟨fun as => hasAncestors_iff, fun m => ?_⟩, fun l => ?_, fun l => ?_⟩
  · exact HasAncestors.count_le (hasAncestors_iff.mpr rfl)
  · have run : env.Finds l (env.search env.lookupBound l []).1 (env.search env.lookupBound l []).2 :=
      finds_iff.mpr rfl
    obtain ⟨hnodup, hlength⟩ := run.bounded
    refine ⟨_, hnodup, hlength, fun m begun => ?_⟩
    rw [finds_iff, Prod.ext_iff]
    rfl
  · rw [← Option.not_isSome_iff_eq_none, findMethod?_isSome_iff]
    constructor
    · intro h l' hl m hdefines
      exact h ⟨l', m, hl, hdefines⟩
    · rintro h ⟨l', m, hl, hdefines⟩
      exact h l' hl m hdefines

/-- Superclasses of each other, modules prepended to each other, and aliases of each other. -/
def cyclicText : String :=
  "class A < B
  alias a b
  alias b a
end
class B < A
  include M
end
"
    ++ "module M
  prepend N
  alias a b
end
module N
  prepend M
end
"

/-- No definition is reached, and the run that finds nothing begins no lookup twice. -/
theorem lookup_terminates_cyclic :
    ∃ env ds, addSignature { marker := ⟨"siggen:", by decide⟩ } cyclicText = .ok (env, ds) ∧
      (env.ancestors "A" .ofInstance).count ⟨"M", .ofInstance⟩ = 32 ∧
      (∀ l', ReflTransGen env.Leads ⟨"A", "a", .ofInstance⟩ l' → ∀ m, ¬ env.Defines l' m) ∧
      ∃ entered, entered.Nodup ∧ env.Finds ⟨"A", "a", .ofInstance⟩ none entered := by
  obtain ⟨env, ds, hadd, hcount, hnone⟩ := exists_added cyclicText
    (P := fun env => (env.ancestors "A" .ofInstance).count ⟨"M", .ofInstance⟩ = 32 ∧
      (env.findMethod? "A" "a" .ofInstance).isNone = true) (by decide +kernel)
  have hnone := Option.isNone_iff_eq_none.mp hnone
  obtain ⟨entered, hnodup, _, hfinds⟩ := (lookup_terminates env).2.1 ⟨"A", "a", .ofInstance⟩
  exact ⟨env, ds, hadd, hcount, ((lookup_terminates env).2.2 ⟨"A", "a", .ofInstance⟩).mp hnone, entered, hnodup,
    (hfinds _ _).mpr ⟨hnone.symm, rfl⟩⟩

end RbsSynth.Environment
