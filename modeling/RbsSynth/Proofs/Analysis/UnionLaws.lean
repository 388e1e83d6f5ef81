import RbsSynth.Proofs.Analysis.Resolved
import RbsSynth.Proofs.Analysis.Unions

/-!
# The laws of unions

The parts of a union are unknown, or flat: no union, or a union of types of which none is one.  Flat
parts that are known have a union, and what it adds to another union is what they add, each once.  So
parts may be put together beforehand, parts that come again add nothing, and the types that methods are
looked up on give back the type that they are taken from:

    unionOf [unionOf xs, unionOf ys] = unionOf (xs ++ ys)                        (unionOf_unionOf)
    unionOf (xs ++ xs) = unionOf xs                                           (unionOf_append_self)
    unionOf xs = none  ↔  none ∈ xs                                          (unionOf_eq_none_iff)
    receiverTypes? t = some ts  and  unionOf (ts.map some) = some t        (IsReceiver.unionOf_eq)
-/

namespace RbsSynth

namespace Signature

/-! ## Items kept once -/

section

variable {α : Type} [DecidableEq α] {xs ys : List α}

theorem unique_append_unique (xs ys : List α) : unique (unique xs ++ unique ys) = unique (xs ++ ys) := by
  simp only [unique_eq_keepFirst]
  exact keepFirst_append_keepFirst id xs ys

/-- Items that come again add nothing. -/
theorem unique_append_of_subset (h : ys ⊆ xs) : unique (xs ++ ys) = unique xs := by
  induction ys using List.reverseRecOn with
  | nil => rw [List.append_nil]
  | append_singleton ys y ih =>
    obtain ⟨hys, hy⟩ := List.append_subset.mp h
    have hmem : y ∈ xs ++ ys := List.mem_append_left ys (hy List.mem_cons_self)
    rw [← ih hys, unique_eq_firstOf, unique_eq_firstOf, ← List.append_assoc, firstOf_concat, if_pos,
      List.append_nil]
    exact List.any_eq_true.mpr ⟨y, hmem, beq_self_eq_true y⟩

theorem unique_ne_nil (h : xs ≠ []) : unique xs ≠ [] := by
  obtain ⟨x, hx⟩ := List.exists_mem_of_ne_nil xs h
  exact List.ne_nil_of_mem (mem_unique.mpr hx)

end

end Signature

open Signature Analysis

/-! ## Flat types -/

/-- No union, or a union of which no member is one.  A union without members cannot be written. -/
inductive IsFlat : TypeExpr → Prop
  | single {t : TypeExpr} (h : ∀ us, t ≠ .union us) : IsFlat t
  | union {ts : List TypeExpr} (hne : ts ≠ []) (h : ∀ t ∈ ts, ∀ us, t ≠ .union us) :
    IsFlat (.union ts)

theorem membersOf_single {t : TypeExpr} (h : ∀ us, t ≠ .union us) : membersOf t = [t] := by
  cases t with
  | union us => exact absurd rfl (h us)
  | _ => rfl

theorem IsFlat.membersOf_ne_nil {t : TypeExpr} (h : IsFlat t) : membersOf t ≠ [] := by
  cases h with
  | single h =>
    rw [membersOf_single h]
    exact List.cons_ne_nil t []
  | union hne => exact hne

theorem IsFlat.members {t : TypeExpr} (h : IsFlat t) : ∀ u ∈ membersOf t, ∀ us, u ≠ .union us := by
  cases h with
  | single h =>
    rw [membersOf_single h]
    exact fun u hu => List.mem_singleton.mp hu ▸ h
  | union _ h => exact h

/-- Members of which none is a union are those of the type that has them. -/
theorem exists_ofMembers {ts : List TypeExpr} (hne : ts ≠ []) (h : ∀ t ∈ ts, ∀ us, t ≠ .union us) :
    ∃ t, ofMembers ts = some t ∧ membersOf t = ts := by
  match ts with
  | [] => exact absurd rfl hne
  | [t] => exact ⟨t, rfl, membersOf_single (h t List.mem_cons_self)⟩
  | t :: u :: us => exact ⟨.union (t :: u :: us), rfl, rfl⟩

/-- Flat types have a union, with the members of all of them. -/
theorem exists_unionOf {ts : List TypeExpr} (hne : ts ≠ []) (h : ∀ t ∈ ts, IsFlat t) :
    ∃ u, unionOf (ts.map some) = some u ∧ membersOf u = unique (ts.flatMap membersOf) := by
  rw [unionOf_map_some]
  apply exists_ofMembers
  · obtain ⟨t, ht⟩ := List.exists_mem_of_ne_nil ts hne
    obtain ⟨u, hu⟩ := List.exists_mem_of_ne_nil _ (h t ht).membersOf_ne_nil
    exact unique_ne_nil (List.ne_nil_of_mem (List.mem_flatMap.mpr ⟨t, ht, hu⟩))
  · intro u hu
    obtain ⟨t, ht, hu⟩ := List.mem_flatMap.mp (mem_unique.mp hu)
    exact (h t ht).members u hu

/-! ## Parts put together -/

variable {xs ys : List (Option TypeExpr)}

theorem unionOf_eq_none_iff (hne : xs ≠ []) (h : ∀ t, some t ∈ xs → IsFlat t) :
    unionOf xs = none ↔ none ∈ xs := by
  refine ⟨fun hnone => ?_, unionOf_of_none⟩
  rcases none_mem_or_eq_map_some xs with hmem | ⟨ts, rfl⟩
  · exact hmem
  · obtain ⟨u, hu, -⟩ := exists_unionOf (mt List.map_eq_nil_iff.mpr hne) fun t ht =>
      h t (List.mem_map_of_mem ht)
    rw [hu] at hnone
    cases hnone

theorem unionOf_append_self (xs : List (Option TypeExpr)) : unionOf (xs ++ xs) = unionOf xs := by
  rcases none_mem_or_eq_map_some xs with hnone | ⟨ts, rfl⟩
  · rw [unionOf_of_none hnone, unionOf_of_none (List.mem_append_left xs hnone)]
  · rw [← List.map_append, unionOf_map_some, unionOf_map_some, List.flatMap_append,
      unique_append_of_subset (List.Subset.refl _)]

theorem unionOf_unionOf (hx : xs ≠ []) (hy : ys ≠ []) (hxs : ∀ t, some t ∈ xs → IsFlat t)
    (hys : ∀ t, some t ∈ ys → IsFlat t) : unionOf [unionOf xs, unionOf ys] = unionOf (xs ++ ys) := by
  rcases none_mem_or_eq_map_some xs with hnone | ⟨ts, rfl⟩
  · rw [unionOf_of_none hnone, unionOf_of_none (List.mem_append_left ys hnone)]
    exact unionOf_of_none List.mem_cons_self
  rcases none_mem_or_eq_map_some ys with hnone | ⟨us, rfl⟩
  · rw [unionOf_of_none hnone, unionOf_of_none (List.mem_append_right _ hnone)]
    exact unionOf_of_none (List.mem_cons_of_mem _ List.mem_cons_self)
  obtain ⟨t, ht, hts⟩ := exists_unionOf (mt List.map_eq_nil_iff.mpr hx) fun t ht =>
    hxs t (List.mem_map_of_mem ht)
  obtain ⟨u, hu, hus⟩ := exists_unionOf (mt List.map_eq_nil_iff.mpr hy) fun u hu =>
    hys u (List.mem_map_of_mem hu)
  calc unionOf [unionOf (ts.map some), unionOf (us.map some)]
      = unionOf ([t, u].map some) := by rw [ht, hu, List.map_cons, List.map_singleton]
    _ = ofMembers (unique (membersOf t ++ membersOf u)) := by
        rw [unionOf_map_some, List.flatMap_cons, List.flatMap_singleton]
    _ = ofMembers (unique ((ts ++ us).flatMap membersOf)) := by
        rw [hts, hus, unique_append_unique, List.flatMap_append]
    _ = unionOf (ts.map some ++ us.map some) := by rw [← List.map_append, unionOf_map_some]

/-! ## Receivers -/

/-- A type that methods are looked up on, or a union of two or more of them, all different. -/
inductive IsReceiver : TypeExpr → Prop
  | single {t : TypeExpr} (h : (lookupOf t).isSome = true) : IsReceiver t
  | union {ts : List TypeExpr} (hlen : 2 ≤ ts.length) (hnodup : ts.Nodup)
    (h : ∀ t ∈ ts, (lookupOf t).isSome = true) : IsReceiver (.union ts)

theorem Resolved.isReceiver {named : TypeName → Prop} {t : TypeExpr} (h : Resolved named t) :
    IsReceiver t := by
  cases h with
  | union hlen hnodup h hflat =>
    exact .union hlen hnodup fun u hu => (h u hu).isSome_lookupOf (hflat u hu)
  | _ => exact .single rfl

theorem ne_union_of_lookupOf {t : TypeExpr} (h : (lookupOf t).isSome = true) :
    ∀ us, t ≠ .union us := by
  rintro us rfl
  cases h

theorem IsReceiver.receiverTypes {t : TypeExpr} (h : IsReceiver t) :
    receiverTypes? t = some (membersOf t) := by
  cases h with
  | single h => rw [receiverTypes_of_lookupOf h, membersOf_single (ne_union_of_lookupOf h)]
  | union _ hnodup h =>
    rw [receiverTypes?, memberTypes_eq h, foldl_addType, unique_of_nodup hnodup, membersOf]

/-- The members of a receiver are different, and each adds itself to a union. -/
theorem IsReceiver.unique_members {t : TypeExpr} (h : IsReceiver t) :
    unique ((membersOf t).flatMap membersOf) = membersOf t := by
  have hself : ∀ ts : List TypeExpr, (∀ u ∈ ts, (lookupOf u).isSome = true) →
      ts.flatMap membersOf = ts := fun ts hts =>
    (List.flatMap_congr fun u hu => membersOf_single (ne_union_of_lookupOf (hts u hu))).trans
      (List.flatMap_singleton' ts)
  cases h with
  | single h =>
    rw [membersOf_single (ne_union_of_lookupOf h), hself [t] (List.forall_mem_singleton.mpr h)]
    rfl
  | union _ hnodup h => rw [membersOf, hself _ h, unique_of_nodup hnodup]

theorem IsReceiver.ofMembers_eq {t : TypeExpr} (h : IsReceiver t) :
    ofMembers (membersOf t) = some t := by
  cases h with
  | single h =>
    rw [membersOf_single (ne_union_of_lookupOf h)]
    rfl
  | @union ts hlen =>
    match ts, hlen with
    | _ :: _ :: _, _ => rfl

/-- The types that methods are looked up on give back the type that they are taken from. -/
theorem IsReceiver.unionOf_eq {t : TypeExpr} (h : IsReceiver t) :
    ∃ ts, receiverTypes? t = some ts ∧ unionOf (ts.map some) = some t := by
  refine ⟨membersOf t, h.receiverTypes, ?_⟩
  rw [unionOf_map_some, h.unique_members, h.ofMembers_eq]

/-! ## All laws -/

/-- **The laws of unions.**  Parts that are flat or unknown may be put together beforehand, nothing is
added by parts that come again, and the union is unknown exactly when a part is.  Every receiver is the
union of the types that its methods are looked up on. -/
theorem unionOf_laws :
    (∀ xs ys : List (Option TypeExpr), xs ≠ [] → ys ≠ [] → (∀ t, some t ∈ xs → IsFlat t) →
      (∀ t, some t ∈ ys → IsFlat t) → unionOf [unionOf xs, unionOf ys] = unionOf (xs ++ ys) ∧
        unionOf (xs ++ xs) = unionOf xs ∧ (unionOf xs = none ↔ none ∈ xs)) ∧
    ∀ t, IsReceiver t → ∃ ts, receiverTypes? t = some ts ∧ unionOf (ts.map some) = some t := by
  constructor
  · intro xs ys hx hy hxs hys
    exact ⟨unionOf_unionOf hx hy hxs hys, unionOf_append_self xs, unionOf_eq_none_iff hx hxs⟩
  · exact fun t ht => ht.unionOf_eq

/-- The class object of a class that is not inside of another. -/
def classObject (name : String) : TypeExpr := .classSingleton { name := name }

/-- `A` and `A | B`, and then `B | C` and an unknown type or not. -/
theorem unionOf_laws_three :
    let xs := [some (classObject "A"), some (.union [classObject "A", classObject "B"])]
    let ys := [some (.union [classObject "B", classObject "C"])]
    let abc := TypeExpr.union [classObject "A", classObject "B", classObject "C"]
    xs ≠ [] ∧ ys ≠ [] ∧ (∀ t, some t ∈ xs → IsFlat t) ∧ (∀ t, some t ∈ ys → IsFlat t) ∧
      IsReceiver abc ∧ unionOf [unionOf xs, unionOf ys] = unionOf (xs ++ ys) ∧
      unionOf (xs ++ ys) = some abc ∧ unionOf (xs ++ xs) = unionOf xs ∧
      (unionOf (none :: ys) = none ↔ none ∈ none :: ys) ∧
      ∃ ts, receiverTypes? abc = some ts ∧ unionOf (ts.map some) = some abc := by
  intro xs ys abc
  have hflat : ∀ a b, IsFlat (.union [classObject a, classObject b]) := by
    intro a b
    refine .union (List.cons_ne_nil _ _) fun t ht us => ?_
    simp only [List.mem_cons, List.not_mem_nil, or_false] at ht
    rcases ht with rfl | rfl <;> exact nofun
  have hxs : ∀ t, some t ∈ xs → IsFlat t := by
    intro t ht
    simp only [xs, List.mem_cons, Option.some.injEq, List.not_mem_nil, or_false] at ht
    rcases ht with rfl | rfl
    · exact .single fun _ => nofun
    · exact hflat "A" "B"
  have hys : ∀ t, some t ∈ ys → IsFlat t := by
    intro t ht
    obtain rfl := Option.some.inj (List.mem_singleton.mp ht)
    exact hflat "B" "C"
  have hys' : ∀ t, some t ∈ none :: ys → IsFlat t := fun t ht =>
    hys t ((List.mem_cons.mp ht).resolve_left nofun)
  have habc : IsReceiver abc := .union (by decide) (by decide) (by decide)
  have hx : xs ≠ [] := List.cons_ne_nil _ _
  have hy : ys ≠ [] := List.cons_ne_nil _ _
  obtain ⟨happend, hself, -⟩ := unionOf_laws.1 xs ys hx hy hxs hys
  obtain ⟨-, -, hnone⟩ := unionOf_laws.1 (none :: ys) ys (List.cons_ne_nil _ _) hy hys' hys
  exact ⟨hx, hy, hxs, hys, habc, happend, by decide, hself, hnone, unionOf_laws.2 abc habc⟩

end RbsSynth
