import Mathlib.Data.List.Dedup
import Mathlib.Data.List.Perm.Basic
import RbsSynth.Analysis.Types
import RbsSynth.Proofs.Merge.Groups

/-!
# The members of a union

A union is known when all its parts are.  Its members are what the parts add to it, each of them once
and in the order in which they come:

    unionOf (ts.map some) = ofMembers (unique (ts.flatMap membersOf))            (unionOf_map_some)

`unique` only looks at which items there are, up to their order (`unique_perm`).  So the parts of a
union may come in any order: the members are the same, up to theirs            (unionOf_perm)
-/

namespace RbsSynth

namespace Signature

/-! ## Items kept once -/

section

variable {α : Type} [DecidableEq α] {xs ys : List α}

theorem unique_eq_firstOf (xs : List α) : unique xs = firstOf (· == ·) xs :=
  (unique_eq_keepFirst xs).trans (keepFirst_eq_firstOf id xs)

theorem mem_unique {x : α} : x ∈ unique xs ↔ x ∈ xs := by
  have hany : ∀ zs : List α, zs.any (id · == x) = true ↔ x ∈ zs := fun zs => by simp
  rw [unique_eq_keepFirst, keepFirst, ← hany, any_keepFrom, List.any_nil, Bool.false_or, hany]

theorem nodup_unique (xs : List α) : (unique xs).Nodup := by
  rw [unique_eq_firstOf]
  exact (pairwise_firstOf _ xs).imp fun h => by simpa using h

theorem unique_of_nodup (h : xs.Nodup) : unique xs = xs := by
  rw [unique_eq_firstOf]
  induction xs with
  | nil => rfl
  | cons x xs ih =>
    obtain ⟨hx, hxs⟩ := List.nodup_cons.mp h
    rw [firstOf, ih hxs, List.filter_eq_self.mpr]
    intro y hy
    have hne : x ≠ y := by
      rintro rfl
      exact hx hy
    simpa using hne

/-- Items that come in another order are kept in another order. -/
theorem unique_perm (h : xs.Perm ys) : (unique xs).Perm (unique ys) := by
  apply (List.perm_ext_iff_of_nodup (nodup_unique xs) (nodup_unique ys)).mpr
  intro x
  rw [mem_unique, mem_unique, h.mem_iff]

end

end Signature

open Signature

/-! ## Members -/

/-- What a type adds to a union: its own members, or itself. -/
def membersOf : TypeExpr → List TypeExpr
  | .union ts => ts
  | t => [t]

/-- The type with some members. -/
def ofMembers : List TypeExpr → Option TypeExpr
  | [] => none
  | [t] => some t
  | ts => some (.union ts)

theorem addMembers_eq (found : List TypeExpr) (t : TypeExpr) :
    addMembers found t = (membersOf t).foldl addType found := by
  cases t <;> rfl

theorem foldl_addMembers (found ts : List TypeExpr) :
    ts.foldl addMembers found = (ts.flatMap membersOf).foldl addType found := by
  induction ts generalizing found with
  | nil => rfl
  | cons t ts ih => rw [List.foldl_cons, ih, addMembers_eq, List.flatMap_cons, List.foldl_append]

theorem foldl_addType (ts : List TypeExpr) : ts.foldl addType [] = unique ts := rfl

theorem unionOf_map_some (ts : List TypeExpr) :
    unionOf (ts.map some) = ofMembers (unique (ts.flatMap membersOf)) := by
  have hall : (ts.map some).all Option.isSome = true := by simp
  have hparts : (ts.map some).filterMap id = ts := by
    rw [List.filterMap_map]
    exact List.filterMap_some
  unfold unionOf
  rw [if_pos hall, hparts, foldl_addMembers, foldl_addType]
  rfl

theorem unionOf_of_none {os : List (Option TypeExpr)} (h : none ∈ os) : unionOf os = none := by
  unfold unionOf
  rw [if_neg]
  intro hall
  cases List.all_eq_true.mp hall none h

/-- The parts of a union that may be unknown: one of them is, or all are known. -/
theorem none_mem_or_eq_map_some (os : List (Option TypeExpr)) :
    none ∈ os ∨ ∃ ts : List TypeExpr, os = ts.map some := by
  induction os with
  | nil => exact .inr ⟨[], rfl⟩
  | cons o os ih =>
    cases o with
    | none => exact .inl List.mem_cons_self
    | some t =>
      rcases ih with h | ⟨ts, rfl⟩
      · exact .inl (List.mem_cons_of_mem _ h)
      · exact .inr ⟨t :: ts, rfl⟩

/-! ## The order of members -/

/-- Both types are unknown, or they are one type up to the order of the members of a union. -/
inductive SameMembers : Option TypeExpr → Option TypeExpr → Prop
  | unknown : SameMembers none none
  | one (t : TypeExpr) : SameMembers (some t) (some t)
  | union {ts us : List TypeExpr} (h : ts.Perm us) :
    SameMembers (some (.union ts)) (some (.union us))

theorem sameMembers_ofMembers {ts us : List TypeExpr} (h : ts.Perm us) :
    SameMembers (ofMembers ts) (ofMembers us) := by
  match ts, us, h.length_eq with
  | [], [], _ => exact .unknown
  | [t], [u], _ =>
    obtain rfl := List.singleton_perm_singleton.mp h
    exact .one t
  | _ :: _ :: _, _ :: _ :: _, _ => exact .union h

/-- The parts of a union may come in any order. -/
theorem unionOf_perm {os ps : List (Option TypeExpr)} (h : os.Perm ps) :
    SameMembers (unionOf os) (unionOf ps) := by
  rcases none_mem_or_eq_map_some os with hnone | ⟨ts, rfl⟩
  · rw [unionOf_of_none hnone, unionOf_of_none (h.mem_iff.mp hnone)]
    exact .unknown
  · have hps : ps = (ps.filterMap id).map some := by
      rcases none_mem_or_eq_map_some ps with hnone | ⟨us, rfl⟩
      · simpa using h.mem_iff.mpr hnone
      · simp
    rw [hps] at h ⊢
    have hts : ts.Perm (ps.filterMap id) := by
      simpa using h.filterMap id
    rw [unionOf_map_some, unionOf_map_some]
    exact sameMembers_ofMembers (unique_perm (hts.flatMap_right membersOf))

end RbsSynth
