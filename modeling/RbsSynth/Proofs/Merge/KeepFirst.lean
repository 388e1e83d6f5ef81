import Mathlib.Data.List.Induction
import RbsSynth.Signature.Merge

/-!
# Keeping the first item of each key

`keepFirst key xs` keeps, of the items with one key, the first.  `unique` and `uniqueAnnotations` are
`keepFirst` for two keys.  Keeping the first items of a part beforehand changes nothing:

    keepFrom key seen (keepFirst key xs) = keepFrom key seen xs      (keepFrom_keepFirst)
-/

namespace RbsSynth.Signature

section

variable {α κ : Type} [BEq κ] (key : α → κ)

/-- Puts an item behind those seen, unless one of them has its key. -/
def keep (seen : List α) (x : α) : List α :=
  if seen.any (key · == key x) then seen else seen ++ [x]

def keepFrom (seen xs : List α) : List α := xs.foldl (keep key) seen

def keepFirst (xs : List α) : List α := keepFrom key [] xs

@[simp] theorem keepFrom_nil (seen : List α) : keepFrom key seen [] = seen := rfl

theorem keepFrom_append (seen xs ys : List α) :
    keepFrom key seen (xs ++ ys) = keepFrom key (keepFrom key seen xs) ys := List.foldl_append

theorem keepFrom_concat (seen xs : List α) (x : α) :
    keepFrom key seen (xs ++ [x]) = keep key (keepFrom key seen xs) x := by
  rw [keepFrom_append]
  rfl

variable [LawfulBEq κ]

theorem any_keep (k : κ) (seen : List α) (x : α) :
    (keep key seen x).any (key · == k) = (seen.any (key · == k) || key x == k) := by
  unfold keep
  split
  · next h =>
    by_cases hk : key x = k
    · subst hk
      simp [h]
    · simp [hk]
  · simp

/-- The keys that are kept are those that were there. -/
theorem any_keepFrom (k : κ) (seen xs : List α) :
    (keepFrom key seen xs).any (key · == k) = (seen.any (key · == k) || xs.any (key · == k)) := by
  induction xs generalizing seen with
  | nil => simp
  | cons x xs ih =>
    show (keepFrom key (keep key seen x) xs).any _ = _
    rw [ih, any_keep, List.any_cons, Bool.or_assoc]

theorem keepFrom_keepFirst (seen xs : List α) :
    keepFrom key seen (keepFirst key xs) = keepFrom key seen xs := by
  induction xs using List.reverseRecOn with
  | nil => rfl
  | append_singleton xs x ih =>
    have hlast : keepFirst key (xs ++ [x]) = keep key (keepFirst key xs) x := keepFrom_concat ..
    rw [hlast, keepFrom_concat]
    by_cases h : (keepFirst key xs).any (key · == key x) = true
    · have hx : (keepFrom key seen xs).any (key · == key x) = true := by
        unfold keepFirst at h
        rw [any_keepFrom] at h ⊢
        simp only [List.any_nil, Bool.false_or] at h
        rw [h, Bool.or_true]
      rw [keep, if_pos h, ih, keep, if_pos hx]
    · rw [keep, if_neg h, keepFrom_concat, ih]

theorem keepFirst_append_keepFirst (xs ys : List α) :
    keepFirst key (keepFirst key xs ++ keepFirst key ys) = keepFirst key (xs ++ ys) := by
  calc keepFirst key (keepFirst key xs ++ keepFirst key ys)
      = keepFrom key (keepFrom key [] (keepFirst key xs)) (keepFirst key ys) := keepFrom_append ..
    _ = keepFrom key (keepFrom key [] xs) ys := by rw [keepFrom_keepFirst, keepFrom_keepFirst]
    _ = keepFirst key (xs ++ ys) := (keepFrom_append ..).symm

theorem keepFirst_keepFirst (xs : List α) : keepFirst key (keepFirst key xs) = keepFirst key xs :=
  keepFrom_keepFirst key [] xs

end

theorem unique_eq_keepFirst {α : Type} [DecidableEq α] (xs : List α) :
    unique xs = keepFirst id xs := by
  have h : (fun (seen : List α) x => if seen.contains x then seen else seen ++ [x]) = keep id := by
    funext seen x
    rw [keep, List.contains_eq_any_beq]
    simp only [id, BEq.comm]
  unfold unique
  rw [h]
  rfl

theorem uniqueAnnotations_eq_keepFirst (as : List Annotation) :
    uniqueAnnotations as = keepFirst (·.body) as := rfl

end RbsSynth.Signature
