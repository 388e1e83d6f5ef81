import RbsSynth.Proofs.Merge.Join

/-!
# Merging and concatenation

In a merged list no two declarations have one key (`Apart`), so joining its declarations to others
does what joining the declarations it was made of does (`foldl_joinInto_merge`).  Hence batches may be
merged one by one beforehand, in any grouping:

    merge (xs ++ ys) = merge (merge xs ++ merge ys)
    merge (merge xs) = merge xs
    merge batches.flatten = merge (batches.map merge).flatten
-/

namespace RbsSynth.Signature

open Declaration

/-- No two declarations have one key. -/
def Apart (ds : List Declaration) : Prop := ds.Pairwise fun d e => d.sameKey e = false

theorem sameKey_join_left {d e : Declaration} (h : d.sameKey e = true) (x : Declaration) :
    (d.join e).sameKey x = d.sameKey x := by
  rw [sameKey, sameKey, mergeKey?_join h]

theorem sameKey_join_right {d e : Declaration} (h : d.sameKey e = true) (x : Declaration) :
    x.sameKey (d.join e) = x.sameKey d := by
  rw [sameKey, sameKey, mergeKey?_join h]

theorem sameKey_comm (d e : Declaration) : d.sameKey e = e.sameKey d := by
  unfold sameKey
  by_cases h : d.mergeKey? = e.mergeKey?
  · rw [h]
  · simp [h, Ne.symm h]

theorem sameKey_trans {d e f : Declaration} (h : d.sameKey e = true) :
    d.sameKey f = e.sameKey f := by
  simp only [sameKey, Bool.and_eq_true, decide_eq_true_eq] at h
  rw [sameKey, sameKey, h.2]

/-! ## Joining into a list -/

/-- The keys in a list after joining a declaration into it. -/
theorem forall_joinInto {acc : List Declaration} {d x : Declaration}
    (hd : x.sameKey d = false) (h : ∀ e ∈ acc, x.sameKey e = false) :
    ∀ e ∈ joinInto acc d, x.sameKey e = false := by
  induction acc with
  | nil =>
    intro e he
    rw [joinInto, List.mem_singleton] at he
    exact he ▸ hd
  | cons a acc ih =>
    intro e he
    rw [joinInto] at he
    split at he
    · next hk =>
      rcases List.mem_cons.mp he with rfl | he
      · rw [sameKey_join_right hk]
        exact h a List.mem_cons_self
      · exact h e (List.mem_cons_of_mem _ he)
    · rcases List.mem_cons.mp he with rfl | he
      · exact h e List.mem_cons_self
      · exact ih (fun e he => h e (List.mem_cons_of_mem _ he)) e he

theorem apart_joinInto {acc : List Declaration} (h : Apart acc) (d : Declaration) :
    Apart (joinInto acc d) := by
  induction acc with
  | nil => exact List.pairwise_singleton _ _
  | cons a acc ih =>
    obtain ⟨ha, hacc⟩ := List.pairwise_cons.mp h
    rw [joinInto]
    split
    · next hk =>
      refine List.pairwise_cons.mpr ⟨fun e he => ?_, hacc⟩
      rw [sameKey_join_left hk]
      exact ha e he
    · next hk =>
      exact List.pairwise_cons.mpr ⟨forall_joinInto (Bool.eq_false_iff.mpr hk) ha, ih hacc⟩

theorem apart_merge (ds : List Declaration) : Apart (merge ds) := by
  rw [merge_eq_foldl]
  have key : ∀ (ds acc : List Declaration), Apart acc → Apart (ds.foldl joinInto acc) := by
    intro ds
    induction ds with
    | nil => exact fun _ h => h
    | cons d ds ih => exact fun acc h => ih _ (apart_joinInto h d)
  exact key ds [] List.Pairwise.nil

/-- Joining in two declarations of one key is joining in the two as one. -/
theorem joinInto_joinInto_same (acc : List Declaration) {d e : Declaration}
    (h : d.sameKey e = true) : joinInto (joinInto acc d) e = joinInto acc (d.join e) := by
  induction acc with
  | nil => rw [joinInto, joinInto, joinInto, if_pos h]
  | cons a acc ih =>
    rw [joinInto, joinInto, sameKey_join_right h]
    by_cases ha : a.sameKey d = true
    · have hae : (a.join d).sameKey e = true := by
        rw [sameKey_join_left ha, sameKey_trans ha]
        exact h
      rw [if_pos ha, if_pos ha, joinInto, if_pos hae, join_assoc ha h]
    · have hae : a.sameKey e = false := by
        rw [sameKey_comm, ← sameKey_trans h, sameKey_comm]
        exact Bool.eq_false_iff.mpr ha
      rw [if_neg ha, if_neg ha, joinInto, hae, if_neg Bool.false_ne_true, ih]

/-- A declaration whose key is in the list may be joined in before or after one of another key. -/
theorem joinInto_comm {acc : List Declaration} {d e : Declaration} (h : d.sameKey e = false)
    (hd : acc.any (·.sameKey d) = true) :
    joinInto (joinInto acc d) e = joinInto (joinInto acc e) d := by
  induction acc with
  | nil => simp at hd
  | cons a acc ih =>
    rw [joinInto, joinInto]
    by_cases had : a.sameKey d = true
    · have hae : a.sameKey e = false := by rw [sameKey_trans had]; exact h
      rw [if_pos had, hae, if_neg Bool.false_ne_true, joinInto, sameKey_join_left had, hae,
        if_neg Bool.false_ne_true, joinInto, if_pos had]
    · have hacc : acc.any (·.sameKey d) = true := by
        simpa [Bool.eq_false_iff.mpr had] using hd
      rw [if_neg had, joinInto]
      by_cases hae : a.sameKey e = true
      · rw [if_pos hae, if_pos hae, joinInto, sameKey_join_left hae, if_neg had]
      · rw [if_neg hae, if_neg hae, joinInto, if_neg had, ih hacc]

theorem any_joinInto {acc : List Declaration} {d : Declaration} (e : Declaration)
    (hd : acc.any (·.sameKey d) = true) : (joinInto acc e).any (·.sameKey d) = true := by
  induction acc with
  | nil => simp at hd
  | cons a acc ih =>
    rw [joinInto]
    rw [List.any_cons, Bool.or_eq_true] at hd
    split
    · next hk =>
      rw [List.any_cons, sameKey_join_left hk, Bool.or_eq_true]
      exact hd
    · rw [List.any_cons, Bool.or_eq_true]
      exact hd.imp id ih

theorem any_joinInto_self (acc : List Declaration) {d e : Declaration} (h : e.sameKey d = true) :
    (joinInto acc e).any (·.sameKey d) = true := by
  induction acc with
  | nil => simpa [joinInto] using h
  | cons a acc ih =>
    rw [joinInto]
    split
    · next hk =>
      rw [List.any_cons, sameKey_join_left hk, sameKey_trans hk, h, Bool.true_or]
    · rw [List.any_cons, ih, Bool.or_true]

/-! ## Joining a merged list -/

theorem foldl_joinInto_comm {acc es : List Declaration} {d : Declaration}
    (hes : ∀ e ∈ es, d.sameKey e = false) (hd : acc.any (·.sameKey d) = true) :
    es.foldl joinInto (joinInto acc d) = joinInto (es.foldl joinInto acc) d := by
  induction es generalizing acc with
  | nil => rfl
  | cons e es ih =>
    rw [List.foldl_cons, List.foldl_cons, joinInto_comm (hes e List.mem_cons_self) hd]
    exact ih (fun e he => hes e (List.mem_cons_of_mem _ he)) (any_joinInto e hd)

theorem foldl_joinInto_joinInto {m : List Declaration} (hm : Apart m) (acc : List Declaration)
    (d : Declaration) :
    (joinInto m d).foldl joinInto acc = joinInto (m.foldl joinInto acc) d := by
  induction m generalizing acc with
  | nil => rfl
  | cons e m ih =>
    obtain ⟨he, hm⟩ := List.pairwise_cons.mp hm
    rw [joinInto]
    split
    · next hk =>
      have hd : ∀ x ∈ m, d.sameKey x = false := fun x hx => by rw [← sameKey_trans hk]; exact he x hx
      rw [List.foldl_cons, ← joinInto_joinInto_same acc hk,
        foldl_joinInto_comm hd (any_joinInto_self acc hk), List.foldl_cons]
    · rw [List.foldl_cons, ih hm, List.foldl_cons]

/-- Joining in a merged list is joining in what it was merged from. -/
theorem foldl_joinInto_merge (acc ds : List Declaration) :
    (merge ds).foldl joinInto acc = ds.foldl joinInto acc := by
  induction ds using List.reverseRecOn with
  | nil => rfl
  | append_singleton ds d ih =>
    rw [merge_append_eq_foldl, List.foldl_append]
    show (joinInto (merge ds) d).foldl joinInto acc = joinInto (ds.foldl joinInto acc) d
    rw [foldl_joinInto_joinInto (apart_merge ds), ih]

/-! ## Top theorem -/

theorem merge_append_merge (xs ys : List Declaration) :
    merge (merge xs ++ merge ys) = merge (xs ++ ys) := by
  rw [merge_eq_foldl (merge xs ++ merge ys), merge_eq_foldl (xs ++ ys), List.foldl_append,
    List.foldl_append, foldl_joinInto_merge, foldl_joinInto_merge]

/-- Merging is a homomorphism for concatenation: declarations may be merged beforehand in batches,
however they are grouped. -/
theorem merge_homomorphism :
    (∀ xs ys, merge (xs ++ ys) = merge (merge xs ++ merge ys)) ∧
    (∀ xs, merge (merge xs) = merge xs) ∧
    (∀ batches : List (List Declaration),
      merge batches.flatten = merge (batches.map merge).flatten) := by
  refine ⟨fun xs ys => (merge_append_merge xs ys).symm, fun xs => ?_, fun batches => ?_⟩
  · rw [merge_eq_foldl (merge xs), foldl_joinInto_merge, ← merge_eq_foldl]
  · rw [merge_eq_foldl batches.flatten, merge_eq_foldl (batches.map merge).flatten]
    induction batches using List.reverseRecOn with
    | nil => rfl
    | append_singleton batches ds ih =>
      simp only [List.flatten_append, List.map_append, List.foldl_append, ih, List.map_cons,
        List.map_nil, List.flatten_cons, List.flatten_nil, List.append_nil, foldl_joinInto_merge]

end RbsSynth.Signature
