import Mathlib.Data.List.Perm.Basic
import RbsSynth.Index

/-!
# Lists of named things

What `update`, `modify` and `put` change: the thing of their own name   (find?_update, find?_modify)
Two changes of one thing are one, those of different things commute   (update_update, update_comm)

Things that are put last come in the order of the changes.  Up to that order (`Reordered`), which
every change respects, changes of different things always commute:

    ((index.update m g).update n f).Reordered ((index.update n f).update m g)   (reordered_update_update)
-/

namespace RbsSynth.Index

variable {α : Type}

theorem find?_update (name n : String) (f : Option α → α) (index : Index α) :
    (index.update name f).find? n
      = if name = n then some (f (index.find? n)) else index.find? n := by
  induction index with
  | nil => rfl
  | cons p rest ih =>
    obtain ⟨m, a⟩ := p
    rw [Index.update]
    by_cases hm : m = name
    · rw [if_pos hm, Index.find?, Index.find?, hm]
      by_cases hn : name = n
      · rw [if_pos hn, if_pos hn, if_pos hn]
      · rw [if_neg hn, if_neg hn, if_neg hn]
    · rw [if_neg hm, Index.find?, Index.find?, ih]
      by_cases hn : m = n
      · rw [if_pos hn, if_pos hn, if_neg fun h => hm (hn.trans h.symm)]
      · rw [if_neg hn, if_neg hn]

theorem find?_modify (name n : String) (f : α → α) (index : Index α) :
    (index.modify name f).find? n
      = if name = n then (index.find? n).map f else index.find? n := by
  induction index with
  | nil => rw [Index.modify, Index.find?]; split <;> rfl
  | cons p rest ih =>
    obtain ⟨m, a⟩ := p
    rw [Index.modify]
    by_cases hm : m = name
    · rw [if_pos hm, Index.find?, Index.find?, hm]
      by_cases hn : name = n
      · rw [if_pos hn, if_pos hn, if_pos hn]; rfl
      · rw [if_neg hn, if_neg hn, if_neg hn]
    · rw [if_neg hm, Index.find?, Index.find?, ih]
      by_cases hn : m = n
      · rw [if_pos hn, if_pos hn, if_neg fun h => hm (hn.trans h.symm)]
      · rw [if_neg hn, if_neg hn]

theorem find?_put (v n : String) (a : α) (index : Index α) :
    find? v (put n a index) = if n = v then some a else find? v index :=
  find?_update n v (fun _ => a) index

/-! ## Two changes -/

theorem modify_update (name : String) (f : Option α → α) (g : α → α) (index : Index α) :
    (index.update name f).modify name g = index.update name fun o => g (f o) := by
  induction index with
  | nil => rw [update, modify, if_pos rfl, update]
  | cons p rest ih =>
    obtain ⟨n, a⟩ := p
    rw [update, update]
    by_cases hn : n = name
    · rw [if_pos hn, if_pos hn, modify, if_pos hn]
    · rw [if_neg hn, if_neg hn, modify, if_neg hn, ih]

/-- What has a name may change before or after what has another. -/
theorem update_comm {name other : String} (hne : name ≠ other) (f g : Option α → α)
    {index : Index α} (h : has name index = true) :
    (index.update other g).update name f = (index.update name f).update other g := by
  induction index with
  | nil => cases h
  | cons p rest ih =>
    obtain ⟨n, a⟩ := p
    rw [update, update]
    by_cases hn : n = name
    · have ho : ¬ n = other := fun ho => hne (hn.symm.trans ho)
      rw [if_neg ho, if_pos hn, update, if_pos hn, update, if_neg ho]
    · have hrest : has name rest = true := by
        unfold has at h ⊢
        rwa [find?, if_neg hn] at h
      rw [if_neg hn]
      by_cases ho : n = other
      · rw [if_pos ho, update, if_neg hn, update, if_pos ho]
      · rw [if_neg ho, update, if_neg hn, update, if_neg ho, ih hrest]

theorem update_of_none {name : String} {index : Index α} (h : index.find? name = none)
    (f : Option α → α) : index.update name f = index ++ [(name, f none)] := by
  induction index with
  | nil => rfl
  | cons p rest ih =>
    obtain ⟨n, a⟩ := p
    rw [find?] at h
    split at h
    · cases h
    · next hn => rw [update, if_neg hn, ih h, List.cons_append]

theorem modify_of_none {name : String} {index : Index α} (h : index.find? name = none)
    (f : α → α) : index.modify name f = index := by
  induction index with
  | nil => rfl
  | cons p rest ih =>
    obtain ⟨n, a⟩ := p
    rw [find?] at h
    split at h
    · cases h
    · next hn => rw [modify, if_neg hn, ih h]

theorem modify_of_some {name : String} {index : Index α} {a : α} (h : index.find? name = some a)
    (f : α → α) : index.modify name f = index.update name fun _ => f a := by
  induction index with
  | nil => cases h
  | cons p rest ih =>
    obtain ⟨n, b⟩ := p
    rw [find?] at h
    rw [modify, update]
    split at h
    · next hn => rw [if_pos hn, if_pos hn, Option.some.inj h]
    · next hn => rw [if_neg hn, if_neg hn, ih h]

/-- A thing that is there may change before or after another is changed or put last. -/
theorem modify_update_comm {name other : String} (hne : name ≠ other) (f : α → α)
    (g : Option α → α) (index : Index α) :
    (index.update other g).modify name f = (index.modify name f).update other g := by
  have hfind : (index.update other g).find? name = index.find? name := by
    rw [find?_update, if_neg (Ne.symm hne)]
  cases h : index.find? name with
  | none => rw [modify_of_none (hfind.trans h), modify_of_none h]
  | some a =>
    have hhas : index.has name = true := by
      unfold has
      rw [h]
      rfl
    rw [modify_of_some (hfind.trans h), modify_of_some h, update_comm hne _ _ hhas]

theorem modify_modify_comm {name other : String} (hne : name ≠ other) (f g : α → α)
    (index : Index α) :
    (index.modify other g).modify name f = (index.modify name f).modify other g := by
  cases h : index.find? other with
  | none =>
    have hfind : (index.modify name f).find? other = none := by
      rw [find?_modify, if_neg hne, h]
    rw [modify_of_none h, modify_of_none hfind]
  | some a =>
    have hfind : (index.modify name f).find? other = some a := by
      rw [find?_modify, if_neg hne, h]
    rw [modify_of_some h, modify_of_some hfind, modify_update_comm hne]

/-! ## Order -/

/-- The same things in another order, of which the same count. -/
structure Reordered (index index' : Index α) : Prop where
  perm : index.Perm index'
  find? : ∀ name, index.find? name = index'.find? name

namespace Reordered

variable {index index' index'' : Index α}

theorem refl (index : Index α) : index.Reordered index := ⟨.refl _, fun _ => rfl⟩

theorem symm (h : index.Reordered index') : index'.Reordered index :=
  ⟨h.perm.symm, fun name => (h.find? name).symm⟩

theorem trans (h : index.Reordered index') (h' : index'.Reordered index'') :
    index.Reordered index'' :=
  ⟨h.perm.trans h'.perm, fun name => (h.find? name).trans (h'.find? name)⟩

theorem cons (h : index.Reordered index') (p : String × α) :
    Reordered (p :: index) (p :: index') where
  perm := h.perm.cons p
  find? name := by rw [Index.find?, Index.find?, h.find?]

end Reordered

/-- What has a name, and the other things around it. -/
theorem exists_perm_of_some {name : String} {index : Index α} {a : α}
    (h : index.find? name = some a) : ∃ rest : Index α, index.Perm ((name, a) :: rest) ∧
      ∀ f, (index.update name f).Perm ((name, f (some a)) :: rest) := by
  induction index with
  | nil => cases h
  | cons p tail ih =>
    obtain ⟨n, b⟩ := p
    rw [find?] at h
    split at h
    · next hn =>
      obtain rfl := Option.some.inj h
      subst hn
      exact ⟨tail, .refl _, fun f => by rw [update, if_pos rfl]⟩
    · next hn =>
      obtain ⟨rest, hperm, hupdate⟩ := ih h
      refine ⟨(n, b) :: rest, (hperm.cons _).trans (.swap ..), fun f => ?_⟩
      rw [update, if_neg hn]
      exact ((hupdate f).cons _).trans (.swap ..)

theorem Reordered.update {index index' : Index α} (h : index.Reordered index') (name : String)
    (f : Option α → α) : (index.update name f).Reordered (index'.update name f) where
  perm := by
    cases hfind : index.find? name with
    | none =>
      rw [update_of_none hfind, update_of_none ((h.find? name).symm.trans hfind)]
      exact h.perm.append_right _
    | some a =>
      obtain ⟨rest, hperm, hupdate⟩ := exists_perm_of_some hfind
      obtain ⟨rest', hperm', hupdate'⟩ := exists_perm_of_some ((h.find? name).symm.trans hfind)
      have hrest : rest.Perm rest' := ((hperm.symm.trans h.perm).trans hperm').cons_inv
      exact ((hupdate f).trans (hrest.cons _)).trans (hupdate' f).symm
  find? n := by rw [find?_update, find?_update, h.find?]

theorem Reordered.modify {index index' : Index α} (h : index.Reordered index') (name : String)
    (f : α → α) : (index.modify name f).Reordered (index'.modify name f) := by
  cases hfind : index.find? name with
  | none =>
    rw [modify_of_none hfind, modify_of_none ((h.find? name).symm.trans hfind)]
    exact h
  | some a =>
    rw [modify_of_some hfind, modify_of_some ((h.find? name).symm.trans hfind)]
    exact h.update name _

theorem reordered_update_update {name other : String} (hne : name ≠ other) (f g : Option α → α)
    (index : Index α) :
    ((index.update other g).update name f).Reordered ((index.update name f).update other g) where
  perm := by
    by_cases hn : index.has name = true
    · rw [update_comm hne f g hn]
    · by_cases ho : index.has other = true
      · rw [update_comm (Ne.symm hne) g f ho]
      · -- both are new, and stand last in the order of the changes
        have hname : index.find? name = none := Option.not_isSome_iff_eq_none.mp hn
        have hother : index.find? other = none := Option.not_isSome_iff_eq_none.mp ho
        have hname' : (index.update other g).find? name = none := by
          rw [find?_update, if_neg (Ne.symm hne), hname]
        have hother' : (index.update name f).find? other = none := by
          rw [find?_update, if_neg hne, hother]
        rw [update_of_none hname', update_of_none hother', update_of_none hname,
          update_of_none hother, List.append_assoc, List.append_assoc]
        exact .append_left _ (.swap ..)
  find? n := by
    rw [find?_update, find?_update, find?_update, find?_update]
    by_cases hn : name = n
    · rw [if_pos hn, if_neg (fun ho => hne (hn.trans ho.symm)), if_neg fun ho => hne (hn.trans ho.symm),
        if_pos hn]
    · rw [if_neg hn, if_neg hn]

theorem reordered_cons_cons {p q : String × α} (hne : p.1 ≠ q.1) (index : Index α) :
    Reordered (p :: q :: index) (q :: p :: index) where
  perm := .swap ..
  find? n := by
    obtain ⟨name, a⟩ := p
    obtain ⟨other, b⟩ := q
    simp only [find?]
    by_cases hn : name = n
    · rw [if_pos hn, if_pos hn, if_neg fun ho => hne (hn.trans ho.symm)]
    · rw [if_neg hn, if_neg hn]

/-! ## Names stay apart -/

end RbsSynth.Index
