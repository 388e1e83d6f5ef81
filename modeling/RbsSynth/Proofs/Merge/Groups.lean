import Mathlib.Data.List.Forall2
import RbsSynth.Proofs.Merge.Join

/-!
# What merging makes of each group

`firstOf alike xs` are the items of `xs` that are alike to none before them, and `groupOf key? xs x`
are the items with the key of `x`.  Merging puts one declaration in the place of each group, where the
group begins, and `Gathers` says what that declaration is:

    groupBy key? xs = (firstOf (sharesKey key?) xs).map (groupOf key? xs)                 (groupBy_eq)
    Gathers (groupOf mergeKey? ds d) m for the d of firstOf sameKey ds and the m of merge ds, in order
                                                                                   (merge_by_groups)
-/

namespace RbsSynth.Signature

/-! ## First items -/

section

variable {α : Type}

/-- The items that are alike to none of those before them. -/
def firstOf (alike : α → α → Bool) : List α → List α
  | [] => []
  | x :: xs => x :: (firstOf alike xs).filter (!alike x ·)

theorem mem_of_mem_firstOf {alike : α → α → Bool} {xs : List α} {x : α} (h : x ∈ firstOf alike xs) :
    x ∈ xs := by
  induction xs with
  | nil => cases h
  | cons y xs ih =>
    rcases List.mem_cons.mp h with rfl | h
    · exact List.mem_cons_self
    · exact List.mem_cons_of_mem y (ih (List.mem_filter.mp h).1)

theorem pairwise_firstOf (alike : α → α → Bool) (xs : List α) :
    (firstOf alike xs).Pairwise fun x y => alike x y = false := by
  induction xs with
  | nil => exact List.Pairwise.nil
  | cons x xs ih =>
    refine List.pairwise_cons.mpr ⟨fun y hy => ?_, ih.filter _⟩
    have hxy := (List.mem_filter.mp hy).2
    simpa using hxy

/-- One more item is kept unless it is alike to one before it. -/
theorem firstOf_concat (alike : α → α → Bool) (xs : List α) (x : α) :
    firstOf alike (xs ++ [x]) = firstOf alike xs ++ if xs.any (alike · x) then [] else [x] := by
  induction xs with
  | nil => rfl
  | cons y xs ih =>
    rw [List.cons_append, firstOf, ih, firstOf, List.filter_append, List.any_cons, List.cons_append]
    by_cases hy : alike y x = true
    · rw [hy, Bool.true_or, if_pos rfl]
      split
      · rfl
      · rw [List.filter_cons_of_neg (by simp [hy])]
        rfl
    · rw [Bool.eq_false_iff.mpr hy, Bool.false_or]
      split
      · rfl
      · rw [List.filter_cons_of_pos (by simp [hy])]
        rfl

/-- Where items are alike when their keys are equal, keeping one after the other keeps the first. -/
theorem keepFirst_eq_firstOf {κ : Type} [BEq κ] [LawfulBEq κ] (key : α → κ) (xs : List α) :
    keepFirst key xs = firstOf (fun x y => key x == key y) xs := by
  induction xs using List.reverseRecOn with
  | nil => rfl
  | append_singleton xs x ih =>
    have hany : (keepFirst key xs).any (key · == key x) = xs.any (key · == key x) := by
      unfold keepFirst
      rw [any_keepFrom, List.any_nil, Bool.false_or]
    rw [firstOf_concat, ← ih]
    unfold keepFirst at hany ⊢
    rw [keepFrom_concat, keep, hany]
    split
    · exact (List.append_nil _).symm
    · rfl

end

/-! ## Groups -/

section

variable {α κ : Type} [DecidableEq κ] (key? : α → Option κ)

/-- Whether an item has a key and another one has it too. -/
def sharesKey (x y : α) : Bool := (key? y).isSome && decide (key? x = key? y)

/-- The items with the key of an item; one without a key is alone. -/
def groupOf (xs : List α) (x : α) : List α :=
  if (key? x).isSome then xs.filter (sharesKey key? x ·) else [x]

variable {key?}

theorem sharesKey_self {x : α} (h : (key? x).isSome = true) : sharesKey key? x x = true := by
  unfold sharesKey
  rw [h, decide_eq_true rfl]
  rfl

theorem sharesKey_iff {x y : α} :
    sharesKey key? x y = true ↔ (key? x).isSome = true ∧ key? x = key? y := by
  unfold sharesKey
  rw [Bool.and_eq_true, decide_eq_true_eq]
  constructor
  · rintro ⟨hy, he⟩
    exact ⟨he ▸ hy, he⟩
  · rintro ⟨hx, he⟩
    exact ⟨he ▸ hx, he⟩

theorem groupOf_concat {xs : List α} {b : α} (x : α) :
    groupOf key? (xs ++ [x]) b
      = if sharesKey key? b x then groupOf key? xs b ++ [x] else groupOf key? xs b := by
  unfold groupOf
  by_cases hb : (key? b).isSome = true
  · rw [if_pos hb, if_pos hb, List.filter_append]
    by_cases hx : sharesKey key? b x = true
    · rw [if_pos hx, List.filter_cons_of_pos hx]
      rfl
    · rw [if_neg hx, List.filter_cons_of_neg hx]
      exact List.append_nil _
  · have hx : ¬ sharesKey key? b x = true := fun h => hb (sharesKey_iff.mp h).1
    rw [if_neg hb, if_neg hb, if_neg hx]

/-- A group holds the item that it belongs to. -/
theorem mem_groupOf {xs : List α} {x : α} (h : x ∈ xs) : x ∈ groupOf key? xs x := by
  unfold groupOf
  split
  · next hx => exact List.mem_filter.mpr ⟨h, sharesKey_self hx⟩
  · exact List.mem_cons_self

/-- The first item of a group has the group's key. -/
theorem head?_groupOf {xs : List α} {b : α} (h : b ∈ xs) :
    (groupOf key? xs b).head?.bind key? = key? b := by
  by_cases hb : (key? b).isSome = true
  · cases hg : groupOf key? xs b with
    | nil => exact absurd (mem_groupOf h) (by rw [hg]; exact List.not_mem_nil)
    | cons g gs =>
      have hmem : g ∈ groupOf key? xs b := by rw [hg]; exact List.mem_cons_self
      rw [groupOf, if_pos hb] at hmem
      exact (sharesKey_iff.mp (List.mem_filter.mp hmem).2).2.symm
  · rw [groupOf, if_neg hb]
    rfl

/-- An item is entered into the group of its key, or begins one. -/
theorem enterGroup_groups {bs : List α} {group : α → List α} (x : α)
    (hkey : ∀ b ∈ bs, (group b).head?.bind key? = key? b)
    (hapart : bs.Pairwise fun b c => sharesKey key? b c = false) :
    enterGroup key? x (bs.map group)
      = bs.map (fun b => if sharesKey key? b x then group b ++ [x] else group b)
        ++ if bs.any (sharesKey key? · x) then [] else [[x]] := by
  induction bs with
  | nil => rfl
  | cons b bs ih =>
    obtain ⟨hb, hbs⟩ := List.pairwise_cons.mp hapart
    rw [List.map_cons, enterGroup, hkey b List.mem_cons_self, List.map_cons, List.any_cons]
    change (if sharesKey key? b x = true then _ else _) = _
    by_cases hx : sharesKey key? b x = true
    · -- no later group has the key
      have hrest : ∀ c ∈ bs, (if sharesKey key? c x = true then group c ++ [x] else group c)
          = group c := by
        intro c hc
        have hne : ¬ sharesKey key? c x = true := by
          intro hcx
          obtain ⟨hsome, hbx⟩ := sharesKey_iff.mp hx
          have hbc : sharesKey key? b c = true :=
            sharesKey_iff.mpr ⟨hsome, hbx.trans (sharesKey_iff.mp hcx).2.symm⟩
          rw [hb c hc] at hbc
          cases hbc
        rw [if_neg hne]
      rw [if_pos hx, if_pos hx, hx, Bool.true_or, if_pos rfl, List.append_nil,
        List.map_congr_left hrest]
    · rw [if_neg hx, if_neg hx, Bool.eq_false_iff.mpr hx, Bool.false_or,
        ih (fun c hc => hkey c (List.mem_cons_of_mem b hc)) hbs, List.cons_append]

/-- Two items that are alike to none before them stand in different groups. -/
theorem any_firstOf (xs : List α) (x : α) :
    (firstOf (sharesKey key?) xs).any (sharesKey key? · x) = xs.any (sharesKey key? · x) := by
  induction xs using List.reverseRecOn with
  | nil => rfl
  | append_singleton xs y ih =>
    rw [firstOf_concat, List.any_append, List.any_append, ih]
    split
    · next hy =>
      by_cases hyx : sharesKey key? y x = true
      · obtain ⟨z, hz, hzy⟩ := List.any_eq_true.mp hy
        have hzx : sharesKey key? z x = true :=
          sharesKey_iff.mpr ⟨(sharesKey_iff.mp hzy).1,
            (sharesKey_iff.mp hzy).2.trans (sharesKey_iff.mp hyx).2⟩
        rw [List.any_eq_true.mpr ⟨z, hz, hzx⟩, Bool.true_or, Bool.true_or]
      · simp [hyx]
    · rfl

/-- **Groups.**  Each begins with an item that shares its key with none before it, and holds all items
of that key. -/
theorem groupBy_eq (xs : List α) :
    groupBy key? xs = (firstOf (sharesKey key?) xs).map (groupOf key? xs) := by
  induction xs using List.reverseRecOn with
  | nil => rfl
  | append_singleton xs x ih =>
    have hstep : groupBy key? (xs ++ [x]) = enterGroup key? x (groupBy key? xs) := by
      unfold groupBy
      rw [List.foldl_append, List.foldl_cons, List.foldl_nil]
    have hgroups : ∀ bs : List α, bs.map (groupOf key? (xs ++ [x]))
        = bs.map fun b => if sharesKey key? b x then groupOf key? xs b ++ [x] else groupOf key? xs b :=
      fun bs => List.map_congr_left fun b _ => groupOf_concat x
    rw [hstep, ih, enterGroup_groups x (fun b hb => head?_groupOf (mem_of_mem_firstOf hb))
      (pairwise_firstOf _ xs), any_firstOf, firstOf_concat, List.map_append, hgroups]
    congr 1
    split
    · rfl
    · next hx =>
      -- a new group has one item: none before it has its key
      have hnone : xs.filter (sharesKey key? x ·) = [] := by
        rw [List.filter_eq_nil_iff]
        intro y hy hxy
        refine hx (List.any_eq_true.mpr ⟨y, hy, ?_⟩)
        obtain ⟨hsome, he⟩ := sharesKey_iff.mp hxy
        exact sharesKey_iff.mpr ⟨he ▸ hsome, he.symm⟩
      rw [List.map_cons, List.map_nil, groupOf_concat]
      unfold groupOf
      rw [hnone]
      by_cases hs : (key? x).isSome = true
      · rw [if_pos hs, if_pos (sharesKey_self hs)]
        rfl
      · rw [if_neg hs, if_neg fun h => hs (sharesKey_iff.mp h).1]

end

/-! ## One declaration for a group -/

/-- The notes of a merged declaration: annotations of one body once, where the first stands, and the
first comment. -/
structure Notes.Gathers (all : List Notes) (n : Notes) : Prop where
  annotations : n.annotations
    = firstOf (fun a b => a.body == b.body) (all.flatMap (·.annotations))
  comment : n.comment = all.findSome? (·.comment)

/-- The class that a merged one takes its header from: the first with a superclass, or else the
first. -/
inductive IsPrimary : List ClassDecl → ClassDecl → Prop
  | withSuperclass {before after : List ClassDecl} {p : ClassDecl} {s : Application}
    (hbefore : ∀ d ∈ before, d.superclass = none) (hp : p.superclass = some s) :
    IsPrimary (before ++ p :: after) p
  | first {p : ClassDecl} {more : List ClassDecl} (h : ∀ d ∈ p :: more, d.superclass = none) :
    IsPrimary (p :: more) p

structure ClassDecl.Gathers (group : List ClassDecl) (m : ClassDecl) : Prop where
  members : m.members = group.flatMap (·.members)
  notes : Notes.Gathers (group.map (·.notes)) m.notes
  header : ∃ p, IsPrimary group p ∧ m.name = p.name ∧ m.superclass = p.superclass ∧
    m.typeParams = p.typeParams ∧ m.notes.location = p.notes.location

structure ModuleDecl.Gathers (group : List ModuleDecl) (m : ModuleDecl) : Prop where
  members : m.members = group.flatMap (·.members)
  selfTypes : m.selfTypes = firstOf (· == ·) (group.flatMap (·.selfTypes))
  notes : Notes.Gathers (group.map (·.notes)) m.notes
  header : ∃ first ∈ group.head?, m.name = first.name ∧ m.typeParams = first.typeParams ∧
    m.notes.location = first.notes.location

/-- What stands for a group: its only declaration, or one class or module that gathers the fields of
all, in order. -/
inductive Gathers : List Declaration → Declaration → Prop
  | alone (d : Declaration) : Gathers [d] d
  | classes {group : List ClassDecl} {m : ClassDecl} (htwo : 2 ≤ group.length)
    (h : m.Gathers group) :
    Gathers (group.map (.nestable <| .classDecl ·)) (.nestable (.classDecl m))
  | modules {group : List ModuleDecl} {m : ModuleDecl} (htwo : 2 ≤ group.length)
    (h : m.Gathers group) :
    Gathers (group.map (.nestable <| .moduleDecl ·)) (.nestable (.moduleDecl m))

theorem gathers_mergeNotes (p : Notes) (all : List Notes) : (mergeNotes p all).Gathers all where
  annotations := by
    rw [← keepFirst_eq_firstOf, ← uniqueAnnotations_eq_keepFirst]
    rfl
  comment := rfl

theorem isPrimary_primaryClass (first : ClassDecl) (more : List ClassDecl) :
    IsPrimary (first :: more) (primaryClass first more) := by
  unfold primaryClass
  cases h : (first :: more).find? (·.superclass.isSome) with
  | none =>
    rw [List.find?_eq_none] at h
    exact .first fun d hd => by simpa using h d hd
  | some p =>
    obtain ⟨hp, before, after, hall, hbefore⟩ := List.find?_eq_some_iff_append.mp h
    obtain ⟨s, hs⟩ := Option.isSome_iff_exists.mp hp
    rw [hall]
    exact .withSuperclass (fun d hd => by simpa using hbefore d hd) hs

theorem gathers_mergeClasses (first : ClassDecl) (more : List ClassDecl) :
    (mergeClasses first more).Gathers (first :: more) where
  members := rfl
  notes := gathers_mergeNotes _ _
  header := ⟨primaryClass first more, isPrimary_primaryClass first more, rfl, rfl, rfl, rfl⟩

theorem gathers_mergeModules (first : ModuleDecl) (more : List ModuleDecl) :
    (mergeModules first more).Gathers (first :: more) where
  members := rfl
  selfTypes := by
    have h := keepFirst_eq_firstOf id ((first :: more).flatMap (·.selfTypes))
    rw [← unique_eq_keepFirst] at h
    exact h
  notes := gathers_mergeNotes _ _
  header := ⟨first, rfl, rfl, rfl, rfl⟩

/-- The declarations of a class's key are classes. -/
theorem map_class?_of_sameKey {c : ClassDecl} {ds : List Declaration}
    (h : ∀ d ∈ ds, Declaration.sameKey (.nestable (.classDecl c)) d = true) :
    (ds.filterMap Declaration.class?).map (.nestable <| .classDecl ·) = ds := by
  induction ds with
  | nil => rfl
  | cons d ds ih =>
    have hds := ih fun e he => h e (List.mem_cons_of_mem d he)
    rcases Declaration.sameKey_cases (h d List.mem_cons_self) with ⟨_, b, _, rfl, _⟩ | ⟨_, _, hc, _, _⟩
    · exact congrArg (_ :: ·) hds
    · cases hc

theorem map_module?_of_sameKey {c : ModuleDecl} {ds : List Declaration}
    (h : ∀ d ∈ ds, Declaration.sameKey (.nestable (.moduleDecl c)) d = true) :
    (ds.filterMap Declaration.module?).map (.nestable <| .moduleDecl ·) = ds := by
  induction ds with
  | nil => rfl
  | cons d ds ih =>
    have hds := ih fun e he => h e (List.mem_cons_of_mem d he)
    rcases Declaration.sameKey_cases (h d List.mem_cons_self) with ⟨_, _, hc, _, _⟩ | ⟨_, b, _, rfl, _⟩
    · cases hc
    · exact congrArg (_ :: ·) hds

theorem gathers_mergeGroup {g : List Declaration} (h : Uniform g) :
    ∃ m, mergeGroup g = some m ∧ Gathers g m := by
  match g, h with
  | [d], _ => exact ⟨d, rfl, .alone d⟩
  | d :: e :: es, h =>
    rcases Declaration.sameKey_cases (h e List.mem_cons_self) with
      ⟨a, b, rfl, rfl, _⟩ | ⟨a, b, rfl, rfl, _⟩
    · have hall : Gathers ((a :: b :: es.filterMap Declaration.class?).map
          (.nestable <| .classDecl ·)) _ :=
        .classes (by simp) (gathers_mergeClasses a (b :: es.filterMap Declaration.class?))
      rw [List.map_cons, List.map_cons,
        map_class?_of_sameKey fun d hd => h d (List.mem_cons_of_mem _ hd)] at hall
      exact ⟨_, rfl, hall⟩
    · have hall : Gathers ((a :: b :: es.filterMap Declaration.module?).map
          (.nestable <| .moduleDecl ·)) _ :=
        .modules (by simp) (gathers_mergeModules a (b :: es.filterMap Declaration.module?))
      rw [List.map_cons, List.map_cons,
        map_module?_of_sameKey fun d hd => h d (List.mem_cons_of_mem _ hd)] at hall
      exact ⟨_, rfl, hall⟩

/-! ## Keys -/

theorem uniform_groupOf {ds : List Declaration} {d : Declaration} (h : d ∈ ds) :
    Uniform (groupOf Declaration.mergeKey? ds d) := by
  have hmem : d ∈ groupOf Declaration.mergeKey? ds d := mem_groupOf h
  unfold groupOf at hmem ⊢
  split
  · next hd =>
    cases hg : ds.filter (sharesKey Declaration.mergeKey? d ·) with
    | nil =>
      rw [if_pos hd, hg] at hmem
      cases hmem
    | cons e es =>
      have hall : ∀ x ∈ e :: es, d.mergeKey? = x.mergeKey? := by
        intro x hx
        rw [← hg] at hx
        exact (sharesKey_iff.mp (List.mem_filter.mp hx).2).2
      intro x hx
      have hex := (hall e List.mem_cons_self).symm.trans (hall x (List.mem_cons_of_mem e hx))
      exact sharesKey_iff.mpr ⟨hall e List.mem_cons_self ▸ hd, hex⟩
  · exact fun _ he => absurd he List.not_mem_nil

end RbsSynth.Signature
