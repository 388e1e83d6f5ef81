import RbsSynth.Proofs.Environment.Registered
import RbsSynth.Proofs.Merge.Concatenation

/-!
# Visibility in merged declarations

A `public` or `private` among the members of a declaration is in force for those behind it; before the
first one `public` is.  A merged declaration has the members of its group, one declaration behind the
other, so what is in force at the end of one declaration reaches into the next, as far as the first
mark there:

    m.members = membersOf k before ++ d.members ++ membersOf k after               (members_merge)
    a member of d keeps its visibility in m
      if and only if a mark of d stands before it or `public` is in force after membersOf k before
                                                                              (effective?_merge)
-/

namespace RbsSynth.Signature

/-! ## What is in force -/

/-- What a member puts in force for those behind it. -/
def Member.mark? : Member → Option Visibility
  | .visibility m => some m.visibility
  | _ => none

/-- The last mark among some members. -/
def lastMark? (ms : List Member) : Option Visibility := (ms.filterMap Member.mark?).getLast?

/-- What is in force behind some members. -/
def inForce (ms : List Member) : Visibility := (lastMark? ms).getD .toPublic

/-- Whether a member is a method or an attribute. -/
def Member.isCallable : Member → Bool
  | .method _ | .attribute _ => true
  | _ => false

/-- The visibility of the method or attribute at a place among some members. -/
def effective? (ms : List Member) (i : Nat) : Option Visibility :=
  match ms[i]? with
  | some m => if m.isCallable then some (inForce (ms.take i)) else none
  | none => none

theorem lastMark?_append (xs ys : List Member) :
    lastMark? (xs ++ ys) = (lastMark? ys).or (lastMark? xs) := by
  unfold lastMark?
  rw [List.filterMap_append, List.getLast?_append]

/-- What is in force before some members counts until their first mark. -/
theorem inForce_append (xs ys : List Member) :
    inForce (xs ++ ys) = (lastMark? ys).getD (inForce xs) := by
  unfold inForce
  rw [lastMark?_append]
  cases lastMark? ys with
  | some v => rfl
  | none => rfl

theorem effective?_eq_some {ms : List Member} {i : Nat} {v : Visibility} :
    effective? ms i = some v ↔
      ∃ m, ms[i]? = some m ∧ m.isCallable = true ∧ inForce (ms.take i) = v := by
  unfold effective?
  cases ms[i]? with
  | none => simp
  | some m =>
    by_cases hm : m.isCallable = true
    · simp [hm]
    · simp [hm]

/-- The visibility of a member in the middle of three lists. -/
theorem effective?_append (xs ms ys : List Member) {i : Nat} {v : Visibility}
    (h : effective? ms i = some v) :
    effective? (xs ++ ms ++ ys) (xs.length + i)
      = some ((lastMark? (ms.take i)).getD (inForce xs)) := by
  obtain ⟨m, hm, hcall, _⟩ := effective?_eq_some.mp h
  have hi : i < ms.length := by
    by_contra hge
    rw [List.getElem?_eq_none (by omega)] at hm
    cases hm
  have hget : (xs ++ ms ++ ys)[xs.length + i]? = some m := by
    rw [List.append_assoc, List.getElem?_append_right (by omega), Nat.add_sub_cancel_left,
      List.getElem?_append_left hi]
    exact hm
  have htake : (xs ++ ms ++ ys).take (xs.length + i) = xs ++ ms.take i := by
    rw [List.append_assoc, List.take_length_add_append,
      List.take_append_of_le_length (Nat.le_of_lt hi)]
  refine effective?_eq_some.mpr ⟨m, hget, hcall, ?_⟩
  rw [htake, inForce_append]

/-! ## Members of a group -/

/-- The members of all declarations with a key, in order. -/
def membersOf (k : MergeKey) (ds : List Declaration) : List Member :=
  (ds.filter (·.mergeKey? = some k)).flatMap Declaration.members

theorem membersOf_append (k : MergeKey) (ds es : List Declaration) :
    membersOf k (ds ++ es) = membersOf k ds ++ membersOf k es := by
  unfold membersOf
  rw [List.filter_append, List.flatMap_append]

theorem membersOf_cons_of_eq {k : MergeKey} {d : Declaration} (h : d.mergeKey? = some k)
    (ds : List Declaration) : membersOf k (d :: ds) = d.members ++ membersOf k ds := by
  unfold membersOf
  rw [List.filter_cons_of_pos (by simpa using h), List.flatMap_cons]

theorem membersOf_cons_of_ne {k : MergeKey} {d : Declaration} (h : d.mergeKey? ≠ some k)
    (ds : List Declaration) : membersOf k (d :: ds) = membersOf k ds := by
  unfold membersOf
  rw [List.filter_cons_of_neg (by simpa using h)]

theorem members_join {d e : Declaration} (h : d.sameKey e = true) :
    (d.join e).members = d.members ++ e.members := by
  rcases Declaration.sameKey_cases h with ⟨a, b, rfl, rfl, _⟩ | ⟨a, b, rfl, rfl, _⟩
  · show a.members ++ (b.members ++ []) = a.members ++ b.members
    rw [List.append_nil]
  · show a.members ++ (b.members ++ []) = a.members ++ b.members
    rw [List.append_nil]

theorem sameKey_of_mergeKey? {d e : Declaration} {k : MergeKey} (hd : d.mergeKey? = some k)
    (he : e.mergeKey? = some k) : d.sameKey e = true := by
  simp [Declaration.sameKey, hd, he]

theorem mergeKey?_eq_of_sameKey {d e : Declaration} (h : d.sameKey e = true) :
    d.mergeKey? = e.mergeKey? := by
  unfold Declaration.sameKey at h
  rw [Bool.and_eq_true, decide_eq_true_eq] at h
  exact h.2

/-- Where no two declarations have one key, one with a key has all members of that key. -/
theorem membersOf_eq_of_apart {k : MergeKey} {ds : List Declaration} (h : Apart ds)
    {m : Declaration} (hm : m ∈ ds) (hk : m.mergeKey? = some k) : membersOf k ds = m.members := by
  induction ds with
  | nil => cases hm
  | cons d ds ih =>
    obtain ⟨hd, hds⟩ := List.pairwise_cons.mp h
    rcases List.mem_cons.mp hm with rfl | hm
    · have hrest : membersOf k ds = [] := by
        unfold membersOf
        rw [List.filter_eq_nil_iff.mpr fun e he hke => ?_, List.flatMap_nil]
        have hsame := sameKey_of_mergeKey? hk (of_decide_eq_true hke)
        rw [hd e he] at hsame
        cases hsame
      rw [membersOf_cons_of_eq hk, hrest, List.append_nil]
    · have hne : d.mergeKey? ≠ some k := by
        intro hdk
        have hsame := sameKey_of_mergeKey? hdk hk
        rw [hd m hm] at hsame
        cases hsame
      rw [membersOf_cons_of_ne hne]
      exact ih hds hm

/-- The step: a declaration brings its members behind those of its key. -/
theorem membersOf_joinInto (k : MergeKey) {acc : List Declaration} (h : Apart acc)
    (d : Declaration) : membersOf k (joinInto acc d) = membersOf k (acc ++ [d]) := by
  induction acc with
  | nil => rfl
  | cons a acc ih =>
    obtain ⟨ha, hacc⟩ := List.pairwise_cons.mp h
    rw [joinInto, List.cons_append]
    by_cases hs : a.sameKey d = true
    · rw [if_pos hs]
      have hkey := mergeKey?_eq_of_sameKey hs
      by_cases hk : a.mergeKey? = some k
      · have hnone : membersOf k acc = [] := by
          have hall := membersOf_eq_of_apart h List.mem_cons_self hk
          rw [membersOf_cons_of_eq hk] at hall
          exact List.append_right_eq_self.mp hall
        have hd : membersOf k [d] = d.members := by
          rw [membersOf_cons_of_eq (hkey.symm.trans hk)]
          exact List.append_nil _
        rw [membersOf_cons_of_eq ((Declaration.mergeKey?_join hs).trans hk),
          membersOf_cons_of_eq hk, members_join hs, membersOf_append, hnone, hd, List.append_nil,
          List.nil_append]
      · have hd : d.mergeKey? ≠ some k := fun hd => hk (hkey.trans hd)
        rw [membersOf_cons_of_ne fun hj => hk ((Declaration.mergeKey?_join hs).symm.trans hj),
          membersOf_cons_of_ne hk, membersOf_append, membersOf_cons_of_ne hd]
        exact (List.append_nil _).symm
    · rw [if_neg hs]
      by_cases hk : a.mergeKey? = some k
      · rw [membersOf_cons_of_eq hk, membersOf_cons_of_eq hk, ih hacc]
      · rw [membersOf_cons_of_ne hk, membersOf_cons_of_ne hk, ih hacc]

/-- Merging keeps the members of every key and their order. -/
theorem membersOf_merge (k : MergeKey) (ds : List Declaration) :
    membersOf k (merge ds) = membersOf k ds := by
  induction ds using List.reverseRecOn with
  | nil => rfl
  | append_singleton ds d ih =>
    rw [merge_append_eq_foldl, List.foldl_cons, List.foldl_nil,
      membersOf_joinInto k (apart_merge ds), membersOf_append, membersOf_append, ih]

theorem exists_mem_merge {ds : List Declaration} {d : Declaration} (hd : d ∈ ds) {k : MergeKey}
    (hk : d.mergeKey? = some k) : ∃ m ∈ merge ds, m.mergeKey? = some k := by
  have key : (merge ds).any (·.sameKey d) = true := by
    obtain ⟨before, after, rfl⟩ := List.append_of_mem hd
    rw [merge_append_eq_foldl, List.foldl_cons]
    have hrest : ∀ (es acc : List Declaration), acc.any (·.sameKey d) = true →
        (es.foldl joinInto acc).any (·.sameKey d) = true := by
      intro es
      induction es with
      | nil => exact fun _ h => h
      | cons e es ih => exact fun acc h => ih _ (any_joinInto e h)
    exact hrest after _ (any_joinInto_self _ (sameKey_of_mergeKey? hk hk))
  obtain ⟨m, hm, hs⟩ := List.any_eq_true.mp key
  exact ⟨m, hm, (mergeKey?_eq_of_sameKey hs).trans hk⟩

/-- The merged declaration of a key has the members of a declaration between those of the
declarations before and after it. -/
theorem members_merge {before after : List Declaration} {d : Declaration} {k : MergeKey}
    (hd : d.mergeKey? = some k) {m : Declaration} (hm : m ∈ merge (before ++ d :: after))
    (hk : m.mergeKey? = some k) :
    m.members = membersOf k before ++ d.members ++ membersOf k after := by
  rw [← membersOf_eq_of_apart (apart_merge _) hm hk, membersOf_merge, membersOf_append,
    membersOf_cons_of_eq hd, List.append_assoc]

/-! ## Top theorem -/

/-- **Visibility after merging.**  A class or module comes out as one declaration, with its members
between those of the declarations before and after it; there a method or attribute has the visibility
of the last mark before it in its own declaration, or else what is in force after the declarations
before its own.  So it keeps its visibility exactly when it has such a mark, or those leave `public`
in force. -/
theorem effective?_merge (before after : List Declaration) (d : Declaration) (k : MergeKey)
    (hd : d.mergeKey? = some k) :
    ∃ m ∈ merge (before ++ d :: after), m.mergeKey? = some k ∧
      (∀ m' ∈ merge (before ++ d :: after), m'.mergeKey? = some k → m'.members = m.members) ∧
      m.members = membersOf k before ++ d.members ++ membersOf k after ∧
      ∀ i v, effective? d.members i = some v →
        effective? m.members ((membersOf k before).length + i)
            = some ((lastMark? (d.members.take i)).getD (inForce (membersOf k before))) ∧
          (effective? m.members ((membersOf k before).length + i) = some v ↔
            (lastMark? (d.members.take i)).isSome = true ∨
              inForce (membersOf k before) = .toPublic) := by
  have hmem : d ∈ before ++ d :: after := by simp
  obtain ⟨m, hm, hk⟩ := exists_mem_merge hmem hd
  have hmembers := members_merge hd hm hk
  refine ⟨m, hm, hk, fun m' hm' hk' => (members_merge hd hm' hk').trans hmembers.symm, hmembers,
    fun i v hv => ?_⟩
  have heff := effective?_append (membersOf k before) d.members (membersOf k after) hv
  rw [hmembers]
  refine ⟨heff, ?_⟩
  obtain ⟨_, _, _, hforce⟩ := effective?_eq_some.mp hv
  have hown : (lastMark? (d.members.take i)).getD .toPublic = v := hforce
  rw [heff, Option.some.injEq, ← hown]
  cases lastMark? (d.members.take i) with
  | some w => simp
  | none => simp

/-! ## A mark that reaches into the next declaration -/

/-- A method that takes nothing. -/
def bareMethod (name : String) : Member :=
  .method { name, overloads := [⟨.returning (.base .void), none, []⟩] }

/-- A class `A` with a private method. -/
def closedClass : Declaration :=
  .nestable (.classDecl ⟨{ name := "A" }, [], none,
    [.visibility ⟨.toPrivate, none⟩, bareMethod "a"], {}⟩)

/-- A class `A` with a public method. -/
def openClass : Declaration :=
  .nestable (.classDecl ⟨{ name := "A" }, [], none, [bareMethod "b"], {}⟩)

/-- Every method and attribute keeps its visibility when its declaration is merged. -/
def KeepsVisibility : Prop :=
  ∀ (before after : List Declaration) (d : Declaration) (k : MergeKey), d.mergeKey? = some k →
    ∀ m ∈ merge (before ++ d :: after), m.mergeKey? = some k →
      ∀ i v, effective? d.members i = some v →
        effective? m.members ((membersOf k before).length + i) = some v

/-- The `private` of one class reaches a method of the next. -/
theorem not_keepsVisibility : ¬ KeepsVisibility := by
  intro h
  have hm : ∃ m, merge [closedClass, openClass] = [m] ∧ m.mergeKey? = some (.ofClass "A") ∧
      effective? m.members 2 = some .toPrivate := ⟨_, rfl, by decide, by decide⟩
  obtain ⟨m, hmerge, hkey, heff⟩ := hm
  have hin : m ∈ merge ([closedClass] ++ openClass :: []) := by
    rw [List.singleton_append, hmerge]
    exact List.mem_singleton.mpr rfl
  have hkept := h [closedClass] [] openClass (.ofClass "A") (by decide) m hin hkey 0 .toPublic
    (by decide)
  have hplace : (membersOf (.ofClass "A") [closedClass]).length + 0 = 2 := by decide
  rw [hplace, heff] at hkept
  cases hkept

/-- The two classes, in the other order: both methods keep their visibility. -/
theorem effective?_merge_open_first :
    openClass.mergeKey? = some (.ofClass "A") ∧
      ∃ m ∈ merge [openClass, closedClass], ∀ i v, effective? openClass.members i = some v →
        effective? m.members i = some v := by
  refine ⟨by decide, ?_⟩
  obtain ⟨m, hm, _, _, _, heff⟩ :=
    effective?_merge [] [closedClass] openClass (.ofClass "A") (by decide)
  refine ⟨m, hm, fun i v hv => ?_⟩
  have hplace : (membersOf (.ofClass "A") []).length + i = i := by
    rw [show (membersOf (.ofClass "A") []).length = 0 from rfl, Nat.zero_add]
  have hkept := (heff i v hv).2.mpr (.inr (by decide))
  rw [hplace] at hkept
  exact hkept

end RbsSynth.Signature
