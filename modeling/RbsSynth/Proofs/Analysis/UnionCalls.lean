import RbsSynth.Proofs.Analysis.UnionLaws
import RbsSynth.Proofs.Environment.Reached

/-!
# Calls on unions

A call on a union is looked up on each member by itself.  It is matched when every member `Accepts` it
and absent when one does not, and the declarations behind it are those of the members, each once:

    matchAll? of some types  =  their single matches, if each has one               (matchAll_eq)
    the members in another order  →  the same kind, the declarations in another order, and a result
                                     with the same members                   (resolveCall_union)
-/

namespace RbsSynth.Analysis

open Signature

/-- A member of a receiver's type has the method, with an overload that takes the arguments. -/
def Accepts (env : Environment) (method : String) (args : Arguments) (t : TypeExpr) : Prop :=
  ∃ name side e, lookupOf t = some (name, side) ∧ env.findMethod? name method side = some e ∧
    ∃ m ∈ e.overloads, takes args m = true

/-- The method of a member, with the first of its overloads that takes the arguments. -/
structure Answers (env : Environment) (method : String) (args : Arguments) (t : TypeExpr)
    (m : Match) : Prop where
  member : m.member = t
  found : ∃ name side, lookupOf t = some (name, side) ∧
    env.findMethod? name method side = some m.entry
  first : ∃ before after, m.entry.overloads = before ++ m.overload :: after ∧
    takes args m.overload = true ∧ ∀ o ∈ before, takes args o = false

variable {env : Environment} {method : String} {args : Arguments} {t : TypeExpr}

/-! ## Single members -/

theorem answers_of_matchMember {m : Match} (h : matchMember? env method args t = some m) :
    Answers env method args t m := by
  simp only [matchMember?, Option.bind_eq_bind, Option.bind_eq_some_iff] at h
  obtain ⟨⟨name, side⟩, hname, e, he, o, ho, hm⟩ := h
  obtain rfl := Option.some.inj hm
  obtain ⟨htakes, before, after, hsplit, hbefore⟩ := List.find?_eq_some_iff_append.mp ho
  refine ⟨rfl, ⟨name, side, hname, he⟩, before, after, hsplit, htakes, ?_⟩
  intro o ho
  simpa using hbefore o ho

theorem isSome_matchMember_iff :
    (matchMember? env method args t).isSome = true ↔ Accepts env method args t := by
  constructor
  · intro h
    obtain ⟨m, hm⟩ := Option.isSome_iff_exists.mp h
    obtain ⟨-, ⟨name, side, hname, he⟩, before, after, hsplit, htakes, -⟩ :=
      answers_of_matchMember hm
    exact ⟨name, side, m.entry, hname, he, m.overload, by simp [hsplit], htakes⟩
  · rintro ⟨name, side, e, hname, he, o, ho, htakes⟩
    have hfind : (e.overloads.find? (takes args)).isSome = true :=
      List.find?_isSome.mpr ⟨o, ho, htakes⟩
    obtain ⟨p, hp⟩ := Option.isSome_iff_exists.mp hfind
    simp [matchMember?, hname, he, hp]

/-! ## All members -/

/-- The matches of all members are their single matches. -/
theorem matchAll_eq (ts : List TypeExpr) : matchAll? env method args ts =
    if ts.all (fun t => (matchMember? env method args t).isSome) then
      some (ts.filterMap (matchMember? env method args)) else none := by
  induction ts with
  | nil => rfl
  | cons t ts ih =>
    rw [matchAll?, ih]
    cases ht : matchMember? env method args t with
    | none => simp [ht]
    | some m =>
      rw [List.filterMap_cons_some ht, List.all_cons, ht]
      by_cases hall : ts.all (fun t => (matchMember? env method args t).isSome) = true
      · simp [hall]
      · simp [hall]

theorem forall₂_answers {ts : List TypeExpr} (h : ∀ t ∈ ts, Accepts env method args t) :
    List.Forall₂ (Answers env method args) ts (ts.filterMap (matchMember? env method args)) := by
  induction ts with
  | nil => exact .nil
  | cons t ts ih =>
    have ht := isSome_matchMember_iff.mpr (h t List.mem_cons_self)
    obtain ⟨m, hm⟩ := Option.isSome_iff_exists.mp ht
    rw [List.filterMap_cons_some hm]
    exact .cons (answers_of_matchMember hm) (ih fun u hu => h u (List.mem_cons_of_mem t hu))

theorem declarationsOf_eq (ms : List Match) : declarationsOf ms = unique (ms.map Match.declaration) := by
  unfold declarationsOf unique
  rw [List.foldl_map]

/-- The declarations of the members, each where it comes first. -/
theorem declarationsOf_eq_firstOf (ms : List Match) :
    declarationsOf ms = firstOf (· == ·) (ms.map Match.declaration) := by
  rw [declarationsOf_eq, unique_eq_firstOf]

theorem declarationsOf_perm {ms ms' : List Match} (h : ms.Perm ms') :
    (declarationsOf ms).Perm (declarationsOf ms') := by
  rw [declarationsOf_eq, declarationsOf_eq]
  exact unique_perm (h.map _)

theorem resultType_perm {ms ms' : List Match} (h : ms.Perm ms') :
    SameMembers (resultType env method ms) (resultType env method ms') := unionOf_perm (h.map _)

/-! ## Calls -/

/-- Every member takes the call. -/
theorem resolveCall_of_accepted {ts : List TypeExpr} (hr : receiverTypes? t = some ts) (hne : ts ≠ [])
    (hall : ∀ t ∈ ts, Accepts env method args t) :
    ∃ r, resolveCall env method (some t) args
        = .ok (r, ts.filterMap (matchMember? env method args)) ∧ r.kind = .ofMatched ∧
      r.declarations = declarationsOf (ts.filterMap (matchMember? env method args)) := by
  have hmatch : matchAll? env method args ts = some (ts.filterMap (matchMember? env method args)) := by
    rw [matchAll_eq, if_pos]
    exact List.all_eq_true.mpr fun t ht => isSome_matchMember_iff.mpr (hall t ht)
  have hsome : declarationsOf (ts.filterMap (matchMember? env method args)) ≠ [] := by
    apply declarationsOf_ne_nil
    intro hnil
    have hlength := (forall₂_answers hall).length_eq
    rw [hnil] at hlength
    exact hne (List.length_eq_zero_iff.mp hlength)
  obtain ⟨d, ds, hds⟩ := List.exists_cons_of_ne_nil hsome
  refine ⟨.matched method d ds, ?_, rfl, hds.symm⟩
  rw [resolveCall, Option.bind_some, hr]
  simp only [hmatch, hds]
  rfl

/-- A member does not take the call. -/
theorem resolveCall_of_refused {ts : List TypeExpr} (hr : receiverTypes? t = some ts)
    (hnot : ¬ ∀ t ∈ ts, Accepts env method args t) :
    resolveCall env method (some t) args = .ok (.absent method, []) := by
  have hmatch : matchAll? env method args ts = none := by
    rw [matchAll_eq, if_neg]
    intro hall
    exact hnot fun t ht => isSome_matchMember_iff.mp (List.all_eq_true.mp hall t ht)
  rw [resolveCall, Option.bind_some, hr]
  simp only [hmatch]

/-- Methods are looked up on the members of a union. -/
theorem receiverTypes_union {ts : List TypeExpr} (h : Resolved AnyName (.union ts)) :
    receiverTypes? (.union ts) = some ts := h.isReceiver.receiverTypes

theorem resolved_union_perm {ts us : List TypeExpr} (h : Resolved AnyName (.union ts))
    (hperm : ts.Perm us) : Resolved AnyName (.union us) := by
  cases h with
  | union hlen hnodup hts hflat =>
    exact .union (hperm.length_eq ▸ hlen) (hperm.nodup_iff.mp hnodup)
      (fun u hu => hts u (hperm.mem_iff.mpr hu)) fun u hu => hflat u (hperm.mem_iff.mpr hu)

/-- **Calls on a union.**  The call is matched if every member accepts it and absent otherwise.  A
matched call has the declarations of its members, each once and in their order.  With the members in
another order the kind is the same, and the declarations and the members of the result are at most in
another order. -/
theorem resolveCall_union (env : Environment) (method : String) (args : Arguments)
    {ts us : List TypeExpr} (h : Resolved AnyName (.union ts)) (hperm : ts.Perm us) :
    ∃ r ms r' ms', resolveCall env method (some (.union ts)) args = .ok (r, ms) ∧
      resolveCall env method (some (.union us)) args = .ok (r', ms') ∧
      (r.kind = .ofMatched ↔ ∀ t ∈ ts, Accepts env method args t) ∧
      (r.kind = .ofAbsent ↔ ∃ t ∈ ts, ¬ Accepts env method args t) ∧
      (r.kind = .ofMatched → List.Forall₂ (Answers env method args) ts ms ∧
        r.declarations = firstOf (· == ·) (ms.map Match.declaration)) ∧
      r'.kind = r.kind ∧ r.declarations.Perm r'.declarations ∧
      SameMembers (resultType env method ms) (resultType env method ms') := by
  have hr := receiverTypes_union h
  have hr' := receiverTypes_union (resolved_union_perm h hperm)
  by_cases hall : ∀ t ∈ ts, Accepts env method args t
  · have hall' : ∀ t ∈ us, Accepts env method args t := fun t ht => hall t (hperm.mem_iff.mpr ht)
    have hne : ts ≠ [] := by
      rintro rfl
      cases h with
      | union hlen => simp at hlen
    have hne' : us ≠ [] := by
      rintro rfl
      exact hne hperm.eq_nil
    obtain ⟨r, hrun, hkind, hds⟩ := resolveCall_of_accepted hr hne hall
    obtain ⟨r', hrun', hkind', hds'⟩ := resolveCall_of_accepted hr' hne' hall'
    have hms := hperm.filterMap (matchMember? env method args)
    refine ⟨r, _, r', _, hrun, hrun', ?_, ?_, ?_, ?_, ?_, resultType_perm hms⟩
    · exact ⟨fun _ => hall, fun _ => hkind⟩
    · rw [hkind]
      refine ⟨nofun, ?_⟩
      rintro ⟨t, ht, hnot⟩
      exact absurd (hall t ht) hnot
    · intro _
      exact ⟨forall₂_answers hall, hds.trans (declarationsOf_eq_firstOf _)⟩
    · rw [hkind, hkind']
    · rw [hds, hds']
      exact declarationsOf_perm hms
  · have hnot' : ¬ ∀ t ∈ us, Accepts env method args t := fun hall' =>
      hall fun t ht => hall' t (hperm.mem_iff.mp ht)
    refine ⟨_, _, _, _, resolveCall_of_refused hr hall, resolveCall_of_refused hr' hnot', ?_, ?_, nofun,
      rfl, .rfl, .unknown⟩
    · exact ⟨nofun, fun h => absurd h hall⟩
    · refine ⟨fun _ => ?_, fun _ => rfl⟩
      push Not at hall
      exact hall

/-! ## Two classes -/

/-- Two classes with a method of one name, which give different types. -/
def labelText : String :=
  "class A
  def label: () -> A
end
class B
  def label: () -> B
end
"

/-- Instances of a class without type arguments. -/
def plain (name : String) : TypeExpr := .classInstance { name := name } []

theorem resolveCall_union_label :
    ∃ env ds, Environment.addSignature { marker := ⟨"siggen:", by decide⟩ } labelText = .ok (env, ds) ∧
      Resolved AnyName (.union [plain "A", plain "B"]) ∧
      [plain "A", plain "B"].Perm [plain "B", plain "A"] ∧
      ∃ r ms r' ms',
        resolveCall env "label" (some (.union [plain "A", plain "B"])) {} = .ok (r, ms) ∧
        resolveCall env "label" (some (.union [plain "B", plain "A"])) {} = .ok (r', ms') ∧
        r.kind = .ofMatched ∧ r'.kind = .ofMatched ∧ r.declarations.Perm r'.declarations ∧
        SameMembers (resultType env "label" ms) (resultType env "label" ms') := by
  obtain ⟨env, ds, hadd, hsome⟩ := Environment.exists_added labelText
    (P := fun env => ∀ t ∈ [plain "A", plain "B"],
      (matchMember? env "label" {} t).isSome = true) (by decide +kernel)
  have hplain : ∀ name, Resolved AnyName (plain name) := fun _ => .classInstance trivial noArguments
  have hunion : Resolved AnyName (.union [plain "A", plain "B"]) := by
    refine .union (by decide) (by decide) ?_ ?_
    · intro t ht
      rcases List.mem_cons.mp ht with rfl | ht
      · exact hplain _
      · exact List.mem_singleton.mp ht ▸ hplain _
    · intro t ht us
      rcases List.mem_cons.mp ht with rfl | ht
      · exact nofun
      · exact List.mem_singleton.mp ht ▸ nofun
  have hperm : [plain "A", plain "B"].Perm [plain "B", plain "A"] := .swap ..
  obtain ⟨r, ms, r', ms', hrun, hrun', hmatched, -, -, hkind, hds, hresult⟩ :=
    resolveCall_union env "label" {} hunion hperm
  have hr := hmatched.mpr fun t ht => isSome_matchMember_iff.mp (hsome t ht)
  exact ⟨env, ds, hadd, hunion, hperm, r, ms, r', ms', hrun, hrun', hr, hkind.trans hr, hds, hresult⟩

end RbsSynth.Analysis
