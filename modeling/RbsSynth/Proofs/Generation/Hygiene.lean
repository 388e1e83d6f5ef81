import RbsSynth.Proofs.Generation.Repair
import RbsSynth.Proofs.Reading.Levels

/-!
# What a repaired fragment declares

A fragment that is read as the body of a class stays in that class exactly if its tokens close only
bodies that they open, and leaves the header as it is exactly if it starts neither with type parameters
nor with a superclass; then its members are those of the class                 (declarations_hygienic_iff)

Not every fragment does: `end` and `class B` give two classes                        (not_repairIsHygienic)
-/

namespace RbsSynth

namespace Signature

open Terminal

variable {name : String} {b : Bool} {w : List Token} {n : Node}

/-! ## What a class is made of -/

theorem Derives.of_typeParameters (h : Derives name (.nonterminal .typeParameters) b w n) :
    ∃ p ps, n.value = .typeParams (p :: ps) := by
  obtain ⟨_, _, _, _, _, hv⟩ := h.of_rule (r := .typeParameters) (by decide)
  simp only [Rule.build] at hv
  split at hv
  · exact ⟨_, _, (Option.some.inj hv).symm⟩
  · cases hv

theorem Derives.of_superclass (h : Derives name (.nonterminal .superclass) b w n) :
    ∃ a, n.value = .superclass a := by
  obtain ⟨_, _, _, _, _, hv⟩ := h.of_rule (r := .superclass) (by decide)
  simp only [Rule.build] at hv
  split at hv
  · exact ⟨_, (Option.some.inj hv).symm⟩
  · cases hv

theorem Derives.of_members (h : Derives name (.nonterminal .members) b w n) :
    ∃ ms, n.value = .members ms := by
  obtain ⟨r, _, _, _, hr, _, _, hv⟩ := h.of_nonterminal
  have hrule : r = .members ∨ r = .membersMore := by
    revert hr
    cases r <;> decide
  rcases hrule with rfl | rfl
  · simp only [Rule.build] at hv
    split at hv
    · exact ⟨_, (Option.some.inj hv).symm⟩
    · cases hv
  · simp only [Rule.build] at hv
    split at hv
    · exact ⟨_, (Option.some.inj hv).symm⟩
    · cases hv

/-- The tokens of some members. -/
def WrittenMembers (name : String) (w : List Token) (ms : List Member) : Prop :=
  w = [] ∧ ms = [] ∨ ∃ b n, Derives name (.nonterminal .members) b w n ∧ n.value = .members ms

/-- The tokens of a class behind its word: those of its name, of its type parameters, of its superclass
and of its members, and the last. -/
structure ClassText (name : String) (c : ClassDecl) (cn tp sc ms : List Token) (e : Token) : Prop where
  named : ∃ b n, Derives name (.nonterminal .className) b cn n ∧ n.value = .name c.name
  params : tp = [] ∧ c.typeParams = [] ∨
    c.typeParams ≠ [] ∧ ∃ b n, Derives name (.nonterminal .typeParameters) b tp n
  superclass : sc = [] ∧ c.superclass = none ∨
    c.superclass ≠ none ∧ ∃ b n, Derives name (.nonterminal .superclass) b sc n
  members : WrittenMembers name ms c.members
  last : e.terminal = endWord

/-- Each kind of part is found where it stands. -/
theorem partsIn {ps ss ms : List Value} (hps : ps = [] ∨ ∃ p, ps = [.typeParams p])
    (hss : ss = [] ∨ ∃ a, ss = [.superclass a]) (hms : ms = [] ∨ ∃ m, ms = [.members m]) (e : Token) :
    Value.typeParamsIn (ps ++ (ss ++ (ms ++ [.token e]))) = Value.typeParamsIn ps ∧
      Value.superclassIn? (ps ++ (ss ++ (ms ++ [.token e]))) = Value.superclassIn? ss ∧
      Value.membersIn (ps ++ (ss ++ (ms ++ [.token e]))) = Value.membersIn ms := by
  rcases hps with rfl | ⟨p, rfl⟩ <;> rcases hss with rfl | ⟨a, rfl⟩ <;>
    rcases hms with rfl | ⟨m, rfl⟩ <;> exact ⟨rfl, rfl, rfl⟩

/-- **What a class is made of.** -/
theorem Derives.classText (h : Derives name (.nonterminal .classDeclaration) b w n) :
    ∃ k cn tp sc ms e c, w = k :: (cn ++ (tp ++ (sc ++ (ms ++ [e])))) ∧ k.terminal = classWord ∧
      ClassText name c cn tp sc ms e ∧ n.value = .nestable (.classDecl c) := by
  obtain ⟨body, _, ns, hbody, hall, hv⟩ := h.of_rule (r := .classDeclaration) (by decide)
  obtain ⟨_, _, _, _, nk, _, _, rfl, rfl, hk, hbody, hall⟩ := hall.of_must hbody
  obtain ⟨_, _, cn, _, nn, _, _, rfl, rfl, hcn, hbody, hall⟩ := hall.of_must hbody
  obtain ⟨_, tp, _, tps, _, _, rfl, rfl, htp, hbody, hall⟩ := hall.of_maybe hbody
  obtain ⟨_, sc, _, scs, _, _, rfl, rfl, hsc, hbody, hall⟩ := hall.of_maybe hbody
  obtain ⟨_, ms, _, mss, _, _, rfl, rfl, hms, hbody, hall⟩ := hall.of_maybe hbody
  obtain ⟨_, _, _, _, ne, _, _, rfl, rfl, he, hbody, hall⟩ := hall.of_must hbody
  obtain ⟨k, hkt, rfl, -, rfl⟩ := hk.of_terminal
  obtain ⟨e, het, rfl, -, rfl⟩ := he.of_terminal
  obtain rfl := List.mem_singleton.mp hbody
  obtain ⟨_, rfl, rfl⟩ := hall.of_nil
  obtain ⟨c, hc⟩ : ∃ c, nn.value = .name c := by
    obtain ⟨_, _, _, _, _, hname⟩ := hcn.of_className
    obtain ⟨c, _, hc⟩ := Option.map_eq_some_iff.mp hname
    exact ⟨c, hc.symm⟩
  have hps : tps.map (·.value) = [] ∨ ∃ p, tps.map (·.value) = [.typeParams p] := by
    rcases htp with ⟨-, rfl⟩ | ⟨_, _, rfl, hp⟩
    · exact .inl rfl
    · obtain ⟨p, ps, hvalue⟩ := hp.of_typeParameters
      exact .inr ⟨p :: ps, congrArg (fun v => [v]) hvalue⟩
  have hss : scs.map (·.value) = [] ∨ ∃ a, scs.map (·.value) = [.superclass a] := by
    rcases hsc with ⟨-, rfl⟩ | ⟨_, _, rfl, hs⟩
    · exact .inl rfl
    · obtain ⟨a, hvalue⟩ := hs.of_superclass
      exact .inr ⟨a, congrArg (fun v => [v]) hvalue⟩
  have hmm : mss.map (·.value) = [] ∨ ∃ m, mss.map (·.value) = [.members m] := by
    rcases hms with ⟨-, rfl⟩ | ⟨_, _, rfl, hm⟩
    · exact .inl rfl
    · obtain ⟨m, hvalue⟩ := hm.of_members
      exact .inr ⟨m, congrArg (fun v => [v]) hvalue⟩
  obtain ⟨hparams, hsuper, hmembers⟩ := partsIn hps hss hmm e
  rw [List.map_cons, List.map_cons, hc] at hv
  simp only [Rule.build, List.map_append, List.map_cons, List.map_nil, hparams, hsuper, hmembers,
    Option.some.injEq] at hv
  refine ⟨k, cn, tp, sc, ms, e, _, rfl, hkt, ⟨⟨_, nn, hcn, hc⟩, ?_, ?_, ?_, het⟩, hv.symm⟩
  · rcases htp with ⟨rfl, rfl⟩ | ⟨b', np, rfl, hp⟩
    · exact .inl ⟨rfl, rfl⟩
    · obtain ⟨p, ps, hvalue⟩ := hp.of_typeParameters
      refine .inr ⟨?_, b', np, hp⟩
      rw [List.map_singleton, hvalue]
      exact List.cons_ne_nil p ps
  · rcases hsc with ⟨rfl, rfl⟩ | ⟨b', ns, rfl, hs⟩
    · exact .inl ⟨rfl, rfl⟩
    · obtain ⟨a, hvalue⟩ := hs.of_superclass
      refine .inr ⟨?_, b', ns, hs⟩
      rw [List.map_singleton, hvalue]
      exact Option.some_ne_none a
  · rcases hms with ⟨rfl, rfl⟩ | ⟨b', nm, rfl, hm⟩
    · exact .inl ⟨rfl, rfl⟩
    · obtain ⟨m, hvalue⟩ := hm.of_members
      refine .inr ⟨b', nm, hm, ?_⟩
      rw [List.map_singleton, hvalue]
      rfl

/-- A declaration that starts with the word of a class is one. -/
theorem Derives.of_classWord {k : Token} (h : Derives name (.nonterminal .declaration) b (k :: w) n)
    (hk : k.terminal = classWord) :
    ∃ cn tp sc ms e c notes, w = cn ++ (tp ++ (sc ++ (ms ++ [e]))) ∧ ClassText name c cn tp sc ms e ∧
      n.value = .declaration (.nestable (.classDecl { c with notes := notes })) := by
  obtain ⟨body, _, ns, hbody, hall, hv⟩ := h.of_rule (r := .declaration) (by decide)
  obtain ⟨_, _, wa, _, na, _, _, hw, rfl, ha, hbody, hall⟩ := hall.of_must hbody
  obtain ⟨_, _, wb, _, nb, _, _, rfl, rfl, hb, hbody, hall⟩ := hall.of_must hbody
  obtain rfl := List.mem_singleton.mp hbody
  obtain ⟨_, rfl, rfl⟩ := hall.of_nil
  rw [List.append_nil] at hw
  have hwa : wa = [] := by
    cases wa with
    | nil => rfl
    | cons k' wa =>
      obtain ⟨rfl, -⟩ := List.cons.inj hw
      have hfirst := ha.startsIn startIn_annotations (by decide) k rfl
      rw [hk] at hfirst
      exact absurd hfirst (by decide)
  subst hwa
  rw [List.nil_append] at hw
  subst hw
  obtain ⟨r, body, _, ns, hr, hbody, hall, hvb⟩ := hb.of_nonterminal
  have hrule : r = .classBody ∨ ∃ m ∈ [Nonterminal.moduleDeclaration, .interfaceDeclaration,
      .aliasDeclaration, .constantDeclaration, .globalDeclaration, .className],
      r.shape.2 = [.one m] := by
    revert hr
    cases r <;> first | exact fun h => .inl rfl | exact fun h => .inr ⟨_, by decide, rfl⟩ |
      exact fun h => nomatch h
  rcases hrule with rfl | ⟨m, hm, hshape⟩
  · obtain ⟨_, _, w₁, _, n₁, _, _, hw, rfl, hclass, hbody, hall⟩ := hall.of_must hbody
    obtain rfl := List.mem_singleton.mp hbody
    obtain ⟨_, rfl, rfl⟩ := hall.of_nil
    rw [List.append_nil] at hw
    subst hw
    obtain ⟨k', cn, tp, sc, ms, e, c, hw, -, htext, hvalue⟩ := hclass.classText
    obtain ⟨-, rfl⟩ := List.cons.inj hw
    have hvb : some n₁.value = some nb.value := hvb
    rw [List.map_cons, List.map_cons, ← Option.some.inj hvb, hvalue] at hv
    simp only [Rule.build, List.map_nil] at hv
    split at hv
    · next as d he =>
      obtain ⟨-, he⟩ := List.cons.inj he
      obtain ⟨he, -⟩ := List.cons.inj he
      cases he
      exact ⟨cn, tp, sc, ms, e, c, _, rfl, htext, (Option.some.inj hv).symm⟩
    · next he =>
      obtain ⟨-, he⟩ := List.cons.inj he
      obtain ⟨he, -⟩ := List.cons.inj he
      cases he
    · cases hv
  · rw [hshape] at hbody
    obtain ⟨_, _, w₁, _, n₁, _, _, hw, rfl, hother, hbody, hall⟩ := hall.of_must hbody
    obtain rfl := List.mem_singleton.mp hbody
    obtain ⟨_, rfl, rfl⟩ := hall.of_nil
    rw [List.append_nil] at hw
    subst hw
    have hfirst := hother.startsIn startIn_others (List.contains_iff_mem.mpr hm) k rfl
    rw [hk] at hfirst
    exact absurd hfirst (by decide)

/-! ## A class behind a header -/

section

variable {p p' r u : List Token} {l l' : Token}

/-- Two names of classes at the start of the same tokens are the same. -/
theorem nameTokens_eq (hp : p = [] ∨ ∃ q, p = [q] ∧ q.terminal = namespacePath)
    (hl : l.terminal = upperName) (hp' : p' = [] ∨ ∃ q, p' = [q] ∧ q.terminal = namespacePath)
    (hl' : l'.terminal = upperName) (he : p ++ l :: r = p' ++ l' :: u) :
    p = p' ∧ l = l' ∧ r = u := by
  have hne : ∀ {k k' : Token}, k.terminal = namespacePath → k'.terminal = upperName → k ≠ k' := by
    rintro k k' hk hk' rfl
    rw [hk] at hk'
    cases hk'
  rcases hp with rfl | ⟨q, rfl, hq⟩ <;> rcases hp' with rfl | ⟨q', rfl, hq'⟩
  · obtain ⟨rfl, rfl⟩ := List.cons.inj he
    exact ⟨rfl, rfl, rfl⟩
  · exact absurd (List.cons.inj he).1.symm (hne hq' hl)
  · exact absurd (List.cons.inj he).1 (hne hq hl')
  · obtain ⟨hqq, he⟩ := List.cons.inj he
    obtain ⟨hll, hr⟩ := List.cons.inj he
    exact ⟨congrArg (fun q => [q]) hqq, hll, hr⟩

/-- The name of a class ends with its header. -/
theorem className_eq {c m : TypeName} {cn w : List Token} {k : Token} (hw : IsHeader m w)
    (h : Derives name (.nonterminal .className) b cn n) (hvalue : n.value = .name c)
    (he : w ++ u = k :: (cn ++ r)) : r = u ∧ c = m := by
  obtain ⟨k', p, l, rfl, -, hp, hl, hm⟩ := hw
  obtain ⟨p', l', rfl, hl', hp', hname⟩ := h.of_className
  obtain ⟨c', hc', hv⟩ := Option.map_eq_some_iff.mp hname
  simp only [List.cons_append, List.append_assoc, List.nil_append, List.cons.injEq] at he
  obtain ⟨rfl, he⟩ := he
  obtain ⟨rfl, rfl, hr⟩ := nameTokens_eq hp hl hp' hl' he
  rw [hm] at hc'
  exact ⟨hr.symm, (Value.name.inj (hv.trans hvalue)).symm.trans (Option.some.inj hc').symm⟩

theorem IsHeader.eq {m m' : TypeName} {w w' : List Token} (h : IsHeader m w) (h' : IsHeader m' w')
    (he : w ++ r = w' ++ u) : r = u := by
  obtain ⟨k, p, l, rfl, -, hp, hl, -⟩ := h
  obtain ⟨k', p', l', rfl, -, hp', hl', -⟩ := h'
  simp only [List.cons_append, List.append_assoc, List.nil_append, List.cons.injEq] at he
  exact (nameTokens_eq hp hl hp' hl' he.2).2.2

end

/-- The tokens stay in the class whose header they come behind. -/
structure StaysInside (v : List Token) : Prop where
  closes : ClosesItself v
  header : ∀ k ∈ v.head?, k.terminal ≠ leftBracket ∧ k.terminal ≠ less

/-- One class with the name of a header, and nothing else in the header. -/
def IsClassOf (m : TypeName) (ds : List Declaration) : Prop :=
  ∃ c, ds = [.nestable (.classDecl c)] ∧ c.name = m ∧ c.typeParams = [] ∧ c.superclass = none

section

variable {c : ClassDecl} {cn tp sc ms v w₂ : List Token} {e k : Token}

theorem ClassText.level_eq (h : ClassText name c cn tp sc ms e) (d : Nat) :
    levelFrom d tp = some d ∧ levelFrom d sc = some d ∧ levelFrom d ms = some d := by
  refine ⟨?_, ?_, ?_⟩
  · rcases h.params with ⟨rfl, -⟩ | ⟨-, _, _, hd⟩
    · rfl
    · exact hd.level d
  · rcases h.superclass with ⟨rfl, -⟩ | ⟨-, _, _, hd⟩
    · rfl
    · exact hd.level d
  · rcases h.members with ⟨rfl, -⟩ | ⟨_, _, hd, -⟩
    · rfl
    · exact hd.level d

/-- **When a text stays inside of the class around it.** -/
theorem ClassText.staysInside_iff (h : ClassText name c cn tp sc ms e)
    (hv : v ++ [k] = tp ++ (sc ++ (ms ++ e :: w₂))) :
    StaysInside v ↔ w₂ = [] ∧ c.typeParams = [] ∧ c.superclass = none := by
  obtain ⟨htp, hsc, hms⟩ := h.level_eq 0
  have hparams : c.typeParams = [] → tp = [] := fun hnil =>
    h.params.elim (·.1) fun hp => absurd hnil hp.1
  have hsuper : c.superclass = none → sc = [] := fun hnone =>
    h.superclass.elim (·.1) fun hs => absurd hnone hs.1
  constructor
  · rintro ⟨hcloses, hheader⟩
    have hlast : w₂ = [] := by
      -- If more came behind the end of the class, its end would be among the tokens `v`.
      rcases List.eq_nil_or_concat w₂ with hnil | ⟨w', k', rfl⟩
      · exact hnil
      · exfalso
        have hsplit : v ++ [k] = (tp ++ (sc ++ (ms ++ e :: w'))) ++ [k'] := by
          simp only [hv, List.append_assoc, List.cons_append, List.concat_eq_append]
        have hv' := (List.append_inj' hsplit rfl).1
        have hnone : levelFrom 0 (e :: w') = none := by
          rw [levelFrom, List.foldlM_cons, h.last]
          rfl
        rw [ClosesItself, hv', levelFrom_append, htp, Option.bind_some, levelFrom_append, hsc,
          Option.bind_some, levelFrom_append, hms, Option.bind_some, hnone] at hcloses
        cases hcloses
    subst hlast
    have hsplit : v ++ [k] = (tp ++ (sc ++ ms)) ++ [e] := by simp only [hv, List.append_assoc]
    have hv' := (List.append_inj' hsplit rfl).1
    have hfirst : ∀ {x : List Token} {m : Nonterminal} {t : Terminal} {b : Bool} {n : Node},
        Derives name (.nonterminal m) b x n → StartIn [m] [t] → m ≠ .file → m ≠ .annotations →
        ∃ k x', x = k :: x' ∧ k.terminal = t := by
      intro x m t b n hd hstart hfile hnotes
      obtain ⟨k, x', rfl⟩ := List.exists_cons_of_ne_nil
        (hd.ne_nil (by simp [Symbol.mayBeEmpty, hfile, hnotes]))
      exact ⟨k, x', rfl, List.mem_singleton.mp
        (hd.startsIn hstart (List.contains_iff_mem.mpr List.mem_cons_self) k rfl)⟩
    have hnoParams : c.typeParams = [] := by
      rcases h.params with ⟨-, hp⟩ | ⟨-, _, _, hd⟩
      · exact hp
      · obtain ⟨k₁, x, rfl, hk₁⟩ := hfirst hd (t := leftBracket) (by decide +kernel) (by decide) (by decide)
        exact absurd hk₁ (hheader k₁ (by rw [hv']; rfl)).1
    refine ⟨rfl, hnoParams, ?_⟩
    rcases h.superclass with ⟨-, hs⟩ | ⟨-, _, _, hd⟩
    · exact hs
    · obtain ⟨k₁, x, rfl, hk₁⟩ := hfirst hd (t := less) (by decide +kernel) (by decide) (by decide)
      exact absurd hk₁ (hheader k₁ (by rw [hv', hparams hnoParams]; rfl)).2
  · rintro ⟨rfl, hp, hs⟩
    obtain rfl := hparams hp
    obtain rfl := hsuper hs
    have hsplit : v ++ [k] = ms ++ [e] := hv
    obtain rfl : v = ms := (List.append_inj' hsplit rfl).1
    refine ⟨by rw [ClosesItself, hms]; rfl, fun k hk => ?_⟩
    rcases h.members with ⟨rfl, -⟩ | ⟨_, _, hd, -⟩
    · cases hk
    · have hmem := hd.startsIn startIn_members (by decide) k hk
      refine ⟨fun he => ?_, fun he => ?_⟩
      · rw [he] at hmem
        exact absurd hmem (by decide)
      · rw [he] at hmem
        exact absurd hmem (by decide)

end

/-- **What stands behind the header of a class** makes one class of it exactly if it stays inside. -/
theorem hygienic_of_file {m : TypeName} {w v : List Token} {k : Token} (hw : IsHeader m w)
    (h : Derives name (.nonterminal .file) b (w ++ (v ++ [k])) n) :
    ∃ c ds, n.value = .declarations (.nestable (.classDecl c) :: ds) ∧ c.name = m ∧
      (StaysInside v ↔ ds = [] ∧ c.typeParams = [] ∧ c.superclass = none) ∧
      (StaysInside v → WrittenMembers name v c.members) := by
  obtain ⟨k₁, w', rfl⟩ : ∃ k₁ w', w = k₁ :: w' := by
    obtain ⟨k₁, _, _, rfl, -⟩ := hw
    exact ⟨k₁, _, rfl⟩
  obtain ⟨_, w₁, n₁, w₂, d, ds, hsplit, hd, hvalue, hn, hnil⟩ := h.of_file (List.cons_ne_nil _ _)
  obtain ⟨_, w₁, rfl⟩ := List.exists_cons_of_ne_nil (hd.ne_nil rfl)
  obtain ⟨rfl, -⟩ := List.cons.inj hsplit
  have hword : k₁.terminal = classWord := by
    obtain ⟨_, _, _, he, hk, -⟩ := hw
    rw [(List.cons.inj he).1, hk]
  obtain ⟨cn, tp, sc, ms, e, c, notes, rfl, htext, hd⟩ := hd.of_classWord hword
  obtain ⟨_, nn, hcn, hname⟩ := htext.named
  have hsplit' : k₁ :: w' ++ (v ++ [k]) = k₁ :: (cn ++ (tp ++ (sc ++ (ms ++ e :: w₂)))) := by
    rw [hsplit]
    simp only [List.cons_append, List.append_assoc, List.nil_append]
  obtain ⟨hv, rfl⟩ := className_eq hw hcn hname hsplit'
  have hstays := htext.staysInside_iff hv.symm
  rw [hvalue] at hd
  obtain rfl := Value.declaration.inj hd
  refine ⟨_, ds, hn, rfl, by rw [hstays, hnil], fun hs => ?_⟩
  obtain ⟨rfl, hp, hs⟩ := hstays.mp hs
  have htp : tp = [] := htext.params.elim (·.1) fun h => absurd hp h.1
  have hsc : sc = [] := htext.superclass.elim (·.1) fun h => absurd hs h.1
  subst htp hsc
  have hms : ms ++ [e] = v ++ [k] := hv
  rw [← (List.append_inj' hms rfl).1]
  exact htext.members

end Signature

namespace Fragment

open Signature

variable {f : Fragment} {n : TypeName}

/-- The tokens of a fragment behind the header of a class: of its text behind the name, all but the last. -/
def BehindHeader (f : Fragment) (n : TypeName) (v : List Token) : Prop :=
  ∃ w k last, IsHeader n w ∧ Cuts f.text.toList v ∧
    Finds f.label {} f.wrapped.toList (w ++ (v ++ [k])) last []

theorem BehindHeader.unique {v v' : List Token} (h : f.BehindHeader n v) (h' : f.BehindHeader n v') :
    v = v' := by
  obtain ⟨w, k, last, hw, -, hfound⟩ := h
  obtain ⟨w', k', last', hw', -, hfound'⟩ := h'
  exact (List.append_inj' (hw.eq hw' (hfound.unique hfound')) rfl).1

theorem parse_wrapped_of_ok {fault : Fault} {ds : List Declaration}
    (hf : parse f.text f.label = .error fault) (hds : f.declarations = .ok ds) :
    parse f.wrapped f.label = .ok ds := by
  simp only [declarations, hf] at hds
  split at hds
  · split at hds
    · next h =>
      cases hds
      exact h
    · cases hds
  · cases hds

/-- **When repair is hygienic.**  The fragment's tokens behind the header are told by the text; repair
gives one class with that header exactly if they close no body but their own and do not go on with the
header, and then its members are those that the tokens are. -/
theorem declarations_hygienic_iff (hn : n.IsClass) (ht : f.target = n.render) {fault : Fault}
    {ds : List Declaration} (hf : parse f.text f.label = .error fault) (hds : f.declarations = .ok ds) :
    ∃ v, (∀ u, f.BehindHeader n u ↔ u = v) ∧ (StaysInside v ↔ IsClassOf n ds) ∧
      (StaysInside v → ∃ c blocks ms, ds = [.nestable (.classDecl c)] ∧ WrittenMembers f.label v ms ∧
        c.members = Member.mapNotesList (Notes.attach f.label blocks) ms) := by
  have hwrapped : parse f.wrapped f.label = .ok ds := parse_wrapped_of_ok hf hds
  rw [wrapped_eq ht] at hwrapped
  obtain ⟨w, v, k, last, hw, hcuts, hfound, hfinish⟩ := finds_classText hn hwrapped
  have hbehind : f.BehindHeader n v := by
    refine ⟨w, k, last, hw, hcuts, ?_⟩
    rwa [wrapped_eq ht, String.toList_ofList]
  obtain ⟨q, raw, sp, haccept, rfl⟩ := accept_of_finish hfinish
  obtain ⟨node, b, hstack, hderives⟩ := (Holds.nil.feedTokens hfound.feedTokens).accepted haccept
  have hnode : (⟨.declarations raw, sp⟩ : Node) = node :=
    congrArg Lr.Frame.value (List.cons.inj hstack).1
  obtain ⟨c, rest, hraw, rfl, hstays, hmembers⟩ := hygienic_of_file hw hderives
  obtain ⟨cname, params, superclass, members, notes⟩ := c
  rw [← hnode] at hraw
  obtain rfl := Value.declarations.inj hraw
  refine ⟨v, fun u => ⟨fun hu => hu.unique hbehind, fun hu => hu ▸ hbehind⟩, ?_, fun hs => ?_⟩
  · rw [hstays]
    constructor
    · rintro ⟨rfl, hp, hs⟩
      exact ⟨_, rfl, rfl, hp, hs⟩
    · rintro ⟨c', hc', -, hp, hs⟩
      obtain ⟨hc', hrest⟩ := List.cons.inj hc'
      cases hc'
      exact ⟨List.map_eq_nil_iff.mp hrest, hp, hs⟩
  · obtain ⟨rfl, -, -⟩ := hstays.mp hs
    exact ⟨_, _, members, rfl, hmembers hs, rfl⟩

set_option maxRecDepth 100000 in
theorem declarations_hygienic_bareMethod : ∃ fault ds v,
    parse bareMethod.text bareMethod.label = .error fault ∧ bareMethod.declarations = .ok ds ∧
      (∀ u, bareMethod.BehindHeader ⟨"Foo", [], false⟩ u ↔ u = v) ∧
      (StaysInside v ↔ IsClassOf ⟨"Foo", [], false⟩ ds) := by
  have hself : (parse bareMethod.text bareMethod.label).isOk = false := by decide +kernel
  have hrepaired : bareMethod.declarations.isOk = true := by decide +kernel
  cases hfault : parse bareMethod.text bareMethod.label with
  | ok ds =>
    rw [hfault] at hself
    cases hself
  | error fault =>
    cases hds : bareMethod.declarations with
    | error e =>
      rw [hds] at hrepaired
      cases hrepaired
    | ok ds =>
      obtain ⟨v, hv, hiff, -⟩ :=
        declarations_hygienic_iff isClass_foo (by decide +kernel) hfault hds
      exact ⟨fault, ds, v, rfl, rfl, hv, hiff⟩

/-- Repair gives one class with the header that was written around the fragment. -/
def RepairIsHygienic : Prop :=
  ∀ (f : Fragment) (n : TypeName) (fault : Fault) (ds : List Declaration), n.IsClass →
    f.target = n.render → parse f.text f.label = .error fault → f.declarations = .ok ds →
    IsClassOf n ds

/-- A fragment that ends the class around it and starts another. -/
def twoClasses : Fragment := ⟨"A", "end\nclass B", "m", "t"⟩

set_option maxRecDepth 100000 in
theorem not_repairIsHygienic : ¬ RepairIsHygienic := by
  intro h
  have hself : (parse twoClasses.text twoClasses.label).isOk = false := by decide +kernel
  have hcount : twoClasses.declarations.toOption.map List.length = some 2 := by decide +kernel
  have hn : TypeName.IsClass ⟨"A", [], false⟩ :=
    ⟨List.forall_mem_nil _, 'A', [], rfl, rfl, by decide⟩
  cases hfault : parse twoClasses.text twoClasses.label with
  | ok ds =>
    rw [hfault] at hself
    cases hself
  | error fault =>
    cases hds : twoClasses.declarations with
    | error e =>
      rw [hds] at hcount
      cases hcount
    | ok ds =>
      obtain ⟨c, rfl, -⟩ := h twoClasses _ fault ds hn (by decide +kernel) hfault hds
      rw [hds] at hcount
      cases hcount

end Fragment

end RbsSynth
