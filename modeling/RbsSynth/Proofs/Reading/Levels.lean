import RbsSynth.Proofs.Table.Inversion

/-!
# Bodies in a text

A class, module or interface opens a body, and `end` closes one.  `levelFrom d w` is how many bodies are
open behind the tokens `w` where `d` are open before them; there is none if `w` closes one too many.

    Derives name x b w n  →  levelFrom d w = x.level d                                  (Derives.level)

so what a nonterminal stands for closes just the bodies that it opens.
-/

namespace RbsSynth.Signature

/-- The words that open a body. -/
def Terminal.opens (t : Terminal) : Bool := t = .classWord || t = .moduleWord || t = .interfaceWord

def Terminal.level (t : Terminal) (d : Nat) : Option Nat :=
  if t.opens then some (d + 1)
  else if t = .endWord then (match d with
    | 0 => none
    | d + 1 => some d)
  else some d

def Symbol.level : Symbol → Nat → Option Nat
  | .terminal t, d => t.level d
  | .nonterminal _, d => some d

/-- How many bodies are open behind some tokens. -/
def levelFrom (d : Nat) (w : List Token) : Option Nat := w.foldlM (fun d k => k.terminal.level d) d

/-- The tokens close only bodies that they open. -/
def ClosesItself (w : List Token) : Prop := (levelFrom 0 w).isSome

variable {name : String} {x : Symbol} {xs : List Symbol} {b : Bool} {v w : List Token} {n : Node}
  {ns : List Node}

theorem levelFrom_append (d : Nat) (v w : List Token) :
    levelFrom d (v ++ w) = (levelFrom d v).bind (levelFrom · w) := List.foldlM_append

theorem Symbol.level_add {d e : Nat} (h : x.level d = some e) (i : Nat) : x.level (d + i) = some (e + i) := by
  cases x with
  | nonterminal m =>
    obtain rfl := Option.some.inj h
    rfl
  | terminal t =>
    simp only [Symbol.level, Terminal.level] at h ⊢
    split at h
    · next ho =>
      obtain rfl := Option.some.inj h
      rw [if_pos ho, Nat.add_right_comm]
    · next ho =>
      rw [if_neg ho]
      split at h
      · next he =>
        rw [if_pos he]
        cases d with
        | zero => cases h
        | succ d =>
          obtain rfl := Option.some.inj h
          rw [Nat.add_right_comm]
      · next he =>
        obtain rfl := Option.some.inj h
        rw [if_neg he]

theorem levels_add {d e : Nat} (h : xs.foldlM (fun d x => x.level d) d = some e) (i : Nat) :
    xs.foldlM (fun d x => x.level d) (d + i) = some (e + i) := by
  induction xs generalizing d with
  | nil =>
    obtain rfl := Option.some.inj h
    rfl
  | cons x xs ih =>
    rw [List.foldlM_cons] at h ⊢
    obtain ⟨d', hx, hxs⟩ := Option.bind_eq_some_iff.mp h
    rw [x.level_add hx i]
    exact ih hxs

/-- A rule closes just the bodies that it opens. -/
theorem bodies_level : (productions.all fun p => p.body.foldlM (fun d x => x.level d) 0 == some 0)
    = true := by
  decide +kernel

mutual

/-- **What a symbol stands for closes just the bodies that it opens.** -/
theorem Derives.level {x : Symbol} {b : Bool} {w : List Token} {n : Node} (h : Derives name x b w n)
    (d : Nat) : levelFrom d w = x.level d :=
  match h with
  | .token t => bind_pure (t.terminal.level d)
  | @Derives.node _ p _ w ns _ hp _ hall _ => by
    have hbody := eq_of_beq (List.all_eq_true.mp bodies_level p hp)
    rw [hall.levels d]
    have hlevel := levels_add hbody d
    rwa [Nat.zero_add] at hlevel

theorem DerivesAll.levels {xs : List Symbol} {b : Bool} {w : List Token} {ns : List Node}
    (h : DerivesAll name xs b w ns) (d : Nat) :
    levelFrom d w = xs.foldlM (fun d x => x.level d) d :=
  match h with
  | .nil => rfl
  | @DerivesAll.cons _ x xs _ _ w ws _ _ hx hxs _ => by
    rw [levelFrom_append, hx.level d, List.foldlM_cons]
    exact congrArg _ (funext fun d => hxs.levels d)

end

/-! ## Words that are not empty -/

/-- The nonterminals that may stand for nothing. -/
def Symbol.mayBeEmpty (x : Symbol) : Bool := x = .nonterminal .file || x = .nonterminal .annotations

theorem bodies_filled : (productions.all fun p =>
    (Symbol.nonterminal p.head).mayBeEmpty || p.rule == .root || p.body.any fun x => !x.mayBeEmpty) = true := by
  decide +kernel

mutual

theorem Derives.ne_nil {x : Symbol} {b : Bool} {w : List Token} {n : Node} (h : Derives name x b w n)
    (hx : x.mayBeEmpty = false) : w ≠ [] :=
  match h with
  | .token t => List.cons_ne_nil t []
  | @Derives.node _ p _ w ns _ hp hroot hall _ => by
    have hbody := List.all_eq_true.mp bodies_filled p hp
    rw [hx, Bool.false_or, Bool.or_eq_true, beq_iff_eq] at hbody
    exact hall.ne_nil (hbody.resolve_left hroot)

theorem DerivesAll.ne_nil {xs : List Symbol} {b : Bool} {w : List Token} {ns : List Node}
    (h : DerivesAll name xs b w ns) (hx : xs.any (fun x => !x.mayBeEmpty) = true) : w ≠ [] :=
  match h with
  | .nil => nomatch hx
  | @DerivesAll.cons _ x xs _ _ w ws _ _ hfirst hrest _ => by
    rw [List.any_cons, Bool.or_eq_true, Bool.not_eq_true'] at hx
    rcases hx with hx | hx
    · exact List.append_ne_nil_of_left_ne_nil (hfirst.ne_nil hx) _
    · exact List.append_ne_nil_of_right_ne_nil _ (hrest.ne_nil hx)

end

/-! ## First tokens -/

/-- Whether a symbol stands for what starts with one of some terminals, if these nonterminals do. -/
def Symbol.startsIn (heads : List Nonterminal) (starts : List Terminal) : Symbol → Bool
  | .terminal t => starts.contains t
  | .nonterminal m => heads.contains m

/-- The same of symbols in a row, whatever among them stands for nothing. -/
def startsAllIn (heads : List Nonterminal) (starts : List Terminal) : List Symbol → Bool
  | [] => true
  | x :: xs => x.startsIn heads starts && (!x.mayBeEmpty || startsAllIn heads starts xs)

/-- By the rules, what these nonterminals stand for starts with one of these terminals. -/
def StartIn (heads : List Nonterminal) (starts : List Terminal) : Prop :=
  (productions.all fun p => !heads.contains p.head || startsAllIn heads starts p.body) = true

instance (heads : List Nonterminal) (starts : List Terminal) : Decidable (StartIn heads starts) :=
  inferInstanceAs (Decidable (_ = _))

section

variable {heads : List Nonterminal} {starts : List Terminal}

mutual

theorem Derives.startsIn (hstart : StartIn heads starts) {x : Symbol} {b : Bool} {w : List Token}
    {n : Node} (h : Derives name x b w n) (hx : x.startsIn heads starts = true) :
    ∀ k ∈ w.head?, k.terminal ∈ starts :=
  match h with
  | .token t => by
    rintro k ⟨⟩
    exact List.contains_iff_mem.mp hx
  | @Derives.node _ p _ w ns _ hp _ hall _ => by
    have hhead : heads.contains p.head = true := hx
    have hbody := List.all_eq_true.mp hstart p hp
    rw [hhead, Bool.not_true, Bool.false_or] at hbody
    exact hall.startsIn hstart hbody

theorem DerivesAll.startsIn (hstart : StartIn heads starts) {xs : List Symbol} {b : Bool}
    {w : List Token} {ns : List Node} (h : DerivesAll name xs b w ns)
    (hx : startsAllIn heads starts xs = true) : ∀ k ∈ w.head?, k.terminal ∈ starts :=
  match h with
  | .nil => by
    rintro k ⟨⟩
  | @DerivesAll.cons _ x xs _ _ w ws _ _ hfirst hrest _ => by
    rw [startsAllIn, Bool.and_eq_true, Bool.or_eq_true, Bool.not_eq_true'] at hx
    intro k hk
    cases hw : w with
    | cons t w' =>
      rw [hw] at hk
      refine hfirst.startsIn hstart hx.1 k ?_
      rw [hw]
      exact hk
    | nil =>
      rw [hw, List.nil_append] at hk
      refine hrest.startsIn hstart (hx.2.resolve_left fun hfull => ?_) k hk
      exact hfirst.ne_nil hfull hw

end

end

/-- The nonterminals that members are made of, down to their first tokens. -/
def memberHeads : List Nonterminal :=
  [.members, .member, .annotations, .annotationTokens, .memberBody, .methodMember, .attributeMember,
    .mixinMember, .variableMember, .aliasMember, .visibilityMember, .classDeclaration,
    .moduleDeclaration, .interfaceDeclaration, .aliasDeclaration, .constantDeclaration, .className]

open Terminal in
/-- The first tokens of members. -/
def memberFirsts : List Terminal :=
  [ annotation, defWord, attributeWord, mixinWord, instanceVariable, aliasWord, visibilityWord,
    classWord, moduleWord, interfaceWord, typeWord, namespacePath, upperName]

theorem startIn_members : StartIn memberHeads memberFirsts := by decide +kernel

open Terminal in
theorem startIn_annotations : StartIn [.annotations, .annotationTokens] [ annotation] := by
  decide +kernel

/-- The declarations that are no class, with the first tokens of each. -/
theorem startIn_others : StartIn [.moduleDeclaration, .interfaceDeclaration, .aliasDeclaration,
    .constantDeclaration, .globalDeclaration, .className]
    [.moduleWord, .interfaceWord, .typeWord, .namespacePath, .upperName, .globalName] := by
  decide +kernel

/-! ## The first declaration -/

/-- The tokens and the node of declarations, with the first of them told apart. -/
def FirstDeclaration (name : String) (w : List Token) (n : Node) : Prop :=
  ∃ (b₁ : Bool) (w₁ : List Token) (n₁ : Node) (w₂ : List Token) (d : Declaration)
    (ds : List Declaration), w = w₁ ++ w₂ ∧ Derives name (.nonterminal .declaration) b₁ w₁ n₁ ∧
      n₁.value = .declaration d ∧ n.value = .declarations (d :: ds) ∧ (w₂ = [] ↔ ds = [])

theorem of_declarations {p : Production} (hp : p ∈ productions) (hhead : p.head = .declarations) :
    p.rule = .declarations ∧ p.body = [.nonterminal .declaration] ∨
      p.rule = .declarationsMore ∧ p.body = [.nonterminal .declarations, .nonterminal .declaration] := by
  have hall : (productions.all fun p => p.head != .declarations ||
      (p.rule == .declarations && p.body == [.nonterminal .declaration]) ||
      (p.rule == .declarationsMore &&
        p.body == [.nonterminal .declarations, .nonterminal .declaration])) = true := by decide +kernel
  have h := List.all_eq_true.mp hall p hp
  rw [hhead, bne_self_eq_false, Bool.false_or, Bool.or_eq_true, Bool.and_eq_true, Bool.and_eq_true] at h
  simpa only [beq_iff_eq] using h

mutual

theorem Derives.firstDeclaration {x : Symbol} {b : Bool} {w : List Token} {n : Node}
    (h : Derives name x b w n) (hx : x = .nonterminal .declarations) : FirstDeclaration name w n :=
  match h with
  | .token t => nomatch hx
  | @Derives.node _ p _ w ns v hp _ hall hv => by
    rcases of_declarations hp (Symbol.nonterminal.inj hx) with ⟨hrule, hbody⟩ | ⟨hrule, hbody⟩
    · obtain ⟨b₁, _, w₁, w₂, n₁, ns₁, rfl, rfl, hd, hend⟩ := (hbody ▸ hall).of_cons
      obtain ⟨_, rfl, rfl⟩ := hend.of_nil
      rw [hrule] at hv
      simp only [Rule.build, List.map_cons, List.map_nil] at hv
      split at hv
      · next d he =>
        obtain ⟨hvalue, -⟩ := List.cons.inj he
        cases hv
        exact ⟨b₁, w₁, n₁, [], d, [], rfl, hd, hvalue, rfl, Iff.intro (fun _ => rfl) fun _ => rfl⟩
      · cases hv
    · obtain ⟨n₁, ns₁, w', ws, b', rfl, rfl, hfirst, hrest⟩ := hall.firstDeclaration hbody
      obtain ⟨b₁, w₁, d₁, w₂, d, ds, rfl, hd, hvalue, hn₁, hnil⟩ := hfirst
      obtain ⟨b₂, _, v₁, v₂, n₂, ns₂, rfl, rfl, hlast, hend⟩ := hrest.of_cons
      obtain ⟨_, rfl, rfl⟩ := hend.of_nil
      rw [hrule, List.map_cons, hn₁] at hv
      simp only [Rule.build, List.map_cons, List.map_nil] at hv
      split at hv
      · next ds' e he =>
        obtain ⟨hds, -⟩ := List.cons.inj he
        cases hds
        cases hv
        have hfull : v₁ ≠ [] := hlast.ne_nil (by decide)
        refine ⟨b₁, w₁, d₁, w₂ ++ (v₁ ++ []), d, ds ++ [e], List.append_assoc _ _ _, hd, hvalue, rfl, ?_⟩
        simp [hfull]
      · cases hv

theorem DerivesAll.firstDeclaration {xs xs' : List Symbol} {b : Bool} {w : List Token} {ns : List Node}
    (h : DerivesAll name xs b w ns) (hx : xs = .nonterminal .declarations :: xs') :
    ∃ (n : Node) (ns' : List Node) (w₁ ws : List Token) (b' : Bool), ns = n :: ns' ∧ w = w₁ ++ ws ∧
      FirstDeclaration name w₁ n ∧ DerivesAll name xs' b' ws ns' :=
  match h with
  | .nil => nomatch hx
  | @DerivesAll.cons _ _ _ _ bs w ws n ns hfirst hrest _ =>
    ⟨n, ns, w, ws, bs, rfl, rfl, hfirst.firstDeclaration (List.cons.inj hx).1,
      (List.cons.inj hx).2 ▸ hrest⟩

end

theorem Derives.of_file (h : Derives name (.nonterminal .file) b w n) (hw : w ≠ []) :
    FirstDeclaration name w n := by
  obtain ⟨body, _, ns, hbody, hall, hv⟩ := h.of_rule (r := .file) (by decide)
  obtain ⟨_, w₁, _, ns₁, _, _, rfl, rfl, hfirst, hbody, hall⟩ := hall.of_maybe hbody
  obtain rfl := List.mem_singleton.mp hbody
  obtain ⟨_, rfl, rfl⟩ := hall.of_nil
  rcases hfirst with ⟨rfl, -⟩ | ⟨_, n', rfl, hds⟩
  · exact absurd rfl hw
  · obtain ⟨b₁, w₁, n₁, w₂, d, ds, rfl, hd, hn₁, hvalue, hnil⟩ := hds.firstDeclaration rfl
    have hvalue' : n.value = n'.value := (Option.some.inj hv).symm
    exact ⟨b₁, w₁, n₁, w₂, d, ds, List.append_nil _, hd, hn₁, hvalue'.trans hvalue, hnil⟩

end RbsSynth.Signature
