import RbsSynth.Proofs.Table.Derivation

/-!
# Stacks hold what was read

`Holds name stack b w` says that the nodes of a stack, the oldest first, are derived from the tokens `w`,
one behind another; `b` says that a question mark would be read as a part of the newest.

    Holds name stack false w,  v leads from stack to stack'  →  Holds name stack' false (w ++ v)
                                                                              (Holds.feedTokens)
    Holds name stack b w,  stack is accepted  →  w is derived as a file   (Holds.accepted)
-/

namespace RbsSynth.Signature

inductive Holds (name : String) : List (Lr.Frame Node) → Bool → List Token → Prop
  | nil : Holds name [] false []
  | push {stack : List (Lr.Frame Node)} {x : Symbol} {q : Nat} {b : Bool} {u w : List Token} {n : Node}
    (h : Holds name stack false u) (hq : next? (Lr.top stack) x = some q) (hn : Derives name x b w n) :
    Holds name (⟨q, n⟩ :: stack) b (u ++ w)

variable {name : String} {stack stack' : List (Lr.Frame Node)} {b : Bool} {w : List Token}

theorem Holds.chain (h : Holds name stack b w) : Chain (fun _ _ _ => True) stack := by
  induction h with
  | nil => exact .nil
  | push _ hq _ ih => exact .push ih hq trivial

/-! ## Operands that may go on -/

/-- Whether the state behind an operand that may go on shifts nothing but a question mark and reduces
what it holds. -/
def closesAt (row : Lr.Row) : Bool :=
  row.shifts.all (·.1 == Terminal.question.number) &&
    row.reductions.all fun r => !(bodyNumbers.getD r.1 []).isEmpty

/-- Whether an operand is never complete before a question mark. -/
def goesOnAt (row : Lr.Row) : Bool :=
  row.reductions.all fun r => (productions[r.1]?).all fun p =>
    p.rule != .plainOptional || (Lr.lookup Terminal.question.number row.shifts).isSome

def operandRows (rows : List Lr.Row) : Bool :=
  rows.all fun row => goesOnAt row && row.gotos.all fun e =>
    [Nonterminal.optional, .simple].all fun m =>
      e.1 != m.number || closesAt (rows.getD e.2 ⟨[], [], []⟩)

set_option maxRecDepth 100000 in
theorem operandRows_table : operandRows table.toList = true := by decide

theorem mem_table {q : Nat} {row : Lr.Row} (h : row? q = some row) : row ∈ table.toList := by
  rw [row?_eq] at h
  exact Array.mem_toList_iff.mpr (Array.mem_of_getElem? h)

theorem closesAt_of_next? {q q' : Nat} {x : Symbol} {row : Lr.Row} (hx : x.mayBeOpen = true)
    (h : next? q x = some q') (hrow : row? q' = some row) : closesAt row = true := by
  rw [Symbol.mayBeOpen, Bool.or_eq_true, decide_eq_true_eq, decide_eq_true_eq] at hx
  obtain ⟨m, hm, rfl⟩ : ∃ m ∈ [Nonterminal.optional, .simple], x = .nonterminal m := by
    rcases hx with rfl | rfl
    · exact ⟨_, List.mem_cons_self, rfl⟩
    · exact ⟨_, List.mem_cons_of_mem _ List.mem_cons_self, rfl⟩
  rw [next?, Option.bind_eq_some_iff] at h
  obtain ⟨before, hbefore, hgoto⟩ := h
  have hall := List.all_eq_true.mp operandRows_table before (mem_table hbefore)
  rw [Bool.and_eq_true] at hall
  have h := List.all_eq_true.mp (List.all_eq_true.mp hall.2 _ (mem_of_lookup hgoto)) m hm
  rwa [bne_self_eq_false, Bool.false_or, List.getD_eq_getElem?_getD, Array.getElem?_toList, ← row?_eq,
    hrow] at h

/-- Nothing but a question mark is shifted behind an operand that may go on. -/
theorem eq_question_of_shift {q q' r : Nat} {x : Symbol} {t : Terminal} (hx : x.mayBeOpen = true)
    (h : next? q x = some q') (ha : action? q' t = some (.shift r)) : t = .question := by
  obtain ⟨row, hrow, hmem⟩ := mem_shifts_of_next? (next?_of_action? ha)
  have hc := closesAt_of_next? hx h hrow
  rw [closesAt, Bool.and_eq_true] at hc
  exact Terminal.number_inj (eq_of_beq (List.all_eq_true.mp hc.1 _ hmem))

/-- Behind such an operand it is reduced itself. -/
theorem body_ne_nil_of_reduce {q q' i : Nat} {x : Symbol} {t : Terminal} {p : Production}
    (hx : x.mayBeOpen = true) (h : next? q x = some q') (ha : action? q' t = some (.reduce i))
    (hp : productions[i]? = some p) : p.body ≠ [] := by
  obtain ⟨row, set, hrow, hmem⟩ := mem_of_reduce ha
  have hc := closesAt_of_next? hx h hrow
  rw [closesAt, Bool.and_eq_true] at hc
  have hne := List.all_eq_true.mp hc.2 _ hmem
  rw [bodyNumbers_getD hp] at hne
  rintro he
  rw [he] at hne
  cases hne

theorem ne_question_of_reduce {q i : Nat} {t : Terminal} {p : Production}
    (ha : action? q t = some (.reduce i)) (hp : productions[i]? = some p)
    (hplain : p.rule = .plainOptional) : t ≠ .question := by
  rintro rfl
  obtain ⟨row, set, hrow, hmem⟩ := mem_of_reduce ha
  have hall := List.all_eq_true.mp operandRows_table row (mem_table hrow)
  rw [Bool.and_eq_true] at hall
  have h := List.all_eq_true.mp hall.1 _ hmem
  rw [hp, Option.all_some, hplain, bne_self_eq_false, Bool.false_or, Option.isSome_iff_exists] at h
  obtain ⟨r, hr⟩ := h
  rw [action?, hrow, Option.bind_some, Lr.Row.action?, hr] at ha
  cases ha

theorem Holds.mayBeOpen {f : Lr.Frame Node} (h : Holds name (f :: stack) true w) :
    ∃ x, x.mayBeOpen = true ∧ next? (Lr.top stack) x = some f.state := by
  cases h with
  | push _ hq hn => exact ⟨_, hn.mayBeOpen rfl, hq⟩

/-! ## Reductions -/

/-- The symbols before the dot are derived from the last tokens that a stack holds. -/
theorem Holds.pop (h : Holds name stack b w) : ∀ (word : List Symbol),
    word.map Symbol.number <+: past (Lr.top stack) →
    ∃ frames below u v b₁ b₂, stack = frames ++ below ∧ frames.length = word.length ∧
      Holds name below b₁ u ∧ w = u ++ v ∧ (b₁ || b₂) = b ∧ (word ≠ [] → b₁ = false) ∧
      DerivesAll name word.reverse b₂ v (frames.reverse.map (·.value)) ∧
      walk? (Lr.top below) word.reverse = some (Lr.top stack) := by
  induction h with
  | nil =>
    intro word hw
    have hp : past (Lr.top ([] : List (Lr.Frame Node))) = [] := by decide
    rw [hp, List.prefix_nil, List.map_eq_nil_iff] at hw
    subst hw
    exact ⟨[], [], [], [], false, false, rfl, rfl, .nil, rfl, rfl, fun h => absurd rfl h, .nil, rfl⟩
  | @push stack x q b u w n h hq hn ih =>
    intro word hw
    match word with
    | [] =>
      exact ⟨[], ⟨q, n⟩ :: stack, u ++ w, [], b, false, rfl, rfl, .push h hq hn,
        (List.append_nil _).symm, Bool.or_false b, fun h => absurd rfl h, .nil, rfl⟩
    | y :: ys =>
      have hpre := hw.trans (past_of_next? hq)
      rw [List.map_cons, List.cons_prefix_cons] at hpre
      obtain rfl : y = x := Symbol.number_inj hpre.1
      obtain ⟨frames, below, u', v, b₁, b₂, hs, hlen, hbelow, hu, hb, _, hall, hwalk⟩ := ih ys hpre.2
      obtain ⟨rfl, rfl⟩ := Bool.or_eq_false_iff.mp hb
      refine ⟨⟨q, n⟩ :: frames, below, u', v ++ w, false, b, by rw [hs]; rfl,
        by rw [List.length_cons, hlen]; rfl, hbelow, by rw [hu, List.append_assoc], rfl,
        fun _ => rfl, ?_, ?_⟩
      · rw [List.reverse_cons, List.reverse_cons, List.map_append]
        exact hall.append hn.singleton
      · rw [List.reverse_cons, walk?_append _ hwalk]
        exact walk?_cons [] hq

theorem zero_of_rule {i : Nat} {p : Production} (hp : productions[i]? = some p)
    (hr : p.rule = .root) : i = 0 := by
  have hall : productions.zipIdx.all (fun p => p.1.rule != .root || p.2 == 0) = true := by
    decide
  have h := List.all_eq_true.mp hall (p, i) (List.mk_mem_zipIdx_iff_getElem?.mpr hp)
  rw [hr, bne_self_eq_false, Bool.false_or] at h
  exact eq_of_beq h

theorem buildNode_eq_some {i : Nat} {p : Production} {ns : List Node} {n : Node}
    (hp : productions[i]? = some p) (h : buildNode name i ns = some n) :
    ∃ v, p.rule.build name (hull ns) (ns.map (·.value)) = some v ∧ n = ⟨v, hull ns⟩ := by
  have ht : productionTable[i]? = some p := (productionTable_getElem? i).trans hp
  unfold buildNode at h
  rw [ht] at h
  obtain ⟨v, hv, he⟩ := Option.map_eq_some_iff.mp h
  exact ⟨v, hv, he.symm⟩

variable {t : Terminal}

/-- A reduction holds the same tokens. -/
theorem Holds.reduce {i : Nat} (h : Holds name stack b w) (hb : b = true → t ≠ .question)
    (ha : action? (Lr.top stack) t = some (.reduce i)) (hi : i ≠ 0)
    (hr : (machine name).reduce i stack = some stack') :
    ∃ b', Holds name stack' b' w ∧ (b' = true → t ≠ .question) := by
  obtain ⟨p, q, n, hp, hn, hq, rfl⟩ := reduce_eq_some hr
  have hpast := past_of_reduce ha hp
  rw [← List.map_reverse] at hpast
  obtain ⟨frames, below, u, v, b₁, b₂, rfl, hlen, hbelow, rfl, hbs, hne, hall, _⟩ :=
    h.pop p.body.reverse hpast
  rw [List.length_reverse] at hlen
  rw [List.reverse_reverse] at hall
  rw [← hlen, List.take_left] at hn
  rw [← hlen, List.drop_left] at hq ⊢
  obtain ⟨v', hv, rfl⟩ := buildNode_eq_some hp hn
  -- Where nothing is reduced the newest node may not go on.
  have hb₁ : b₁ = false := by
    refine Bool.eq_false_iff.mpr fun hopen => ?_
    subst hopen
    have hnil : p.body = [] := by
      cases hbody : p.body with
      | nil => rfl
      | cons => cases hne fun he => by rw [List.reverse_eq_nil_iff, hbody] at he; cases he
    rw [hnil] at hlen
    obtain rfl := List.eq_nil_of_length_eq_zero hlen
    cases below with
    | nil => cases hbelow
    | cons f below =>
      obtain ⟨x, hx, hf⟩ := hbelow.mayBeOpen
      exact body_ne_nil_of_reduce hx hf ha hp hnil
  subst hb₁
  rw [Bool.false_or] at hbs
  subst hbs
  have hroot : p.rule ≠ .root := fun he => hi (zero_of_rule hp he)
  refine ⟨p.rule.opens b₂, .push hbelow hq
    (.node (List.mem_of_getElem? hp) hroot hall hv), fun hopens => ?_⟩
  cases hrule : p.rule with
  | plainOptional => exact ne_question_of_reduce ha hp hrule
  | proc =>
    rw [hrule] at hopens
    exact hb hopens
  | _ =>
    rw [hrule] at hopens
    cases hopens

theorem Holds.falls (h : Holds name stack b w) (hb : b = true → t ≠ .question)
    (hf : Falls name t stack stack') : ∃ b', Holds name stack' b' w ∧ (b' = true → t ≠ .question) := by
  induction hf generalizing b with
  | refl => exact ⟨b, h, hb⟩
  | step ha hr _ ih =>
    obtain ⟨b', h', hb'⟩ := h.reduce hb ha (Nat.succ_ne_zero _) hr
    exact ih h' hb'

/-! ## Reading -/

/-- **A token is held behind the others.** -/
theorem Holds.shift {k : Token} {q : Nat} (h : Holds name stack false w)
    (hs : (machine name).settle k.terminal.number stack = .shift q stack') :
    Holds name (⟨q, ⟨.token k, some k.span⟩⟩ :: stack') false (w ++ [k]) := by
  obtain ⟨hf, ha⟩ := falls_of_shift hs
  obtain ⟨b, h', hb⟩ := h.falls (fun h => by cases h) hf
  have hclosed : b = false := by
    refine Bool.eq_false_iff.mpr fun hopen => ?_
    subst hopen
    cases stack' with
    | nil => cases h'
    | cons f below =>
      obtain ⟨x, hx, hq⟩ := h'.mayBeOpen
      exact hb rfl (eq_question_of_shift hx hq ha)
  subst hclosed
  exact .push h' (next?_of_action? ha) (.token k)

theorem Holds.feedTokens {v : List Token} (h : Holds name stack false w)
    (hv : feedTokens (machine name) v stack = some stack') : Holds name stack' false (w ++ v) := by
  induction v generalizing stack w with
  | nil =>
    obtain rfl : stack = stack' := Option.some.inj hv
    rwa [List.append_nil]
  | cons k v ih =>
    rw [Signature.feedTokens] at hv
    split at hv
    · next q below hs =>
      have := ih (h.shift hs) hv
      rwa [List.append_assoc] at this
    · cases hv
    · cases hv

/-- Only the first state leads to a whole file. -/
theorem fileRows_table : (table.toList.zipIdx.all fun r =>
    r.1.gotos.all fun e => e.1 != Nonterminal.file.number || r.2 == 0) = true := by
  decide +kernel

theorem eq_zero_of_next?_file {q q' : Nat} (h : next? q (.nonterminal .file) = some q') : q = 0 := by
  rw [next?, Option.bind_eq_some_iff] at h
  obtain ⟨row, hrow, hgoto⟩ := h
  have hmem : (row, q) ∈ table.toList.zipIdx := by
    rw [List.mk_mem_zipIdx_iff_getElem?, Array.getElem?_toList, ← row?_eq]
    exact hrow
  have h := List.all_eq_true.mp (List.all_eq_true.mp fileRows_table _ hmem) _ (mem_of_lookup hgoto)
  rw [bne_self_eq_false, Bool.false_or] at h
  exact eq_of_beq h

theorem next?_ne_zero {q : Nat} {x : Symbol} : next? q x ≠ some 0 := by
  intro h
  have hp : (past 0).head? = none := by decide
  rw [head?_past h] at hp
  cases hp

theorem Chain.eq_nil {P : Nat → Symbol → Node → Prop} (h : Chain P stack) (h0 : Lr.top stack = 0) :
    stack = [] := by
  cases h with
  | nil => rfl
  | @push _ _ q _ _ hq _ =>
    obtain rfl : q = 0 := h0
    exact absurd hq next?_ne_zero

/-- **Soundness.**  Where a stack is accepted, the tokens that it holds are a file, with its node. -/
theorem Holds.accepted (h : Holds name stack b w)
    (ha : (machine name).settle Terminal.endOfText.number stack = .accept stack') :
    ∃ n b, stack' = [⟨fileState, n⟩] ∧ Derives name (.nonterminal .file) b w n := by
  obtain ⟨hf, hact⟩ := falls_of_accept ha
  obtain ⟨b, h', -⟩ := h.falls (fun _ => by decide) hf
  have hroot : productions[0]? = some ⟨.root, [.nonterminal .file]⟩ := by decide
  have hpast := past_of_reduce hact hroot
  cases h' with
  | nil =>
    have hp : past (Lr.top ([] : List (Lr.Frame Node))) = [] := by decide
    rw [hp] at hpast
    exact absurd (List.prefix_nil.mp hpast) (by decide)
  | @push below x q b u w n h' hq hn =>
    have hpre := hpast.trans (past_of_next? hq)
    rw [List.map_singleton, List.reverse_singleton, List.cons_prefix_cons] at hpre
    obtain rfl : .nonterminal .file = x := Symbol.number_inj hpre.1
    have h0 := eq_zero_of_next?_file hq
    obtain rfl := h'.chain.eq_nil h0
    cases h'
    have hstate : next? 0 (.nonterminal .file) = some q := hq
    rw [next?_file] at hstate
    obtain rfl := Option.some.inj hstate
    exact ⟨n, b, rfl, hn⟩

end RbsSynth.Signature
