import RbsSynth.Signature.Reader

/-!
# Moves of the table

`next? q X` is the state behind the symbol `X`, `walk? q` that behind a word of symbols, and
`action? q t` what is done before the terminal `t`.

Where a nonterminal leads from `q` to `q'`, each of its bodies can be walked from `q`, and before
every terminal that `q'` has a move for the body is reduced        (walk?_of_next?, action?_of_next?)

but for a plain operand before a question mark, which the table shifts.
-/

namespace RbsSynth.Signature

/-- The moves of a state; sealed, so that nothing unfolds the table by accident. -/
@[irreducible] def row? (q : Nat) : Option Lr.Row := table[q]?

theorem row?_eq (q : Nat) : row? q = table[q]? := by
  unfold row?
  with_reducible rfl

/-- What state `q` does before the terminal `t`. -/
def action? (q : Nat) (t : Terminal) : Option Lr.Action := (row? q).bind (·.action? t.number)

/-- The state behind a symbol. -/
def next? (q : Nat) : Symbol → Option Nat
  | .terminal t =>
    match action? q t with
    | some (.shift q') => some q'
    | _ => none
  | .nonterminal n => (row? q).bind (·.goto? n.number)

/-- The state behind a word. -/
def walk? (q : Nat) : List Symbol → Option Nat
  | [] => some q
  | x :: xs =>
    match next? q x with
    | none => none
    | some q' => walk? q' xs

/-- State `q` has a move for the terminal `t`. -/
def Accepts (q : Nat) (t : Terminal) : Prop := (action? q t).isSome = true

/-- State `q` reduces a production before the terminal `t`. -/
def Reduces (q : Nat) (t : Terminal) : Prop := ∃ p, action? q t = some (.reduce p)

theorem Reduces.accepts {q : Nat} {t : Terminal} (h : Reduces q t) : Accepts q t := by
  obtain ⟨p, hp⟩ := h
  rw [Accepts, hp]
  rfl

theorem accepts_of_next? {q q' : Nat} {t : Terminal} (h : next? q (.terminal t) = some q') :
    Accepts q t := by
  rw [next?] at h
  split at h
  · next he => rw [Accepts, he]; rfl
  · cases h

theorem action?_of_next?_terminal {q q' : Nat} {t : Terminal}
    (h : next? q (.terminal t) = some q') : action? q t = some (.shift q') := by
  rw [next?] at h
  split at h
  · next he => rw [he, Option.some.inj h]
  · cases h

theorem walk?_cons {q q' : Nat} {x : Symbol} (xs : List Symbol) (h : next? q x = some q') :
    walk? q (x :: xs) = walk? q' xs := by
  rw [walk?, h]

/-- A walk goes through a first state. -/
theorem walk?_cons_eq_some {q n : Nat} {x : Symbol} {xs : List Symbol}
    (h : walk? q (x :: xs) = some n) : ∃ q', next? q x = some q' ∧ walk? q' xs = some n := by
  rw [walk?] at h
  split at h
  · cases h
  · next q' hq => exact ⟨q', hq, h⟩

/-! ## Sets of terminals -/

theorem mem_eq_testBit (i set : Nat) : Lr.mem i set = set.testBit i := by
  have h : (set >>> i) &&& 1 = (set >>> i) % 2 := Nat.and_one_is_mod _
  show Nat.beq ((set >>> i) &&& 1) 1 = set.testBit i
  rw [h, Nat.testBit_eq_decide_div_mod_eq, Nat.shiftRight_eq_div_pow]
  rcases Nat.mod_two_eq_zero_or_one (set / 2 ^ i) with h0 | h1
  · rw [h0]; rfl
  · rw [h1]; rfl

theorem mem_lor (i a b : Nat) : Lr.mem i (a.lor b) = (Lr.mem i a || Lr.mem i b) := by
  rw [mem_eq_testBit, mem_eq_testBit, mem_eq_testBit]
  exact Nat.testBit_or a b i

theorem mem_single (i j : Nat) : Lr.mem i (Lr.single j) = decide (j = i) := by
  rw [mem_eq_testBit, Lr.single]
  show (1 <<< j).testBit i = _
  rw [Nat.one_shiftLeft, Nat.testBit_two_pow]

theorem not_mem_zero (i : Nat) : Lr.mem i 0 = false := by
  rw [mem_eq_testBit]
  exact Nat.zero_testBit i

/-- The members of `a` that are not in `b`. -/
def without (a b : Nat) : Nat := a.xor (a.land b)

theorem mem_without (i a b : Nat) : Lr.mem i (without a b) = (Lr.mem i a && !Lr.mem i b) := by
  rw [mem_eq_testBit, mem_eq_testBit, mem_eq_testBit, without]
  show (a ^^^ (a &&& b)).testBit i = _
  rw [Nat.testBit_xor, Nat.testBit_and]
  cases a.testBit i <;> cases b.testBit i <;> rfl

def subset (a b : Nat) : Bool := (a.land b).beq a

theorem mem_of_subset {a b i : Nat} (h : subset a b = true) (hi : Lr.mem i a = true) :
    Lr.mem i b = true := by
  have he : a &&& b = a := Nat.eq_of_beq_eq_true h
  rw [mem_eq_testBit] at hi ⊢
  rw [← he, Nat.testBit_and, Bool.and_eq_true] at hi
  exact hi.2

/-- The numbers that a list of pairs has a value for. -/
def keysOf : List (Nat × Nat) → Nat
  | [] => 0
  | (t, _) :: rest => (Lr.single t).lor (keysOf rest)

theorem mem_keysOf (t : Nat) (l : List (Nat × Nat)) :
    Lr.mem t (keysOf l) = (Lr.lookup t l).isSome := by
  induction l with
  | nil => exact not_mem_zero t
  | cons p rest ih =>
    obtain ⟨k, v⟩ := p
    rw [keysOf, mem_lor, mem_single, ih, Lr.lookup]
    by_cases hk : k = t
    · rw [hk, decide_eq_true rfl, Bool.true_or]
      show _ = Option.isSome (bif Nat.beq t t then some v else Lr.lookup t rest)
      rw [Nat.beq_refl]
      rfl
    · have hne : Nat.beq t k = false := by
        rw [← Bool.not_eq_true]
        exact fun h => hk (Nat.eq_of_beq_eq_true h).symm
      rw [decide_eq_false hk, Bool.false_or, hne]
      rfl

/-- The terminals that a row has a move for. -/
def acceptSet (row : Lr.Row) : Nat :=
  (keysOf row.shifts).lor (row.reductions.foldr (fun r set => r.2.lor set) 0)

theorem mem_reductions (t : Nat) (l : List (Nat × Nat)) :
    Lr.mem t (l.foldr (fun r set => r.2.lor set) 0) = (Lr.reductionOn t l).isSome := by
  induction l with
  | nil => exact not_mem_zero t
  | cons p rest ih =>
    obtain ⟨k, set⟩ := p
    rw [List.foldr_cons, mem_lor, ih, Lr.reductionOn]
    cases Lr.mem t set <;> rfl

theorem mem_acceptSet (row : Lr.Row) (t : Nat) :
    Lr.mem t (acceptSet row) = (row.action? t).isSome := by
  rw [acceptSet, mem_lor, mem_keysOf, mem_reductions, Lr.Row.action?]
  cases Lr.lookup t row.shifts with
  | some q => rfl
  | none => exact Option.isSome_map.symm

/-- The terminals before which a production is the first to be reduced; those of `taken` come before
all. -/
def reduceSet (p : Nat) : Nat → List (Nat × Nat) → Nat
  | _, [] => 0
  | taken, (q, set) :: rest =>
    (bif q.beq p then without set taken else 0).lor (reduceSet p (taken.lor set) rest)

theorem reductionOn_of_mem_reduceSet {p t : Nat} {l : List (Nat × Nat)} {taken : Nat}
    (h : Lr.mem t (reduceSet p taken l) = true) :
    Lr.mem t taken = false ∧ Lr.reductionOn t l = some p := by
  induction l generalizing taken with
  | nil => rw [reduceSet, not_mem_zero] at h; cases h
  | cons r rest ih =>
    obtain ⟨q, set⟩ := r
    rw [reduceSet, mem_lor, Bool.or_eq_true] at h
    rw [Lr.reductionOn]
    rcases h with h | h
    · cases hq : q.beq p with
      | true =>
        rw [hq, cond_true, mem_without, Bool.and_eq_true, Bool.not_eq_true'] at h
        rw [h.1, Nat.eq_of_beq_eq_true hq]
        exact ⟨h.2, rfl⟩
      | false =>
        rw [hq, cond_false, not_mem_zero] at h
        cases h
    · obtain ⟨h1, h2⟩ := ih h
      rw [mem_lor, Bool.or_eq_false_iff] at h1
      rw [h1.2]
      exact ⟨h1.1, h2⟩

theorem action?_of_mem_reduceSet {row : Lr.Row} {p t : Nat}
    (h : Lr.mem t (reduceSet p (keysOf row.shifts) row.reductions) = true) :
    row.action? t = some (.reduce p) := by
  obtain ⟨h1, h2⟩ := reductionOn_of_mem_reduceSet h
  rw [mem_keysOf, Option.isSome_eq_false_iff, Option.isNone_iff_eq_none] at h1
  rw [Lr.Row.action?, h1, h2]
  rfl

/-! ## Bodies lead to reductions -/

/-- The one conflict of the grammar: a question mark behind an operand is shifted. -/
def shiftedBefore (p : Production) : Nat :=
  if p.rule = .plainOptional then Lr.single Terminal.question.number else 0

/-- Whether the body of production `i` can be walked from `q` and is reduced where it ends, if its
head leads out of `q`. -/
def completeAt (q : Nat) (row : Lr.Row) (i : Nat) (p : Production) : Bool :=
  match row.goto? p.head.number with
  | none => true
  | some q' =>
    match walk? q p.body, row? q' with
    | some n, some behind =>
      match row? n with
      | some last =>
        subset (acceptSet behind)
          ((reduceSet i (keysOf last.shifts) last.reductions).lor (shiftedBefore p))
      | none => false
    | _, _ => false

def completeRows (ps : List (Production × Nat)) : Nat → List Lr.Row → Bool
  | _, [] => true
  | q, row :: rows =>
    (row.gotos.isEmpty || ps.all fun p => completeAt q row p.2 p.1) && completeRows ps (q + 1) rows

set_option maxRecDepth 100000 in
theorem completeRows_table : completeRows productions.zipIdx 0 table.toList = true := by
  decide +kernel

theorem completeAt_of_completeRows {ps : List (Production × Nat)} {rows : List Lr.Row}
    {base q i : Nat} {row : Lr.Row} {p : Production} (h : completeRows ps base rows = true)
    (hq : rows[q]? = some row) (hp : (p, i) ∈ ps) : completeAt (base + q) row i p = true := by
  induction rows generalizing base q with
  | nil => cases hq
  | cons r rows ih =>
    rw [completeRows, Bool.and_eq_true, Bool.or_eq_true] at h
    match q with
    | 0 =>
      obtain rfl : r = row := Option.some.inj hq
      rcases h.1 with hg | hg
      · rw [completeAt, Lr.Row.goto?, List.isEmpty_iff.mp hg]
        rfl
      · exact List.all_eq_true.mp hg (p, i) hp
    | q + 1 =>
      have := ih h.2 hq
      rwa [Nat.add_assoc, Nat.add_comm 1 q] at this

theorem complete {q q' i : Nat} {p : Production} (hp : productions[i]? = some p)
    (hq : next? q (.nonterminal p.head) = some q') :
    ∃ n, walk? q p.body = some n ∧ ∀ t, Accepts q' t →
      ¬ (p.rule = .plainOptional ∧ t = .question) → action? n t = some (.reduce i) := by
  rw [next?, Option.bind_eq_some_iff] at hq
  obtain ⟨row, hrow, hgoto⟩ := hq
  have hmem : (p, i) ∈ productions.zipIdx :=
    List.mk_mem_zipIdx_iff_getElem?.mpr hp
  have hrow' : table.toList[q]? = some row := by rw [Array.getElem?_toList, ← row?_eq]; exact hrow
  have h := completeAt_of_completeRows completeRows_table hrow' hmem
  rw [Nat.zero_add, completeAt, hgoto] at h
  simp only [] at h
  split at h
  · next n behind hn hbehind =>
    split at h
    · next last hlast =>
      refine ⟨n, hn, fun t ht hconflict => ?_⟩
      have hbit : Lr.mem t.number (acceptSet behind) = true := by
        rw [mem_acceptSet]
        rw [Accepts, action?, hbehind] at ht
        exact ht
      have hin := mem_of_subset h hbit
      rw [mem_lor, Bool.or_eq_true] at hin
      rw [action?, hlast]
      rcases hin with hin | hin
      · exact action?_of_mem_reduceSet hin
      · exfalso
        rw [shiftedBefore] at hin
        split at hin
        · next hr =>
          rw [mem_single, decide_eq_true_eq] at hin
          refine hconflict ⟨hr, ?_⟩
          revert hin
          cases t <;> decide
        · rw [not_mem_zero] at hin
          cases hin
    · cases h
  · cases h

/-- The bodies of a nonterminal can be walked wherever it leads somewhere. -/
theorem walk?_of_next? {q q' : Nat} {p : Production} (hp : p ∈ productions)
    (hq : next? q (.nonterminal p.head) = some q') : ∃ n, walk? q p.body = some n := by
  obtain ⟨i, hi⟩ := List.mem_iff_getElem?.mp hp
  obtain ⟨n, hn, _⟩ := complete hi hq
  exact ⟨n, hn⟩

/-- At the end of its body a production is reduced before what may come behind its head. -/
theorem action?_of_next? {q q' n i : Nat} {p : Production} {t : Terminal}
    (hp : productions[i]? = some p) (hq : next? q (.nonterminal p.head) = some q')
    (hn : walk? q p.body = some n) (ht : Accepts q' t)
    (hconflict : p.rule = .plainOptional → t ≠ .question) : action? n t = some (.reduce i) := by
  obtain ⟨n', hn', h⟩ := complete hp hq
  obtain rfl : n' = n := Option.some.inj (hn'.symm.trans hn)
  exact h t ht fun hc => hconflict hc.1 hc.2

end RbsSynth.Signature
