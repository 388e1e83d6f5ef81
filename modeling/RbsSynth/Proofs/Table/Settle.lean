import RbsSynth.Proofs.Table.Past

/-!
# Settling a stack

The moves before one terminal come to an end: `measure` falls with each reduction, and the moves that
`settle` allows are more than it.  So `settle` goes on from the stack that a reduction leaves:

    action? (top stack) t = reduce p,  reduce p stack = stack'
      →  settle t stack = settle t stack'                                     (settle_reduce)
-/

namespace RbsSynth.Signature

/-! ## The measure -/

/-- How many moves may come right behind a nonterminal, at most: reductions of its own and, before a
member or declaration without annotations, the frame that is pushed for them. -/
def Nonterminal.weight : Nonterminal → Nat
  | .declaration | .member => 22
  | .declarations | .members | .className | .interfacePath | .typeParameters | .superclass
  | .selfTypes => 21
  | .annotations | .file | .root => 0
  | .declarationBody | .memberBody | .methodTypes | .parameter | .selfType => 3
  | .union => 5
  | .intersection => 6
  | .optional => 7
  | .simple => 8
  | .aliasName => 9
  | _ => 4

/-- The weight of a frame. -/
def frameWeight : Nat := 20

def weightOf (x : Nat) : Nat := (Nonterminal.ofNat (x - Terminal.all.length)).weight

/-- What a reduction of one production must find on top: a frame more than it leaves. -/
def moveRank (shapes : List (Nat × Nat)) (i : Nat) : Nat :=
  if i = 0 then 0
  else
    match shapes[i]? with
    | none => 0
    | some (head, arity) => weightOf head + frameWeight + 1 - frameWeight * arity

def shapeList : List (Nat × Nat) := productions.map fun p => (p.head.number, p.body.length)

def rankOf (row : Lr.Row) : Nat :=
  row.reductions.foldr (fun r most => max (moveRank shapeList r.1) most) 0

/-- The rank of a state is what the greatest of its reductions needs. -/
def rank (q : Nat) : Nat :=
  match row? q with
  | none => 0
  | some row => rankOf row

def rankRows (ranks : List Nat) (rows : List Lr.Row) : Bool :=
  ranks.all (· ≤ 50) && rows.all fun row =>
    row.gotos.all fun e => ranks.getD e.2 0 ≤ weightOf e.1

set_option maxRecDepth 100000 in
theorem rankRows_table : rankRows (table.toList.map rankOf) table.toList = true := by
  decide +kernel

theorem ranks_getD (q : Nat) : (table.toList.map rankOf).getD q 0 = rank q := by
  rw [List.getD_eq_getElem?_getD, List.getElem?_map, Array.getElem?_toList, ← row?_eq, rank]
  cases row? q <;> rfl

theorem rank_le (q : Nat) : rank q ≤ 50 := by
  have h := rankRows_table
  rw [rankRows, Bool.and_eq_true, List.all_eq_true] at h
  rw [← ranks_getD, List.getD_eq_getElem?_getD]
  cases hq : (table.toList.map rankOf)[q]? with
  | none => exact Nat.zero_le 50
  | some r => exact of_decide_eq_true (h.1 r (List.mem_of_getElem? hq))

theorem weightOf_number (n : Nonterminal) : weightOf n.number = n.weight := by
  rw [weightOf, Nonterminal.number, Nat.add_sub_cancel_left, Nonterminal.ofNat_ctorIdx]

theorem rank_le_weight {q q' : Nat} {n : Nonterminal}
    (h : next? q (.nonterminal n) = some q') : rank q' ≤ n.weight := by
  rw [next?, Option.bind_eq_some_iff] at h
  obtain ⟨row, hrow, hgoto⟩ := h
  have hr := rankRows_table
  rw [rankRows, Bool.and_eq_true, List.all_eq_true, List.all_eq_true] at hr
  have hmem : row ∈ table.toList := by
    rw [row?_eq] at hrow
    exact Array.mem_toList_iff.mpr (Array.mem_of_getElem? hrow)
  have he := List.all_eq_true.mp (hr.2 row hmem) _ (mem_of_lookup hgoto)
  rw [ranks_getD, weightOf_number] at he
  exact of_decide_eq_true he

theorem le_rankOf {row : Lr.Row} {i set : Nat} (h : (i, set) ∈ row.reductions) :
    moveRank shapeList i ≤ rankOf row := by
  rw [rankOf]
  revert h
  induction row.reductions with
  | nil => exact fun h => absurd h List.not_mem_nil
  | cons r rest ih =>
    intro h
    rw [List.foldr_cons]
    rcases List.mem_cons.mp h with h | h
    · rw [← h]
      exact Nat.le_max_left _ _
    · exact Nat.le_trans (ih h) (Nat.le_max_right _ _)

theorem weight_le_rank {q i : Nat} {t : Terminal} {p : Production}
    (h : action? q t = some (.reduce i)) (hp : productions[i]? = some p) (hi : i ≠ 0) :
    p.head.weight + frameWeight + 1 - frameWeight * p.body.length ≤ rank q := by
  obtain ⟨row, set, hrow, hmem⟩ := mem_of_reduce h
  have hm := le_rankOf hmem
  have hs : shapeList[i]? = some (p.head.number, p.body.length) := by
    rw [shapeList, List.getElem?_map, hp]
    rfl
  rw [moveRank, if_neg hi, hs] at hm
  simp only [weightOf_number] at hm
  rw [rank, hrow]
  exact hm

/-! ## Reductions -/

variable {name : String} {P : Nat → Symbol → Node → Prop} {stack stack' : List (Lr.Frame Node)}
  {t : Terminal}

theorem machine_row? (name : String) (stack : List (Lr.Frame Node)) :
    (machine name).row? stack = row? (Lr.top stack) := (row?_eq (Lr.top stack)).symm

theorem machine_action? (name : String) (stack : List (Lr.Frame Node)) (t : Terminal) :
    ((machine name).row? stack).bind (·.action? t.number) = action? (Lr.top stack) t := by
  rw [machine_row?, action?]

theorem productionShapes_getElem? (i : Nat) :
    (machine name).productions[i]? = productions[i]?.map fun p => (p.head.number, p.body.length) := by
  show productionShapes[i]? = _
  rw [productionShapes, List.getElem?_toArray, List.getElem?_map]

theorem productionTable_getElem? (i : Nat) : productionTable[i]? = productions[i]? := by
  rw [productionTable, List.getElem?_toArray]

theorem machine_build (name : String) (i : Nat) (ns : List Node) :
    (machine name).build i ns = buildNode name i ns := by
  with_unfolding_none
  rw [machine]

/-- What a reduction does to a stack. -/
theorem reduce_eq_some {i : Nat} (h : (machine name).reduce i stack = some stack') :
    ∃ p q n, productions[i]? = some p ∧
      buildNode name i ((stack.take p.body.length).reverse.map (·.value)) = some n ∧
      next? (Lr.top (stack.drop p.body.length)) (.nonterminal p.head) = some q ∧
      stack' = ⟨q, n⟩ :: stack.drop p.body.length := by
  rw [Lr.Machine.reduce, productionShapes_getElem?] at h
  simp only [Option.bind_eq_bind, Option.bind_eq_some_iff, Option.map_eq_some_iff, machine_build,
    machine_row?] at h
  obtain ⟨⟨head, arity⟩, ⟨p, hp, he⟩, n, hn, row, hrow, q, hq, h⟩ := h
  obtain ⟨rfl, rfl⟩ := Prod.mk.inj he
  refine ⟨p, q, n, hp, hn, ?_, (Option.some.inj h).symm⟩
  rw [next?, hrow]
  exact hq

theorem reduce_of_build {i : Nat} {p : Production} {q : Nat} {n : Node}
    (hp : productions[i]? = some p)
    (hn : buildNode name i ((stack.take p.body.length).reverse.map (·.value)) = some n)
    (hq : next? (Lr.top (stack.drop p.body.length)) (.nonterminal p.head) = some q) :
    (machine name).reduce i stack = some (⟨q, n⟩ :: stack.drop p.body.length) := by
  rw [next?, Option.bind_eq_some_iff] at hq
  obtain ⟨row, hrow, hq⟩ := hq
  rw [Lr.Machine.reduce, productionShapes_getElem?, hp]
  simp only [Option.map_some, Option.bind_eq_bind, Option.bind_some, machine_build, machine_row?, hn,
    hrow, hq]
  rfl

/-- The stack of a reduction holds the whole body. -/
theorem Chain.length_le {i : Nat} {p : Production} (h : Chain P stack)
    (ha : action? (Lr.top stack) t = some (.reduce i)) (hp : productions[i]? = some p) :
    p.body.length ≤ stack.length := by
  have hpast := past_of_reduce ha hp
  rw [← List.map_reverse] at hpast
  obtain ⟨frames, below, hs, hlen, _⟩ := h.pop p.body.reverse hpast
  rw [hs, List.length_append, hlen, List.length_reverse]
  omega

/-- How many moves a stack can still make before one terminal, at most. -/
def measure (stack : List (Lr.Frame Node)) : Nat :=
  frameWeight * stack.length + rank (Lr.top stack)

theorem measure_reduce {i : Nat} (h : Chain P stack)
    (ha : action? (Lr.top stack) t = some (.reduce i)) (hi : i ≠ 0)
    (hr : (machine name).reduce i stack = some stack') : measure stack' < measure stack := by
  obtain ⟨p, q, n, hp, _, hq, rfl⟩ := reduce_eq_some hr
  have hlen := h.length_le ha hp
  have hrank := weight_le_rank ha hp hi
  have hq := rank_le_weight hq
  rw [measure, measure, List.length_cons, List.length_drop]
  show _ + rank q < _
  rw [frameWeight] at hrank ⊢
  omega

/-- A reduction leaves a stack that follows the table. -/
theorem Chain.reduce {i : Nat} (h : Chain P stack)
    (ha : action? (Lr.top stack) t = some (.reduce i))
    (hr : (machine name).reduce i stack = some stack')
    (hP : ∀ p q ns n, productions[i]? = some p → Along P q p.body ns →
      (next? q (.nonterminal p.head)).isSome = true → buildNode name i ns = some n →
      P q (.nonterminal p.head) n) : Chain P stack' := by
  obtain ⟨p, q, n, hp, hn, hq, rfl⟩ := reduce_eq_some hr
  have hpast := past_of_reduce ha hp
  rw [← List.map_reverse] at hpast
  obtain ⟨frames, below, rfl, hlen, hbelow, _, halong⟩ := h.pop p.body.reverse hpast
  rw [List.length_reverse] at hlen
  rw [List.reverse_reverse] at halong
  rw [← hlen, List.take_left] at hn
  rw [← hlen, List.drop_left] at hq ⊢
  exact .push hbelow hq (hP p _ _ n hp halong (by rw [hq]; rfl) hn)

/-! ## Settling -/

theorem settleIn_none (ha : action? (Lr.top stack) t = none) (k : Nat) :
    (machine name).settleIn t.number (k + 1) stack = .refuse stack := by
  rw [Lr.Machine.settleIn_succ, machine_action?, ha]

theorem settleIn_shift {q : Nat} (ha : action? (Lr.top stack) t = some (.shift q)) (k : Nat) :
    (machine name).settleIn t.number (k + 1) stack = .shift q stack := by
  rw [Lr.Machine.settleIn_succ, machine_action?, ha]

theorem settleIn_accept (ha : action? (Lr.top stack) t = some (.reduce 0)) (k : Nat) :
    (machine name).settleIn t.number (k + 1) stack = .accept stack := by
  rw [Lr.Machine.settleIn_succ, machine_action?, ha]
  simp only []

theorem settleIn_stuck {i : Nat} (ha : action? (Lr.top stack) t = some (.reduce (i + 1)))
    (hr : (machine name).reduce (i + 1) stack = none) (k : Nat) :
    (machine name).settleIn t.number (k + 1) stack = .refuse stack := by
  rw [Lr.Machine.settleIn_succ, machine_action?, ha]
  simp only [hr]

theorem settleIn_reduce {i : Nat} (ha : action? (Lr.top stack) t = some (.reduce (i + 1)))
    (hr : (machine name).reduce (i + 1) stack = some stack') (k : Nat) :
    (machine name).settleIn t.number (k + 1) stack
      = (machine name).settleIn t.number k stack' := by
  rw [Lr.Machine.settleIn_succ, machine_action?, ha]
  simp only [hr]

theorem settleIn_congr (hchain : Chain (fun _ _ _ => True) stack) :
    ∀ {k k' : Nat}, measure stack < k → measure stack < k' →
      (machine name).settleIn t.number k stack = (machine name).settleIn t.number k' stack := by
  intro k
  induction k generalizing stack with
  | zero => exact fun h => absurd h (Nat.not_lt_zero _)
  | succ k ih =>
    intro k' hk hk'
    match k', hk' with
    | k' + 1, hk' =>
      cases ha : action? (Lr.top stack) t with
      | none => rw [settleIn_none ha, settleIn_none ha]
      | some a =>
        match a with
        | .shift q => rw [settleIn_shift ha, settleIn_shift ha]
        | .reduce 0 => rw [settleIn_accept ha, settleIn_accept ha]
        | .reduce (i + 1) =>
          cases hr : (machine name).reduce (i + 1) stack with
          | none => rw [settleIn_stuck ha hr, settleIn_stuck ha hr]
          | some stack' =>
            have hless := measure_reduce hchain ha (Nat.succ_ne_zero i) hr
            have hchain' := hchain.reduce ha hr fun _ _ _ _ _ _ _ _ => trivial
            rw [settleIn_reduce ha hr, settleIn_reduce ha hr]
            exact ih hchain' (by omega) (by omega)

/-- The moves that `settle` allows; they are more than the measure. -/
def allowance (stack : List (Lr.Frame Node)) : Nat := (stack.length + 1) * 336

set_option maxRecDepth 100000 in
theorem table_size : table.size = 336 := by decide +kernel

theorem settle_eq (name : String) (t : Nat) (stack : List (Lr.Frame Node)) :
    (machine name).settle t stack = (machine name).settleIn t (allowance stack) stack := by
  have hsize : ((machine name).rows).size = 336 := by
    rw [machine]
    exact table_size
  rw [Lr.Machine.settle.eq_1, hsize, allowance]

theorem measure_lt (stack : List (Lr.Frame Node)) : measure stack < allowance stack := by
  have hrank := rank_le (Lr.top stack)
  rw [allowance, measure, frameWeight]
  omega

theorem exists_allowance (stack : List (Lr.Frame Node)) : ∃ k, allowance stack = k + 1 := by
  have h := measure_lt stack
  exact ⟨allowance stack - 1, by omega⟩

/-- **A reduction before a terminal.**  Settling goes on from the stack it leaves. -/
theorem settle_reduce {i : Nat} (hchain : Chain (fun _ _ _ => True) stack)
    (ha : action? (Lr.top stack) t = some (.reduce i)) (hi : i ≠ 0)
    (hr : (machine name).reduce i stack = some stack') :
    (machine name).settle t.number stack = (machine name).settle t.number stack' := by
  have hlt := measure_lt stack
  have hless := measure_reduce hchain ha hi hr
  have hchain' := hchain.reduce ha hr fun _ _ _ _ _ _ _ _ => trivial
  obtain ⟨k, hk⟩ := exists_allowance stack
  obtain ⟨i, rfl⟩ := Nat.exists_eq_succ_of_ne_zero hi
  rw [settle_eq, settle_eq, hk, settleIn_reduce ha hr]
  exact settleIn_congr hchain' (by omega) (measure_lt stack')

theorem settle_shift {q : Nat} (ha : action? (Lr.top stack) t = some (.shift q)) :
    (machine name).settle t.number stack = .shift q stack := by
  obtain ⟨k, hk⟩ := exists_allowance stack
  rw [settle_eq, hk, settleIn_shift ha]

theorem settle_accept (ha : action? (Lr.top stack) t = some (.reduce 0)) :
    (machine name).settle t.number stack = .accept stack := by
  obtain ⟨k, hk⟩ := exists_allowance stack
  rw [settle_eq, hk, settleIn_accept ha]

/-! ## The reductions before a terminal -/

/-- `stack'` is left of `stack` by reductions before `t`. -/
inductive Falls (name : String) (t : Terminal) :
    List (Lr.Frame Node) → List (Lr.Frame Node) → Prop
  | refl (stack : List (Lr.Frame Node)) : Falls name t stack stack
  | step {stack next stack' : List (Lr.Frame Node)} {i : Nat}
    (ha : action? (Lr.top stack) t = some (.reduce (i + 1)))
    (hr : (machine name).reduce (i + 1) stack = some next) (h : Falls name t next stack') :
    Falls name t stack stack'

/-- What a verdict about a stack says. -/
inductive Ends (name : String) (t : Terminal) (stack : List (Lr.Frame Node)) :
    Lr.Verdict Node → Prop
  | shift {q : Nat} {stack' : List (Lr.Frame Node)} (h : Falls name t stack stack')
    (ha : action? (Lr.top stack') t = some (.shift q)) : Ends name t stack (.shift q stack')
  | accept {stack' : List (Lr.Frame Node)} (h : Falls name t stack stack')
    (ha : action? (Lr.top stack') t = some (.reduce 0)) : Ends name t stack (.accept stack')
  | refuse (stack' : List (Lr.Frame Node)) : Ends name t stack (.refuse stack')

theorem Ends.step {i : Nat} {v : Lr.Verdict Node}
    (ha : action? (Lr.top stack) t = some (.reduce (i + 1)))
    (hr : (machine name).reduce (i + 1) stack = some stack') (h : Ends name t stack' v) :
    Ends name t stack v := by
  cases h with
  | shift h hact => exact .shift (.step ha hr h) hact
  | accept h hact => exact .accept (.step ha hr h) hact
  | refuse stack' => exact .refuse stack'

theorem ends_settleIn (name : String) (t : Terminal) (k : Nat) (stack : List (Lr.Frame Node)) :
    Ends name t stack ((machine name).settleIn t.number k stack) := by
  induction k generalizing stack with
  | zero => exact .refuse stack
  | succ k ih =>
    cases ha : action? (Lr.top stack) t with
    | none => rw [settleIn_none ha]; exact .refuse stack
    | some a =>
      cases a with
      | shift q => rw [settleIn_shift ha]; exact .shift (.refl stack) ha
      | reduce i =>
        cases i with
        | zero => rw [settleIn_accept ha]; exact .accept (.refl stack) ha
        | succ i =>
          cases hr : (machine name).reduce (i + 1) stack with
          | none => rw [settleIn_stuck ha hr]; exact .refuse stack
          | some next => rw [settleIn_reduce ha hr]; exact .step ha hr (ih next)

theorem ends_settle (name : String) (t : Terminal) (stack : List (Lr.Frame Node)) :
    Ends name t stack ((machine name).settle t.number stack) := by
  rw [settle_eq]
  exact ends_settleIn name t _ stack

theorem falls_of_shift {q : Nat} (h : (machine name).settle t.number stack = .shift q stack') :
    Falls name t stack stack' ∧ action? (Lr.top stack') t = some (.shift q) := by
  have hends := ends_settle name t stack
  rw [h] at hends
  cases hends with
  | shift hf ha => exact ⟨hf, ha⟩

theorem falls_of_accept (h : (machine name).settle t.number stack = .accept stack') :
    Falls name t stack stack' ∧ action? (Lr.top stack') t = some (.reduce 0) := by
  have hends := ends_settle name t stack
  rw [h] at hends
  cases hends with
  | accept hf ha => exact ⟨hf, ha⟩

theorem Falls.chain (h : Falls name t stack stack') (hchain : Chain P stack)
    (hP : ∀ i p q ns n, productions[i]? = some p → Along P q p.body ns →
      (next? q (.nonterminal p.head)).isSome = true → buildNode name i ns = some n →
      P q (.nonterminal p.head) n) : Chain P stack' := by
  induction h with
  | refl => exact hchain
  | step ha hr _ ih => exact ih (hchain.reduce ha hr (hP _))

/-- Either nothing was reduced, or a nonterminal is on top. -/
theorem Falls.top (h : Falls name t stack stack') :
    stack' = stack ∨ Reduces (Lr.top stack) t ∧
      ∃ p m, next? p (.nonterminal m) = some (Lr.top stack') := by
  induction h with
  | refl => exact .inl rfl
  | step ha hr _ ih =>
    refine .inr ⟨⟨_, ha⟩, ?_⟩
    rcases ih with rfl | ⟨_, h⟩
    · obtain ⟨p, q, n, _, _, hq, rfl⟩ := reduce_eq_some hr
      exact ⟨_, _, hq⟩
    · exact h

theorem next?_of_action? {q q' : Nat} (h : action? q t = some (.shift q')) :
    next? q (.terminal t) = some q' := by
  rw [next?, h]

end RbsSynth.Signature
