import RbsSynth.Proofs.Reading.Progress

/-!
# Declarations and members side by side

A text is read at its top and once more in the body of a class.  As long as both readings go on, their
stacks lie beside each other, frame by frame in twin states, above what the header of the class left.

    the body makes its reductions  →  so does the top, or it is stuck           (Beside.falls)
    the top is stuck  →  it expects a class and no method                       (StuckAt)
    the top is stuck before the end of the class  →  it would be whole          (settle_of_whole)
-/

namespace RbsSynth.Signature

open Terminal

/-- The state behind the name of a class. -/
def bodyState : Nat := 30

/-- The states at the top that differ from those in a body, and their twins. -/
def twinStates : List (Nat × Nat) :=
  [(0, bodyState), (3, 68), (4, 58), (5, 56), (7, 119), (15, 111), (16, 106), (17, 107), (18, 108),
   (19, 109), (20, 110)]

/-- The nonterminals that differ. -/
def twinHeads : List (Nonterminal × Nonterminal) :=
  [(.declarationBody, .memberBody), (.declaration, .member), (.declarations, .members)]

def Twin (q r : Nat) : Prop := (q, r) ∈ twinStates ∨ q = r ∧ q ≠ 0 ∧ q ≠ fileState

def TwinHead (m k : Nonterminal) : Prop := m = k ∨ (m, k) ∈ twinHeads

instance (q r : Nat) : Decidable (Twin q r) := inferInstanceAs (Decidable (_ ∨ _))

instance (m k : Nonterminal) : Decidable (TwinHead m k) := inferInstanceAs (Decidable (_ ∨ _))

/-- The states of stacks that hold whole declarations. -/
def wholeStates : List Nat := [0, fileState, 3, 4, 7, 15, 16, 17, 18, 19, 20, 21]

/-- What is known of a state that has no move for a terminal which its twin has one for. -/
structure StuckAt (q : Nat) (t : Terminal) : Prop where
  none : action? q t = none
  expectsClass : Accepts q classWord
  expectsNoMethod : ¬ Accepts q defWord
  notName : t ≠ lowerName
  notEnd : t ≠ endOfText
  whole : t = endWord → q ∈ wholeStates

/-! ## Moves of twins -/

/-- Whether two productions are as long as each other and their heads are twins. -/
def twinProductions (i j : Nat) : Bool :=
  match productions[i]?, productions[j]? with
  | some p, some p' => i != 0 && j != 0 && p.body.length == p'.body.length && TwinHead p.head p'.head
  | _, _ => false

def stuckAt (q : Nat) (t : Terminal) : Bool :=
  (action? q classWord).isSome && !(action? q defWord).isSome && t != lowerName && t != endOfText &&
    (t != endWord || wholeStates.contains q)

def twinActions (q r : Nat) (t : Terminal) : Bool :=
  match action? r t, action? q t with
  | none, _ => true
  | some _, none => stuckAt q t
  | some (.shift s), some (.shift s') => s == s' && s != 0 && s != fileState
  | some (.reduce j), some (.reduce i) => twinProductions i j
  | _, _ => false

set_option maxRecDepth 100000 in
theorem twinActions_table :
    (twinStates.all fun s => Terminal.all.all fun t => twinActions s.1 s.2 t) = true := by
  decide +kernel

/-- The pairs of nonterminals that may lead to twin states. -/
def headPairs : List (Nonterminal × Nonterminal) :=
  ((List.range Nonterminal.count).map fun i => (Nonterminal.ofNat i, Nonterminal.ofNat i)) ++ twinHeads

def twinGotos (q r : Nat) (h : Nonterminal × Nonterminal) : Bool :=
  match next? q (.nonterminal h.1), next? r (.nonterminal h.2) with
  | some q', some r' => Twin q' r'
  | _, _ => true

theorem twinGotos_table :
    (twinStates.all fun s => headPairs.all fun h => twinGotos s.1 s.2 h) = true := by
  decide +kernel

/-- No state has different twins. -/
theorem headsApart_table : (table.toList.all fun row => twinHeads.all fun h =>
    !((row.goto? h.1.number).isSome && (row.goto? h.2.number).isSome)) = true := by
  decide +kernel

/-- A file is only accepted in one state. -/
theorem accepting_table : (table.toList.zipIdx.all fun r =>
    r.2 == fileState || r.1.reductions.all (·.1 != 0)) = true := by
  decide +kernel

variable {q q' r r' i : Nat} {t : Terminal} {x : Symbol} {m k : Nonterminal}

theorem eq_fileState_of_reduce (h : action? q t = some (.reduce 0)) : q = fileState := by
  obtain ⟨row, set, hrow, hmem⟩ := mem_of_reduce h
  have hmem' : (row, q) ∈ table.toList.zipIdx := by
    rw [List.mk_mem_zipIdx_iff_getElem?, Array.getElem?_toList, ← row?_eq]
    exact hrow
  have hall := List.all_eq_true.mp accepting_table _ hmem'
  rw [Bool.or_eq_true, beq_iff_eq] at hall
  refine hall.resolve_right fun hnone => ?_
  have := List.all_eq_true.mp hnone _ hmem
  rw [bne_self_eq_false] at this
  cases this

theorem eq_file_of_next? (h : next? q x = some fileState) : x = .nonterminal .file := by
  have hp : (past fileState).head? = some (Symbol.nonterminal .file).number := by decide +kernel
  rw [head?_past h] at hp
  exact Symbol.number_inj (Option.some.inj hp)

/-- A symbol leads from a state that is no start to no start. -/
theorem next?_inside (hq : q ≠ 0) (h : next? q x = some q') : q' ≠ 0 ∧ q' ≠ fileState := by
  refine ⟨fun he => next?_ne_zero (he ▸ h), fun he => ?_⟩
  subst he
  obtain rfl := eq_file_of_next? h
  exact hq (eq_zero_of_next?_file h)

theorem Twin.next (h : Twin q r) (hm : TwinHead m k) (hq : next? q (.nonterminal m) = some q')
    (hr : next? r (.nonterminal k) = some r') : Twin q' r' := by
  rcases h with h | ⟨rfl, h0, -⟩
  · have hmem : (m, k) ∈ headPairs := by
      rcases hm with rfl | hm
      · refine List.mem_append_left _ (List.mem_map.mpr ⟨m.ctorIdx, List.mem_range.mpr ?_, ?_⟩)
        · cases m <;> decide
        · rw [Nonterminal.ofNat_ctorIdx]
      · exact List.mem_append_right _ hm
    have ht := List.all_eq_true.mp (List.all_eq_true.mp twinGotos_table _ h) _ hmem
    rw [twinGotos, hq, hr] at ht
    exact of_decide_eq_true ht
  · rcases hm with rfl | hm
    · obtain rfl : q' = r' := Option.some.inj (hq.symm.trans hr)
      exact .inr ⟨rfl, next?_inside h0 hq⟩
    · exfalso
      rw [next?, Option.bind_eq_some_iff] at hq hr
      obtain ⟨row, hrow, hq⟩ := hq
      obtain ⟨row', hrow', hr⟩ := hr
      obtain rfl : row = row' := Option.some.inj (hrow.symm.trans hrow')
      have h := List.all_eq_true.mp (List.all_eq_true.mp headsApart_table row (mem_table hrow)) _ hm
      rw [hq, hr] at h
      cases h

/-- What a state does when its twin in a body has a move. -/
inductive TwinMove (q : Nat) (t : Terminal) : Lr.Action → Prop
  | stuck {a : Lr.Action} (h : StuckAt q t) : TwinMove q t a
  | shift {s : Nat} (h : action? q t = some (.shift s)) (h0 : s ≠ 0) (hf : s ≠ fileState) :
    TwinMove q t (.shift s)
  | reduce {i j : Nat} {p p' : Production} (h : action? q t = some (.reduce i)) (hi : i ≠ 0)
    (hj : j ≠ 0) (hp : productions[i]? = some p) (hp' : productions[j]? = some p')
    (hlen : p.body.length = p'.body.length) (hhead : TwinHead p.head p'.head) :
    TwinMove q t (.reduce j)

theorem Twin.move {a : Lr.Action} (h : Twin q r) (ha : action? r t = some a) : TwinMove q t a := by
  rcases h with h | ⟨rfl, h0, hf⟩
  · have ht := List.all_eq_true.mp (List.all_eq_true.mp twinActions_table _ h) t t.mem_all
    rw [twinActions, ha] at ht
    split at ht
    · next he => cases he
    · next hq =>
      simp only [stuckAt, Bool.and_eq_true, Bool.or_eq_true, Bool.not_eq_true', bne_iff_ne,
        List.contains_iff_mem] at ht
      obtain ⟨⟨⟨⟨hclass, hdef⟩, hname⟩, hend⟩, hwhole⟩ := ht
      have hno : ¬ Accepts q defWord := by
        rw [Accepts, hdef]
        exact Bool.false_ne_true
      exact .stuck ⟨hq, hclass, hno, hname, hend, fun he => hwhole.resolve_left fun hne => hne he⟩
    · next s s' hs hq =>
      simp only [Bool.and_eq_true, beq_iff_eq, bne_iff_ne] at ht
      obtain ⟨⟨rfl, h0⟩, hf⟩ := ht
      obtain rfl := Option.some.inj hs
      exact .shift hq h0 hf
    · next j i hj hq =>
      obtain rfl := Option.some.inj hj
      rw [twinProductions] at ht
      split at ht
      · next p p' hp hp' =>
        simp only [Bool.and_eq_true, beq_iff_eq, bne_iff_ne, decide_eq_true_eq] at ht
        obtain ⟨⟨⟨hi, hj⟩, hlen⟩, hhead⟩ := ht
        exact .reduce hq hi hj hp hp' hlen hhead
      · cases ht
    · cases ht
  · cases a with
    | shift s =>
      obtain ⟨h0', hf'⟩ := next?_inside h0 (next?_of_action? ha)
      exact .shift ha h0' hf'
    | reduce i =>
      obtain ⟨p, hp⟩ := exists_production ha
      have hi : i ≠ 0 := by
        rintro rfl
        exact hf (eq_fileState_of_reduce ha)
      exact .reduce ha hi hi hp hp rfl (.inl rfl)

/-! ## Stacks -/

/-- The frames of a stack lie beside those of another, which lie on `base`. -/
inductive Beside (base : List (Lr.Frame Node)) : List (Lr.Frame Node) → List (Lr.Frame Node) → Prop
  | base : Beside base [] base
  | push {us ws : List (Lr.Frame Node)} {q r : Nat} (h : Beside base us ws) (ht : Twin q r)
    (n n' : Node) : Beside base (⟨q, n⟩ :: us) (⟨r, n'⟩ :: ws)

variable {name : String} {base us ws ws' : List (Lr.Frame Node)}

theorem Beside.twin (h : Beside base us ws) (hbase : Lr.top base = bodyState) :
    Twin (Lr.top us) (Lr.top ws) := by
  cases h with
  | base =>
    rw [hbase]
    exact .inl List.mem_cons_self
  | push _ ht => exact ht

theorem Beside.drop (h : Beside base us ws) {n : Nat} (hn : n ≤ us.length) :
    Beside base (us.drop n) (ws.drop n) := by
  induction n generalizing us ws with
  | zero => exact h
  | succ n ih =>
    cases h with
    | base => cases hn
    | push h _ => exact ih h (Nat.le_of_succ_le_succ hn)

/-- **Reductions in a body are made at the top**, or the top is stuck. -/
theorem Beside.falls (h : Beside base us ws) (hbase : Lr.top base = bodyState) (hu : Chain Meant us)
    (hf : Falls name t ws ws') : ∃ us', Falls name t us us' ∧
      (Beside base us' ws' ∨ StuckAt (Lr.top us') t) := by
  induction hf generalizing us with
  | refl => exact ⟨us, .refl us, .inl h⟩
  | step ha hr _ ih =>
    obtain ⟨p', r', n', hp', -, hr', rfl⟩ := reduce_eq_some hr
    cases (h.twin hbase).move ha with
    | stuck hs => exact ⟨us, .refl us, .inr hs⟩
    | @reduce i _ p p'' hq hi _ hp hp'' hlen hhead =>
      obtain rfl : p'' = p' := Option.some.inj (hp''.symm.trans hp')
      obtain ⟨us₁, hred⟩ := exists_reduce name hu hq hi
      obtain ⟨p₁, q', n, hp₁, -, hq', rfl⟩ := reduce_eq_some hred
      obtain rfl : p₁ = p := Option.some.inj (hp₁.symm.trans hp)
      have hbelow := h.drop (hu.length_le hq hp)
      rw [hlen] at hbelow hq'
      obtain ⟨i, rfl⟩ := Nat.exists_eq_succ_of_ne_zero hi
      rw [hlen] at hred
      obtain ⟨us', hf, hend⟩ := ih (hbelow.push ((hbelow.twin hbase).next hhead hq' hr') n n')
        (hu.reduced hq hred)
      exact ⟨us', .step hq hred hf, hend⟩

/-- **What is shifted in a body is shifted at the top**, or the top is stuck. -/
theorem Beside.shift (h : Beside base us ws) (hbase : Lr.top base = bodyState) (hu : Chain Meant us)
    {s : Nat} (hs : (machine name).settle t.number ws = .shift s ws') :
    ∃ us', Falls name t us us' ∧ (StuckAt (Lr.top us') t ∨
      Beside base us' ws' ∧ action? (Lr.top us') t = some (.shift s) ∧ Twin s s) := by
  obtain ⟨hf, ha⟩ := falls_of_shift hs
  obtain ⟨us', hf, hbeside | hstuck⟩ := h.falls hbase hu hf
  · refine ⟨us', hf, ?_⟩
    cases (hbeside.twin hbase).move ha with
    | stuck hs => exact .inl hs
    | shift hq h0 hfile => exact .inr ⟨hbeside, hq, .inr ⟨rfl, h0, hfile⟩⟩
  · exact ⟨us', hf, .inl hstuck⟩

/-- A body does not end with the text. -/
theorem Beside.not_accept (h : Beside base us ws) (hbase : Lr.top base = bodyState)
    (hu : Chain Meant us) : (machine name).settle endOfText.number ws ≠ .accept ws' := by
  intro hs
  obtain ⟨hf, ha⟩ := falls_of_accept hs
  obtain ⟨us', -, hbeside | hstuck⟩ := h.falls hbase hu hf
  · cases (hbeside.twin hbase).move ha with
    | stuck hs => exact hs.notEnd rfl
    | reduce _ _ hj => exact hj rfl
  · exact hstuck.notEnd rfl

/-! ## Whole texts -/

/-- Whether a state with whole declarations goes on to such a state before the end of the text. -/
def wholeAt (rows : List Lr.Row) (q : Nat) : Bool :=
  match action? q endOfText with
  | some (.reduce 0) => true
  | some (.reduce i) => (productions[i]?).any fun p => rows.all fun row =>
    (row.goto? p.head.number).all wholeStates.contains
  | _ => false

theorem wholeAt_table : (wholeStates.all fun q => wholeAt table.toList q) = true := by
  decide +kernel

theorem whole_of_falls (h : Falls name endOfText us ws) (hq : Lr.top us ∈ wholeStates) :
    Lr.top ws ∈ wholeStates := by
  induction h with
  | refl => exact hq
  | step ha hr _ ih =>
    refine ih ?_
    obtain ⟨p, q, n, hp, -, hgoto, rfl⟩ := reduce_eq_some hr
    have hall := List.all_eq_true.mp wholeAt_table _ hq
    rw [wholeAt, ha] at hall
    simp only [hp, Option.any_some] at hall
    rw [next?, Option.bind_eq_some_iff] at hgoto
    obtain ⟨row, hrow, hgoto⟩ := hgoto
    have hrow := List.all_eq_true.mp hall row (mem_table hrow)
    rw [hgoto, Option.all_some] at hrow
    exact List.contains_iff_mem.mp hrow

/-- **Whole declarations are accepted.** -/
theorem settle_of_whole (name : String) (h : Chain Meant us) (hq : Lr.top us ∈ wholeStates) :
    ∃ us', (machine name).settle endOfText.number us = .accept us' := by
  obtain ⟨us', hf, hend⟩ := exists_falls name endOfText h
  have hall := List.all_eq_true.mp wholeAt_table _ (whole_of_falls hf hq)
  rw [hf.settle_eq h.plain]
  rw [wholeAt] at hall
  split at hall
  · next ha => exact ⟨us', settle_accept ha⟩
  · next i hi ha =>
    obtain ⟨i, rfl⟩ := Nat.exists_eq_succ_of_ne_zero fun h0 => hi (h0 ▸ rfl)
    exact absurd ha (hend i)
  · cases hall

end RbsSynth.Signature
