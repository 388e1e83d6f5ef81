import RbsSynth.Proofs.Table.Settle

/-!
# Derivations

`Derives name X b w n` says that the tokens `w` can be read as the symbol `X`, with the node `n`; `b`
says that a question mark behind them would be read as a part of them.

    Derives name X b w n,  next? (top stack) X = some q
      →  reading w ++ u on stack is reading u on ⟨q, n⟩ :: stack                  (Derives.outcome_eq)

where the state `q` must have a move for what comes next.
-/

namespace RbsSynth.Signature

/-- The rules that may end with an operand which a question mark behind them would belong to. -/
def Rule.isOpen : Rule → Bool
  | .plainOptional | .proc => true
  | _ => false

/-- Whether a question mark behind a rule belongs to its last operand, if for that operand it says `b`. -/
def Rule.opens : Rule → Bool → Bool
  | .plainOptional, _ => true
  | .proc, b => b
  | _, _ => false

theorem Rule.opens_true (r : Rule) : r.opens true = r.isOpen := by cases r <;> rfl

theorem Rule.isOpen_of_opens {r : Rule} {b : Bool} (h : r.opens b = true) : r.isOpen = true := by
  cases r <;> first | rfl | cases h

mutual

inductive Derives (name : String) : Symbol → Bool → List Token → Node → Prop
  | token (t : Token) : Derives name (.terminal t.terminal) false [t] ⟨.token t, some t.span⟩
  | node {p : Production} {b : Bool} {w : List Token} {ns : List Node} {v : Value}
    (hp : p ∈ productions) (hroot : p.rule ≠ .root) (h : DerivesAll name p.body b w ns)
    (hv : p.rule.build name (hull ns) (ns.map (·.value)) = some v) :
    Derives name (.nonterminal p.head) (p.rule.opens b) w ⟨v, hull ns⟩

/-- Only the last symbol of a body may be open. -/
inductive DerivesAll (name : String) : List Symbol → Bool → List Token → List Node → Prop
  | nil : DerivesAll name [] false [] []
  | cons {x : Symbol} {xs : List Symbol} {b bs : Bool} {w ws : List Token} {n : Node}
    {ns : List Node} (h : Derives name x b w n) (hs : DerivesAll name xs bs ws ns)
    (hb : b = true → xs = []) : DerivesAll name (x :: xs) (b || bs) (w ++ ws) (n :: ns)

end

variable {name : String} {x : Symbol} {xs : List Symbol} {b : Bool} {w : List Token} {n : Node}
  {ns : List Node}

theorem DerivesAll.of_nil (h : DerivesAll name [] b w ns) : b = false ∧ w = [] ∧ ns = [] := by
  cases h
  exact ⟨rfl, rfl, rfl⟩

theorem Derives.singleton (h : Derives name x b w n) : DerivesAll name [x] b w [n] := by
  have hcons := DerivesAll.cons h .nil fun _ => rfl
  rwa [Bool.or_false, List.append_nil] at hcons

theorem DerivesAll.append {ys : List Symbol} {w' : List Token} {ns' : List Node}
    (h : DerivesAll name xs false w ns) (h' : DerivesAll name ys b w' ns') :
    DerivesAll name (xs ++ ys) b (w ++ w') (ns ++ ns') := by
  induction xs generalizing w ns with
  | nil =>
    obtain ⟨_, rfl, rfl⟩ := h.of_nil
    exact h'
  | cons X xs ih =>
    generalize hf : false = f at h
    cases h with
    | cons hX hxs _ =>
      obtain ⟨rfl, rfl⟩ := Bool.or_eq_false_iff.mp hf.symm
      rw [List.append_assoc]
      have hcons := DerivesAll.cons hX (ih hxs) fun hb => by cases hb
      rwa [Bool.false_or] at hcons

/-- The symbols that an open derivation may start from. -/
def Symbol.mayBeOpen (x : Symbol) : Bool :=
  x = .nonterminal .optional || x = .nonterminal .simple

theorem mayBeOpen_head (r : Rule) (h : r.isOpen = true) :
    Symbol.mayBeOpen (.nonterminal r.shape.1) = true := by
  revert h
  cases r <;> decide

theorem Derives.mayBeOpen (h : Derives name x b w n) (hb : b = true) : x.mayBeOpen = true := by
  cases h with
  | token t => cases hb
  | @node p => exact mayBeOpen_head p.rule (Rule.isOpen_of_opens hb)

theorem DerivesAll.mayBeOpen (h : DerivesAll name xs b w ns) (hb : b = true) :
    ∃ x, xs.getLast? = some x ∧ x.mayBeOpen = true := by
  induction xs generalizing b w ns with
  | nil => rw [h.of_nil.1] at hb; cases hb
  | cons x xs ih =>
    cases h with
    | @cons _ _ b bs _ _ _ _ h hs hopen =>
      cases b with
      | true =>
        rw [hopen rfl]
        exact ⟨x, rfl, h.mayBeOpen rfl⟩
      | false =>
        obtain ⟨y, hy, hmay⟩ := ih hs hb
        refine ⟨y, ?_, hmay⟩
        rw [List.getLast?_cons, hy]
        rfl

/-! ## Where no question mark may come -/

/-- The nonterminals that end with an open one but are never before a question mark. -/
def Nonterminal.isCalm : Nonterminal → Bool
  | .intersection | .blockInner | .methodType => true
  | _ => false

theorem isOpen_or_isCalm : productions.all (fun p =>
    (p.body.getLast?.any (·.mayBeOpen)).not || p.rule.isOpen || p.head.isCalm) = true := by
  decide

/-- The states behind the calm nonterminals have no move for a question mark. -/
def calmRows (rows : List Lr.Row) : Bool :=
  rows.all fun row => row.gotos.all fun e =>
    [Nonterminal.intersection, .blockInner, .methodType].all fun m =>
      e.1 != m.number || !Lr.mem Terminal.question.number (acceptSet (rows.getD e.2 ⟨[], [], []⟩))

set_option maxRecDepth 100000 in
theorem calmRows_table : calmRows table.toList = true := by decide

theorem not_accepts_question {q q' : Nat} {m : Nonterminal} (hm : m.isCalm = true)
    (hq : next? q (.nonterminal m) = some q') : ¬ Accepts q' .question := by
  rw [next?, Option.bind_eq_some_iff] at hq
  obtain ⟨row, hrow, hgoto⟩ := hq
  intro ha
  have hmem : row ∈ table.toList := by
    rw [row?_eq] at hrow
    exact Array.mem_toList_iff.mpr (Array.mem_of_getElem? hrow)
  have h := List.all_eq_true.mp (List.all_eq_true.mp calmRows_table row hmem) _ (mem_of_lookup hgoto)
  have hin : m ∈ [Nonterminal.intersection, .blockInner, .methodType] := by
    revert hm
    cases m <;> decide
  have h := List.all_eq_true.mp h m hin
  rw [bne_self_eq_false, Bool.false_or, Bool.not_eq_true', mem_acceptSet,
    List.getD_eq_getElem?_getD, Array.getElem?_toList, ← row?_eq] at h
  rw [Accepts, action?, Option.isSome_bind] at ha
  cases hr : row? q' with
  | none => rw [hr] at ha; cases ha
  | some r =>
    rw [hr] at ha h
    exact absurd (h.symm.trans ha) (by decide)

/-! ## Feeding tokens -/

/-- The terminal that comes next. -/
def ahead : List Token → Terminal
  | [] => .endOfText
  | t :: _ => t.terminal

/-- The stack behind some tokens. -/
def feedTokens (m : Lr.Machine Node) : List Token → List (Lr.Frame Node) →
    Option (List (Lr.Frame Node))
  | [], stack => some stack
  | t :: w, stack =>
    match m.settle t.terminal.number stack with
    | .shift q stack => feedTokens m w (⟨q, ⟨.token t, some t.span⟩⟩ :: stack)
    | .accept _ | .refuse _ => none

/-- What becomes of a text of tokens. -/
def outcome (m : Lr.Machine Node) (w : List Token) (stack : List (Lr.Frame Node)) :
    Option (Lr.Verdict Node) :=
  (feedTokens m w stack).map (m.settle Terminal.endOfText.number)

theorem outcome_nil (m : Lr.Machine Node) (stack : List (Lr.Frame Node)) :
    outcome m [] stack = some (m.settle Terminal.endOfText.number stack) := rfl

theorem outcome_cons (m : Lr.Machine Node) {t : Token} {u : List Token} {q : Nat}
    {stack below : List (Lr.Frame Node)} (h : m.settle t.terminal.number stack = .shift q below) :
    outcome m (t :: u) stack = outcome m u (⟨q, ⟨.token t, some t.span⟩⟩ :: below) := by
  rw [outcome, feedTokens, h]
  rfl

theorem outcome_congr (m : Lr.Machine Node) {u : List Token} {stack stack' : List (Lr.Frame Node)}
    (h : m.settle (ahead u).number stack = m.settle (ahead u).number stack') :
    outcome m u stack = outcome m u stack' := by
  cases u with
  | nil => exact congrArg some h
  | cons t u =>
    rw [ahead] at h
    rw [outcome, outcome, feedTokens, feedTokens, h]

variable {stack : List (Lr.Frame Node)} {u : List Token}

theorem outcome_shift {t : Token} {q : Nat}
    (h : next? (Lr.top stack) (.terminal t.terminal) = some q) :
    outcome (machine name) (t :: u) stack
      = outcome (machine name) u (⟨q, ⟨.token t, some t.span⟩⟩ :: stack) :=
  outcome_cons (machine name) (settle_shift (action?_of_next?_terminal h))

theorem buildNode_eq {i : Nat} {p : Production} {v : Value} (hp : productions[i]? = some p)
    (hv : p.rule.build name (hull ns) (ns.map (·.value)) = some v) :
    buildNode name i ns = some ⟨v, hull ns⟩ := by
  have ht : productionTable[i]? = some p := (productionTable_getElem? i).trans hp
  unfold buildNode
  rw [ht]
  simp only [hv, Option.map_some]

/-- Reading on with a production whose body is on top of the stack. -/
theorem outcome_reduce {i : Nat} {p : Production} {frames : List (Lr.Frame Node)} {q : Nat}
    {v : Value} (hp : productions[i]? = some p) (hi : i ≠ 0)
    (hlen : frames.length = p.body.length)
    (hchain : Chain (fun _ _ _ => True) (frames ++ stack))
    (ha : action? (Lr.top (frames ++ stack)) (ahead u) = some (.reduce i))
    (hv : p.rule.build name (hull (frames.reverse.map (·.value)))
      ((frames.reverse.map (·.value)).map (·.value)) = some v)
    (hq : next? (Lr.top stack) (.nonterminal p.head) = some q) :
    outcome (machine name) u (frames ++ stack)
      = outcome (machine name) u (⟨q, ⟨v, hull (frames.reverse.map (·.value))⟩⟩ :: stack) := by
  have htake : (frames ++ stack).take p.body.length = frames := by rw [← hlen, List.take_left]
  have hbelow : (frames ++ stack).drop p.body.length = stack := by rw [← hlen, List.drop_left]
  have hbuild : buildNode name i (((frames ++ stack).take p.body.length).reverse.map (·.value))
      = some ⟨v, hull (frames.reverse.map (·.value))⟩ := by
    rw [htake]
    exact buildNode_eq hp hv
  rw [← hbelow] at hq
  have hr := reduce_of_build hp hbuild hq
  rw [hbelow] at hr
  exact outcome_congr (machine name) (settle_reduce hchain ha hi hr)

/-! ## Derivations are read -/

theorem rule_of_zero {i : Nat} {p : Production} (hp : productions[i]? = some p) (hi : i = 0) :
    p.rule = .root := by
  have h : productions[0]?.all (·.rule = .root) = true := by decide
  rw [hi] at hp
  rw [hp] at h
  exact of_decide_eq_true h

theorem DerivesAll.length_eq (h : DerivesAll name xs b w ns) : ns.length = xs.length := by
  induction xs generalizing b w ns with
  | nil => rw [h.of_nil.2.2]; rfl
  | cons x xs ih =>
    cases h with
    | cons h hs => rw [List.length_cons, List.length_cons, ih hs]

theorem ahead_append (w : List Token) {u : List Token} (h : w = []) : ahead (w ++ u) = ahead u := by
  rw [h, List.nil_append]

/-- Behind the body of a rule comes a question mark only if the rule is open. -/
theorem not_question {p : Production} {q q' : Nat} {t : Terminal} (hp : p ∈ productions)
    (hq : next? q (.nonterminal p.head) = some q') (ht : Accepts q' t)
    (hopen : p.rule.opens b = true → t ≠ .question) (h : DerivesAll name p.body b w ns)
    (hb : b = true) : t ≠ .question := by
  obtain ⟨x, hx, hmay⟩ := h.mayBeOpen hb
  have hrule := List.all_eq_true.mp isOpen_or_isCalm p hp
  rw [hx, Option.any_some, hmay, Bool.not_true, Bool.false_or, Bool.or_eq_true] at hrule
  rcases hrule with hr | hc
  · rw [hb, Rule.opens_true] at hopen
    exact hopen hr
  · intro he
    rw [he] at ht
    exact not_accepts_question hc hq ht

mutual

theorem Derives.outcome_eq {x : Symbol} {b : Bool} {w : List Token} {n : Node}
    (h : Derives name x b w n) {stack : List (Lr.Frame Node)} {q : Nat}
    {u : List Token} (hchain : Chain (fun _ _ _ => True) stack)
    (hq : next? (Lr.top stack) x = some q) (hu : Accepts q (ahead u))
    (hb : b = true → ahead u ≠ .question) :
    Accepts (Lr.top stack) (ahead (w ++ u)) ∧
      outcome (machine name) (w ++ u) stack = outcome (machine name) u (⟨q, n⟩ :: stack) := by
  match h with
  | .token t => exact ⟨accepts_of_next? hq, outcome_shift hq⟩
  | @Derives.node _ p b w ns v hp hroot h hv =>
    obtain ⟨i, hi⟩ := List.mem_iff_getElem?.mp hp
    obtain ⟨r, hr⟩ := walk?_of_next? hp hq
    have hact : action? r (ahead u) = some (.reduce i) :=
      action?_of_next? hi hq hr hu fun hplain => hb (by rw [hplain]; rfl)
    have hru : Accepts r (ahead u) := Reduces.accepts ⟨i, hact⟩
    obtain ⟨hacc, frames, hns, htop, hframes, hout⟩ :=
      h.outcome_eq hchain hr hru (not_question hp hq hu hb h)
    refine ⟨hacc, ?_⟩
    have hne : i ≠ 0 := fun hz => hroot (rule_of_zero hi hz)
    have hrev : frames.reverse.map (·.value) = ns := by
      rw [List.map_reverse, hns, List.reverse_reverse]
    have hlen : frames.length = p.body.length := by
      rw [← List.length_map (f := (·.value)), hns, List.length_reverse, h.length_eq]
    rw [← htop] at hact
    rw [hout, outcome_reduce hi hne hlen hframes hact (by rw [hrev]; exact hv) hq, hrev]

theorem DerivesAll.outcome_eq {xs : List Symbol} {b : Bool} {w : List Token} {ns : List Node}
    (h : DerivesAll name xs b w ns) {stack : List (Lr.Frame Node)} {q : Nat}
    {u : List Token} (hchain : Chain (fun _ _ _ => True) stack)
    (hq : walk? (Lr.top stack) xs = some q) (hu : Accepts q (ahead u))
    (hb : b = true → ahead u ≠ .question) :
    Accepts (Lr.top stack) (ahead (w ++ u)) ∧
      ∃ frames : List (Lr.Frame Node), frames.map (·.value) = ns.reverse ∧
        Lr.top (frames ++ stack) = q ∧ Chain (fun _ _ _ => True) (frames ++ stack) ∧
        outcome (machine name) (w ++ u) stack = outcome (machine name) u (frames ++ stack) := by
  match h with
  | .nil =>
    obtain rfl : Lr.top stack = q := Option.some.inj hq
    exact ⟨hu, [], rfl, rfl, hchain, rfl⟩
  | @DerivesAll.cons _ x xs b bs w ws n ns h hs hopen =>
    obtain ⟨r, hr, hrest⟩ := walk?_cons_eq_some hq
    have hpush : Chain (fun _ _ _ => True) (⟨r, n⟩ :: stack) := .push hchain hr trivial
    obtain ⟨hacc, frames, hns, htop, hframes, hout⟩ :=
      hs.outcome_eq hpush hrest hu fun hbs => hb (by rw [hbs, Bool.or_true])
    have hfirst := h.outcome_eq (u := ws ++ u) hchain hr hacc fun hbt => by
      have hxs := hopen hbt
      subst hxs
      rw [ahead_append ws hs.of_nil.2.1]
      exact hb (by rw [hbt, Bool.true_or])
    refine ⟨by rw [List.append_assoc]; exact hfirst.1, frames ++ [⟨r, n⟩], ?_, ?_, ?_, ?_⟩
    · rw [List.map_append, hns, List.reverse_cons]
      rfl
    · rw [List.append_assoc]
      exact htop
    · rw [List.append_assoc]
      exact hframes
    · rw [List.append_assoc, hfirst.2, hout, List.append_assoc]
      rfl

end

/-- The state behind a whole file. -/
def fileState : Nat := 2

theorem next?_file : next? 0 (.nonterminal .file) = some fileState := by decide +kernel

theorem action?_fileState : action? fileState .endOfText = some (.reduce 0) := by decide +kernel

/-- **Completeness.**  The tokens of a file are accepted, with its node. -/
theorem Derives.accepted (h : Derives name (.nonterminal .file) b w n) :
    outcome (machine name) w [] = some (.accept [⟨fileState, n⟩]) := by
  have hu : Accepts fileState (ahead []) := Reduces.accepts ⟨0, action?_fileState⟩
  have hout := (h.outcome_eq .nil next?_file hu fun _ => by decide).2
  have hend : (machine name).settle Terminal.endOfText.number [⟨fileState, n⟩] = .accept _ :=
    settle_accept action?_fileState
  rw [List.append_nil, outcome_nil, hend] at hout
  exact hout

end RbsSynth.Signature
