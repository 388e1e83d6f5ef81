import RbsSynth.Proofs.Reading.Values

/-!
# Moves are made

A state that has a move for a terminal makes it: a reduction finds the values of its body and a state
behind its head.

    action? (top stack) t = some (.reduce i)  →  stack is reduced                  (exists_reduce)
    stack falls to some stack' that reduces nothing, and settles as stack' does       (exists_falls)
-/

namespace RbsSynth.Signature

/-! ## Heads lead somewhere -/

def rowIn (rows : List Lr.Row) (q : Nat) : Lr.Row := rows.getD q ⟨[], [], []⟩

/-- The state behind a symbol, by the row of a state. -/
def nextIn (row : Lr.Row) : Symbol → Option Nat
  | .terminal t => Lr.lookup t.number row.shifts
  | .nonterminal m => row.goto? m.number

def walkIn (rows : List Lr.Row) (q : Nat) : List Symbol → Option Nat
  | [] => some q
  | x :: xs =>
    match nextIn (rowIn rows q) x with
    | none => none
    | some q' => walkIn rows q' xs

/-- The productions, but for the root, whose body starts with the symbol of a number. -/
def startingWith (x : Nat) : List (Production × Nat) :=
  productions.zipIdx.filter fun p => p.1.body.head?.any (·.number == x) && p.2 != 0

def starting : List (List (Production × Nat)) := (List.range 120).map startingWith

/-- Whether each production that is reduced behind a walk from a state has a head that leads somewhere
from there. -/
def leadsRow (rows : List Lr.Row) (starting : List (List (Production × Nat))) (row : Lr.Row) : Bool :=
  ((row.shifts ++ row.gotos).all fun e => (starting.getD e.1 []).all fun p =>
    (row.goto? p.1.head.number).isSome ||
      (walkIn rows e.2 p.1.body.tail).all fun q => (rowIn rows q).reductions.all (·.1 != p.2)) &&
  row.reductions.all fun r => (productions[r.1]?).any fun p =>
    !p.body.isEmpty || (row.goto? p.head.number).isSome

set_option maxRecDepth 100000 in
theorem leadsRow_table : (table.toList.all fun row => leadsRow table.toList starting row) = true := by
  decide +kernel

variable {q q' i : Nat} {x : Symbol} {xs : List Symbol} {row : Lr.Row} {t : Terminal} {p : Production}

theorem rowIn_eq (h : row? q = some row) : rowIn table.toList q = row := by
  rw [rowIn, List.getD_eq_getElem?_getD, Array.getElem?_toList, ← row?_eq, h]
  rfl

theorem nextIn_of_next? (hrow : row? q = some row) (h : next? q x = some q') :
    nextIn row x = some q' := by
  cases x with
  | nonterminal m =>
    rw [next?, hrow] at h
    exact h
  | terminal t =>
    have ha := action?_of_next?_terminal h
    rw [action?, hrow, Option.bind_some, Lr.Row.action?] at ha
    split at ha
    · next hl =>
      rw [nextIn, hl]
      injection ha with ha
      injection ha with ha
      rw [ha]
    · obtain ⟨_, _, hp⟩ := Option.map_eq_some_iff.mp ha
      cases hp

theorem walkIn_of_walk? (h : walk? q xs = some q') : walkIn table.toList q xs = some q' := by
  induction xs generalizing q with
  | nil => exact h
  | cons x xs ih =>
    obtain ⟨r, hr, h⟩ := walk?_cons_eq_some h
    obtain ⟨row, hrow, -⟩ := mem_of_next? hr
    rw [walkIn, rowIn_eq hrow, nextIn_of_next? hrow hr]
    exact ih h

theorem mem_starting (hp : productions[i]? = some p) (hi : i ≠ 0) (hbody : p.body = x :: xs) :
    (p, i) ∈ starting.getD x.number [] := by
  have hlt : x.number < 120 := by
    cases x with
    | terminal t => exact Nat.lt_of_lt_of_le t.number_lt (by decide)
    | nonterminal m => cases m <;> decide
  rw [starting, List.getD_eq_getElem?_getD, List.getElem?_map, List.getElem?_range hlt]
  show (p, i) ∈ startingWith x.number
  refine List.mem_filter.mpr ⟨List.mk_mem_zipIdx_iff_getElem?.mpr hp, ?_⟩
  rw [hbody, List.head?_cons, Option.any_some, beq_self_eq_true, Bool.true_and, bne_iff_ne]
  exact hi

theorem exists_production (ha : action? q t = some (.reduce i)) : ∃ p, productions[i]? = some p := by
  obtain ⟨row, set, hrow, hmem⟩ := mem_of_reduce ha
  have h := List.all_eq_true.mp leadsRow_table row (mem_table hrow)
  rw [leadsRow, Bool.and_eq_true] at h
  have hany := List.all_eq_true.mp h.2 _ hmem
  cases hp : productions[i]? with
  | none =>
    rw [hp] at hany
    cases hany
  | some p => exact ⟨p, rfl⟩

/-- Where a body was walked and is reduced, its head leads somewhere. -/
theorem exists_next? (hp : productions[i]? = some p) (hi : i ≠ 0) (hw : walk? q p.body = some q')
    (ha : action? q' t = some (.reduce i)) : ∃ r, next? q (.nonterminal p.head) = some r := by
  obtain ⟨last, set, hlast, hmem⟩ := mem_of_reduce ha
  have hleads : ∀ row, row? q = some row → leadsRow table.toList starting row = true :=
    fun row hrow => List.all_eq_true.mp leadsRow_table row (mem_table hrow)
  suffices h : ∃ row, row? q = some row ∧ (row.goto? p.head.number).isSome = true by
    obtain ⟨row, hrow, h⟩ := h
    rw [next?, hrow]
    exact Option.isSome_iff_exists.mp h
  cases hbody : p.body with
  | nil =>
    rw [hbody] at hw
    obtain rfl : q = q' := Option.some.inj hw
    have h := hleads last hlast
    rw [leadsRow, Bool.and_eq_true] at h
    have hr := List.all_eq_true.mp h.2 _ hmem
    rw [hp, Option.any_some, hbody] at hr
    exact ⟨last, hlast, hr⟩
  | cons x xs =>
    rw [hbody] at hw
    obtain ⟨r, hr, hw⟩ := walk?_cons_eq_some hw
    obtain ⟨row, hrow, hin⟩ := mem_of_next? hr
    have h := hleads row hrow
    rw [leadsRow, Bool.and_eq_true] at h
    have hp' := List.all_eq_true.mp (List.all_eq_true.mp h.1 _ hin) _ (mem_starting hp hi hbody)
    rw [hbody, List.tail_cons, walkIn_of_walk? hw, Option.all_some, rowIn_eq hlast,
      Bool.or_eq_true] at hp'
    refine ⟨row, hrow, hp'.resolve_right fun hall => ?_⟩
    have := List.all_eq_true.mp hall _ hmem
    rw [bne_self_eq_false] at this
    cases this

/-! ## Stacks of values -/

variable {name : String} {stack stack' : List (Lr.Frame Node)}

theorem meant_of_along (name : String) {ns : List Node} {n : Node} (hp : productions[i]? = some p)
    (h : Along Meant q p.body ns) (hn : buildNode name i ns = some n) :
    Meant q (.nonterminal p.head) n := by
  obtain ⟨n', hn', hm⟩ := builds_of_along name hp h
  rw [hn] at hn'
  rwa [Option.some.inj hn']

theorem Chain.reduced (h : Chain Meant stack) (ha : action? (Lr.top stack) t = some (.reduce i))
    (hr : (machine name).reduce i stack = some stack') : Chain Meant stack' :=
  h.reduce ha hr fun _ _ _ _ hp halong _ hn => meant_of_along name hp halong hn

theorem Chain.fallen (h : Chain Meant stack) (hf : Falls name t stack stack') : Chain Meant stack' :=
  hf.chain h fun _ _ _ _ _ hp halong _ hn => meant_of_along name hp halong hn

theorem Chain.plain (h : Chain Meant stack) : Chain (fun _ _ _ => True) stack := by
  induction h with
  | nil => exact .nil
  | push _ hq _ ih => exact .push ih hq trivial

/-- **A reduction that the table asks for is made.** -/
theorem exists_reduce (name : String) (h : Chain Meant stack)
    (ha : action? (Lr.top stack) t = some (.reduce i)) (hi : i ≠ 0) :
    ∃ stack', (machine name).reduce i stack = some stack' := by
  obtain ⟨p, hp⟩ := exists_production ha
  have hpast := past_of_reduce ha hp
  rw [← List.map_reverse] at hpast
  obtain ⟨frames, below, rfl, hlen, hbelow, hwalk, halong⟩ := h.pop p.body.reverse hpast
  rw [List.length_reverse] at hlen
  rw [List.reverse_reverse] at hwalk halong
  obtain ⟨n, hn, -⟩ := builds_of_along name hp halong
  obtain ⟨r, hr⟩ := exists_next? hp hi hwalk ha
  have htake : (frames ++ below).take p.body.length = frames := hlen ▸ List.take_left
  have hdrop : (frames ++ below).drop p.body.length = below := hlen ▸ List.drop_left
  rw [← htake] at hn
  rw [← hdrop] at hr
  have hreduce := reduce_of_build hp hn hr
  exact ⟨_, hreduce⟩

/-! ## Settling -/

theorem settle_none (ha : action? (Lr.top stack) t = none) :
    (machine name).settle t.number stack = .refuse stack := by
  obtain ⟨k, hk⟩ := exists_allowance stack
  rw [settle_eq, hk, settleIn_none ha]

theorem Falls.settle_eq (hf : Falls name t stack stack') (h : Chain (fun _ _ _ => True) stack) :
    (machine name).settle t.number stack = (machine name).settle t.number stack' := by
  induction hf with
  | refl => rfl
  | step ha hr _ ih =>
    rw [settle_reduce h ha (Nat.succ_ne_zero _) hr]
    exact ih (h.reduce ha hr fun _ _ _ _ _ _ _ _ => trivial)

/-- **Reductions are made as long as there are any.** -/
theorem exists_falls (name : String) (t : Terminal) (h : Chain Meant stack) :
    ∃ stack', Falls name t stack stack' ∧ ∀ i, action? (Lr.top stack') t ≠ some (.reduce (i + 1)) := by
  generalize hm : measure stack = m
  induction m using Nat.strongRecOn generalizing stack with
  | ind m ih =>
    subst hm
    by_cases hred : ∃ i, action? (Lr.top stack) t = some (.reduce (i + 1))
    · obtain ⟨i, ha⟩ := hred
      obtain ⟨next, hr⟩ := exists_reduce name h ha (Nat.succ_ne_zero i)
      have hless := measure_reduce h ha (Nat.succ_ne_zero i) hr
      obtain ⟨stack', hf, hend⟩ := ih _ hless (h.reduced ha hr) rfl
      exact ⟨stack', .step ha hr hf, hend⟩
    · exact ⟨stack, .refl stack, fun i ha => hred ⟨i, ha⟩⟩

/-- A shifted token has a value of its terminal. -/
theorem Chain.shifted {k : Token} {q : Nat} (h : Chain Meant stack)
    (hk : k.terminal.Takes k.text.toList)
    (hs : (machine name).settle k.terminal.number stack = .shift q stack') :
    Chain Meant (⟨q, ⟨.token k, some k.span⟩⟩ :: stack') := by
  obtain ⟨hf, ha⟩ := falls_of_shift hs
  exact .push (h.fallen hf) (next?_of_action? ha) ⟨k.text, k.span, rfl, hk⟩

theorem Chain.fed {w : List Token} (h : Chain Meant stack)
    (hw : ∀ k ∈ w, k.terminal.Takes k.text.toList)
    (hfeed : feedTokens (machine name) w stack = some stack') : Chain Meant stack' := by
  induction w generalizing stack with
  | nil =>
    obtain rfl : stack = stack' := Option.some.inj hfeed
    exact h
  | cons k w ih =>
    obtain ⟨hk, hw⟩ := List.forall_mem_cons.mp hw
    rw [feedTokens] at hfeed
    split at hfeed
    · next q below hs => exact ih (h.shifted hk hs) hw hfeed
    · cases hfeed
    · cases hfeed

end RbsSynth.Signature
