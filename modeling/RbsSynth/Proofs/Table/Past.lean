import RbsSynth.Proofs.Table.Moves

/-!
# What stands on top of a stack

Each state has an item, a production with a dot in its body; the symbols before the dot are those on
top of every stack in that state.

    next? q X = some q'  →  past q' is the start of X :: past q                    (past_of_next?)
    action? q t = some (.reduce i)  →  the body of i, last first, starts past q  (past_of_reduce)
-/

namespace RbsSynth.Signature

/-- For each state a production and how many symbols of its body stand before the dot, as many as can
be said of the state. -/
def items : List (Nat × Nat) :=
  [(0, 0), (8, 1), (0, 1), (4, 1), (3, 1), (5, 1), (9, 1), (4, 2), (175, 1), (49, 1), (176, 1),
  (45, 1), (33, 1), (23, 1), (47, 1), (5, 2), (10, 1), (11, 1), (12, 1), (13, 1), (14, 1), (15,
  1), (48, 1), (9, 2), (175, 2), (49, 2), (177, 1), (178, 1), (45, 2), (33, 2), (23, 2), (179, 1),
  (180, 1), (47, 2), (48, 2), (175, 1), (153, 1), (155, 1), (154, 1), (156, 1), (152, 1), (170,
  1), (162, 1), (157, 1), (160, 1), (49, 3), (141, 1), (143, 1), (142, 1), (145, 1), (147, 1),
  (149, 1), (151, 1), (177, 2), (45, 3), (124, 1), (52, 1), (44, 3), (50, 1), (43, 3), (33, 3),
  (35, 1), (31, 3), (32, 3), (29, 3), (23, 3), (25, 1), (21, 3), (22, 3), (19, 3), (179, 2), (47,
  3), (46, 3), (48, 3), (152, 2), (170, 2), (116, 1), (101, 1), (122, 1), (117, 1), (166, 2),
  (169, 2), (168, 2), (171, 1), (172, 1), (162, 2), (157, 2), (158, 2), (160, 2), (141, 2), (143,
  2), (145, 2), (136, 1), (146, 2), (148, 2), (150, 2), (134, 1), (130, 1), (132, 1), (124, 2),
  (88, 1), (92, 1), (98, 1), (93, 1), (97, 1), (65, 1), (59, 1), (60, 1), (61, 1), (62, 1), (63,
  1), (52, 2), (53, 1), (54, 1), (55, 1), (56, 1), (57, 1), (58, 1), (44, 4), (51, 2), (43, 4),
  (42, 4), (175, 1), (35, 2), (39, 1), (41, 1), (31, 4), (30, 4), (32, 4), (29, 4), (27, 4), (28,
  4), (25, 2), (21, 4), (20, 4), (22, 4), (19, 4), (17, 4), (18, 4), (47, 4), (46, 4), (152, 3),
  (170, 3), (121, 1), (119, 1), (116, 2), (120, 1), (111, 1), (115, 1), (113, 1), (99, 2), (109,
  1), (101, 2), (105, 1), (122, 2), (117, 2), (166, 3), (165, 3), (164, 3), (169, 3), (168, 3),
  (167, 3), (171, 2), (172, 2), (173, 1), (162, 3), (161, 3), (157, 3), (137, 1), (160, 3), (159,
  3), (141, 3), (143, 3), (136, 2), (133, 2), (130, 2), (128, 2), (132, 2), (125, 1), (124, 3),
  (123, 3), (87, 2), (88, 2), (90, 2), (92, 2), (93, 2), (95, 2), (70, 1), (68, 1), (69, 1), (71,
  1), (97, 2), (67, 1), (66, 1), (64, 2), (65, 2), (42, 5), (36, 1), (34, 3), (38, 2), (40, 2),
  (30, 5), (27, 5), (26, 5), (28, 5), (24, 3), (20, 5), (17, 5), (16, 5), (18, 5), (46, 5), (152,
  4), (121, 2), (119, 2), (118, 2), (116, 3), (120, 2), (111, 2), (115, 2), (113, 2), (107, 2),
  (109, 2), (102, 1), (100, 3), (101, 3), (104, 2), (122, 3), (117, 3), (166, 4), (165, 4), (164,
  4), (163, 4), (169, 4), (168, 4), (167, 4), (172, 3), (173, 2), (174, 2), (161, 4), (137, 2),
  (138, 2), (159, 4), (136, 3), (135, 3), (133, 3), (129, 3), (128, 3), (131, 3), (125, 2), (126,
  2), (123, 4), (87, 3), (88, 3), (89, 3), (91, 3), (93, 3), (95, 3), (96, 3), (97, 3), (64, 3),
  (65, 3), (36, 2), (37, 2), (26, 6), (16, 6), (119, 3), (118, 3), (120, 3), (110, 3), (114, 3),
  (113, 3), (106, 3), (108, 3), (102, 2), (103, 2), (101, 4), (122, 4), (117, 4), (165, 5), (164,
  5), (163, 5), (167, 5), (174, 3), (138, 3), (135, 4), (129, 4), (127, 4), (131, 4), (126, 3),
  (87, 4), (94, 4), (95, 4), (96, 4), (64, 4), (76, 1), (86, 1), (65, 4), (75, 1), (84, 1), (85,
  1), (82, 1), (37, 3), (118, 4), (112, 4), (103, 3), (122, 5), (163, 6), (127, 5), (94, 5), (64,
  5), (86, 2), (74, 2), (73, 2), (84, 2), (83, 2), (85, 2), (82, 2), (80, 2), (81, 2), (74, 3),
  (77, 2), (72, 3), (84, 3), (83, 3), (85, 3), (82, 3), (80, 3), (79, 3), (81, 3), (72, 4), (78,
  3), (83, 4), (80, 4), (79, 4), (81, 4), (79, 5)]  

/-- The symbols before a dot, the last first, by their numbers. -/
def beforeDot (bodies : List (List Nat)) (item : Nat × Nat) : List Nat :=
  ((bodies.getD item.1 []).take item.2).reverse

def bodyNumbers : List (List Nat) := productions.map fun p => p.body.map Symbol.number

def pasts : List (List Nat) := items.map (beforeDot bodyNumbers)

/-- The symbols on top of a stack in state `q`, the newest first. -/
def past (q : Nat) : List Nat := pasts.getD q []

/-- Whether every move out of a state agrees with what stands on the stacks of the states. -/
def pastAt (past : List Nat) (row : Lr.Row) : Bool :=
  (row.shifts ++ row.gotos).all (fun e =>
      !(pasts.getD e.2 []).isEmpty && (pasts.getD e.2 []).isPrefixOf (e.1 :: past))
    && row.reductions.all fun r => (bodyNumbers.getD r.1 []).reverse.isPrefixOf past

def pastRows : List (List Nat) → List Lr.Row → Bool
  | past :: ps, row :: rows => pastAt past row && pastRows ps rows
  | [], [] => true
  | _, _ => false

set_option maxRecDepth 100000 in
theorem pastRows_table : pastRows pasts table.toList = true := by decide +kernel

theorem pastAt_of_pastRows {ps : List (List Nat)} {rows : List Lr.Row} {q : Nat} {row : Lr.Row}
    (h : pastRows ps rows = true) (hq : rows[q]? = some row) :
    pastAt (ps.getD q []) row = true := by
  induction rows generalizing ps q with
  | nil => cases hq
  | cons r rows ih =>
    match ps with
    | [] => cases h
    | past :: ps =>
      rw [pastRows, Bool.and_eq_true] at h
      match q with
      | 0 =>
        obtain rfl : r = row := Option.some.inj hq
        exact h.1
      | q + 1 =>
        show pastAt (ps.getD q []) row = true
        exact ih h.2 hq

theorem pastAt_of_row? {q : Nat} {row : Lr.Row} (h : row? q = some row) :
    pastAt (past q) row = true := by
  refine pastAt_of_pastRows pastRows_table ?_
  rw [Array.getElem?_toList, ← row?_eq]
  exact h

/-! ## Numbers of symbols -/

theorem Terminal.number_inj {a b : Terminal} (h : a.number = b.number) : a = b := by
  rw [← Terminal.ofNat_ctorIdx a, ← Terminal.ofNat_ctorIdx b]
  exact congrArg Terminal.ofNat h

theorem Nonterminal.number_inj {a b : Nonterminal} (h : a.number = b.number) : a = b := by
  rw [Nonterminal.number, Nonterminal.number] at h
  rw [← Nonterminal.ofNat_ctorIdx a, ← Nonterminal.ofNat_ctorIdx b]
  exact congrArg Nonterminal.ofNat (by omega)

theorem Terminal.number_lt (t : Terminal) : t.number < Terminal.all.length := by
  cases t <;> decide

theorem Symbol.number_inj {a b : Symbol} (h : a.number = b.number) : a = b := by
  cases a with
  | terminal s =>
    cases b with
    | terminal t => exact congrArg _ (Terminal.number_inj h)
    | nonterminal n =>
      have hs := s.number_lt
      have hn : s.number = Terminal.all.length + n.ctorIdx := h
      omega
  | nonterminal m =>
    cases b with
    | terminal t =>
      have ht := t.number_lt
      have hm : Terminal.all.length + m.ctorIdx = t.number := h
      omega
    | nonterminal n => exact congrArg _ (Nonterminal.number_inj h)

theorem mem_of_lookup {x v : Nat} {l : List (Nat × Nat)} (h : Lr.lookup x l = some v) :
    (x, v) ∈ l := by
  induction l with
  | nil => cases h
  | cons p rest ih =>
    obtain ⟨k, w⟩ := p
    rw [Lr.lookup] at h
    cases hk : x.beq k with
    | true =>
      rw [hk, cond_true] at h
      rw [Nat.eq_of_beq_eq_true hk, Option.some.inj h]
      exact List.mem_cons_self
    | false =>
      rw [hk, cond_false] at h
      exact List.mem_cons_of_mem _ (ih h)

theorem mem_of_reductionOn {t p : Nat} {l : List (Nat × Nat)} (h : Lr.reductionOn t l = some p) :
    ∃ set, (p, set) ∈ l := by
  induction l with
  | nil => cases h
  | cons r rest ih =>
    obtain ⟨q, set⟩ := r
    rw [Lr.reductionOn] at h
    cases hm : Lr.mem t set with
    | true =>
      rw [hm, cond_true] at h
      exact ⟨set, Option.some.inj h ▸ List.mem_cons_self⟩
    | false =>
      rw [hm, cond_false] at h
      obtain ⟨set', hs⟩ := ih h
      exact ⟨set', List.mem_cons_of_mem _ hs⟩

/-- Where a terminal leads is among the shifts of a row. -/
theorem mem_shifts_of_next? {q q' : Nat} {t : Terminal} (h : next? q (.terminal t) = some q') :
    ∃ row, row? q = some row ∧ (t.number, q') ∈ row.shifts := by
  have ha := action?_of_next?_terminal h
  rw [action?, Option.bind_eq_some_iff] at ha
  obtain ⟨row, hrow, hact⟩ := ha
  refine ⟨row, hrow, mem_of_lookup ?_⟩
  rw [Lr.Row.action?] at hact
  split at hact
  · next hl => rw [hl]; injection hact with hact; injection hact with hact; rw [hact]
  · obtain ⟨p, _, hp⟩ := Option.map_eq_some_iff.mp hact
    cases hp

/-- A move out of a state is among the shifts or the gotos of its row. -/
theorem mem_of_next? {q q' : Nat} {x : Symbol} (h : next? q x = some q') :
    ∃ row, row? q = some row ∧ (x.number, q') ∈ row.shifts ++ row.gotos := by
  cases x with
  | terminal t =>
    obtain ⟨row, hrow, hmem⟩ := mem_shifts_of_next? h
    exact ⟨row, hrow, List.mem_append_left _ hmem⟩
  | nonterminal n =>
    rw [next?, Option.bind_eq_some_iff] at h
    obtain ⟨row, hrow, hgoto⟩ := h
    exact ⟨row, hrow, List.mem_append_right _ (mem_of_lookup hgoto)⟩

theorem past_of_next? {q q' : Nat} {x : Symbol} (h : next? q x = some q') :
    past q' <+: x.number :: past q := by
  obtain ⟨row, hrow, hmem⟩ := mem_of_next? h
  have hp := pastAt_of_row? hrow
  rw [pastAt, Bool.and_eq_true] at hp
  have he := List.all_eq_true.mp hp.1 _ hmem
  rw [Bool.and_eq_true] at he
  exact List.isPrefixOf_iff_prefix.mp he.2

theorem head?_past {q q' : Nat} {x : Symbol} (h : next? q x = some q') :
    (past q').head? = some x.number := by
  obtain ⟨row, hrow, hmem⟩ := mem_of_next? h
  have hp := pastAt_of_row? hrow
  rw [pastAt, Bool.and_eq_true] at hp
  have he := List.all_eq_true.mp hp.1 _ hmem
  rw [Bool.and_eq_true, Bool.not_eq_true'] at he
  have hne : past q' ≠ [] := fun h => by
    rw [past] at h
    rw [h] at he
    exact absurd he.1 (by decide)
  obtain ⟨y, ys, hy⟩ := List.exists_cons_of_ne_nil hne
  have hpre := past_of_next? h
  rw [hy, List.cons_prefix_cons] at hpre
  rw [hy, List.head?_cons, hpre.1]

/-- A production that a state reduces is among the reductions of its row. -/
theorem mem_of_reduce {q i : Nat} {t : Terminal} (h : action? q t = some (.reduce i)) :
    ∃ row set, row? q = some row ∧ (i, set) ∈ row.reductions := by
  rw [action?, Option.bind_eq_some_iff] at h
  obtain ⟨row, hrow, hact⟩ := h
  rw [Lr.Row.action?] at hact
  split at hact
  · cases hact
  · obtain ⟨p, hp, he⟩ := Option.map_eq_some_iff.mp hact
    obtain rfl : p = i := by injection he
    obtain ⟨set, hs⟩ := mem_of_reductionOn hp
    exact ⟨row, set, hrow, hs⟩

theorem bodyNumbers_getD {i : Nat} {p : Production} (hp : productions[i]? = some p) :
    bodyNumbers.getD i [] = p.body.map Symbol.number := by
  rw [bodyNumbers, List.getD_eq_getElem?_getD, List.getElem?_map, hp]
  rfl

theorem past_of_reduce {q i : Nat} {t : Terminal} {p : Production}
    (h : action? q t = some (.reduce i)) (hp : productions[i]? = some p) :
    (p.body.map Symbol.number).reverse <+: past q := by
  obtain ⟨row, set, hrow, hmem⟩ := mem_of_reduce h
  have hpast := pastAt_of_row? hrow
  rw [pastAt, Bool.and_eq_true] at hpast
  have := List.isPrefixOf_iff_prefix.mp (List.all_eq_true.mp hpast.2 _ hmem)
  rwa [bodyNumbers_getD hp] at this

/-! ## Stacks -/

/-- A stack whose states follow the table; `P q X n` holds of each node `n`, which was pushed for the
symbol `X` in the state `q`. -/
inductive Chain (P : Nat → Symbol → Node → Prop) : List (Lr.Frame Node) → Prop
  | nil : Chain P []
  | push {stack : List (Lr.Frame Node)} {x : Symbol} {q : Nat} {n : Node} (h : Chain P stack)
    (hq : next? (Lr.top stack) x = some q) (hn : P (Lr.top stack) x n) :
    Chain P (⟨q, n⟩ :: stack)

/-- The nodes of a word that is walked from `q`, each with its property. -/
def Along (P : Nat → Symbol → Node → Prop) : Nat → List Symbol → List Node → Prop
  | _, [], [] => True
  | q, x :: xs, n :: ns => P q x n ∧ ∃ q', next? q x = some q' ∧ Along P q' xs ns
  | _, _, _ => False

theorem Along.snoc {P : Nat → Symbol → Node → Prop} {q q' : Nat} {xs : List Symbol} {ns : List Node}
    {x : Symbol} {n : Node} (h : Along P q xs ns) (hw : walk? q xs = some q') (hx : P q' x n)
    (hq : (next? q' x).isSome = true) : Along P q (xs ++ [x]) (ns ++ [n]) := by
  induction xs generalizing q ns with
  | nil =>
    match ns, h with
    | [], _ =>
      obtain rfl : q = q' := Option.some.inj hw
      obtain ⟨r, hr⟩ := Option.isSome_iff_exists.mp hq
      exact ⟨hx, r, hr, trivial⟩
  | cons y ys ih =>
    match ns, h with
    | m :: ms, ⟨hm, r, hr, h⟩ =>
      rw [walk?_cons ys hr] at hw
      exact ⟨hm, r, hr, ih h hw⟩

theorem walk?_append {q q' : Nat} {xs : List Symbol} (ys : List Symbol) (h : walk? q xs = some q') :
    walk? q (xs ++ ys) = walk? q' ys := by
  induction xs generalizing q with
  | nil => rw [Option.some.inj h]; rfl
  | cons x xs ih =>
    obtain ⟨r, hr, h⟩ := walk?_cons_eq_some h
    rw [List.cons_append, walk?_cons _ hr]
    exact ih h

/-- The symbols that stand before the dot are on top of the stack. -/
theorem Chain.pop {P : Nat → Symbol → Node → Prop} {stack : List (Lr.Frame Node)}
    (h : Chain P stack) : ∀ (word : List Symbol),
      word.map Symbol.number <+: past (Lr.top stack) →
      ∃ frames below, stack = frames ++ below ∧ frames.length = word.length ∧ Chain P below ∧
        walk? (Lr.top below) word.reverse = some (Lr.top stack) ∧
        Along P (Lr.top below) word.reverse (frames.reverse.map (·.value)) := by
  induction h with
  | nil =>
    intro word hw
    have hp : past (Lr.top ([] : List (Lr.Frame Node))) = [] := by decide +kernel
    rw [hp, List.prefix_nil, List.map_eq_nil_iff] at hw
    rw [hw]
    exact ⟨[], [], rfl, rfl, .nil, rfl, trivial⟩
  | @push stack x q n h hq hn ih =>
    intro word hw
    match word with
    | [] => exact ⟨[], ⟨q, n⟩ :: stack, rfl, rfl, .push h hq hn, rfl, trivial⟩
    | y :: ys =>
      have hpre := hw.trans (past_of_next? hq)
      rw [List.map_cons, List.cons_prefix_cons] at hpre
      obtain rfl : y = x := Symbol.number_inj hpre.1
      obtain ⟨frames, below, hs, hlen, hbelow, hwalk, halong⟩ := ih ys hpre.2
      refine ⟨⟨q, n⟩ :: frames, below, by rw [hs]; rfl, by rw [List.length_cons, hlen]; rfl, hbelow,
        ?_, ?_⟩
      · rw [List.reverse_cons, walk?_append _ hwalk]
        exact walk?_cons [] hq
      · rw [List.reverse_cons, List.reverse_cons, List.map_append]
        exact halong.snoc hwalk hn (by rw [hq]; rfl)

end RbsSynth.Signature
