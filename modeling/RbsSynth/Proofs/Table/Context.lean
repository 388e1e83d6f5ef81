import RbsSynth.Proofs.Table.Derivation

/-!
# What may come behind a token

A lexer is asked for a token in the state that the last one led to.  `Context` is what the last token
tells of that state, `Context.rivals c t` the terminals that compete with `t` there.

    Stands c q,  Accepts q t,  Accepts q r  →  r ∈ c.rivals t                        (mem_rivals)

A question mark is the sign of what follows it where a type may start, and belongs to what is before
it everywhere else.
-/

namespace RbsSynth.Signature

inductive Context
  | start
  | behind (t : Terminal)
  /-- Behind a question mark that is a sign. -/
  | sign
  /-- Behind the `self.` of an attribute. -/
  | ofAttribute
  deriving DecidableEq

open Terminal

/-- The contexts behind which a question mark is a sign. -/
def beforeSign : List Context :=
  [.behind caret, .behind colon, .behind comma, .behind leftBrace, .behind leftParen, .behind bar]

/-- The context behind one more token. -/
def Context.next (c : Context) (t : Terminal) : Context :=
  if t = question ∧ c ∈ beforeSign then sign
  else if t = selfDot ∧ c = behind attributeWord then ofAttribute
  else behind t

/-! ## Competing terminals -/

def typeStarts : List Terminal :=
  [namespacePath, baseType, symbol, string, lowerName, interfaceName, upperName, integer,
   singletonWord, caret, leftBrace, leftParen, leftBracket]

def memberStarts : List Terminal :=
  [namespacePath, attributeWord, mixinWord, visibilityWord, annotation, instanceVariable, upperName,
   interfaceWord, moduleWord, aliasWord, classWord, typeWord, defWord, endWord]

/-- What may come behind a type. -/
def typeFollows : List Terminal :=
  memberStarts ++ [lowerName, globalName, ampersand, comma, question, rightBrace, rightParen,
    rightBracket, bar]

def methodNames : List Terminal := [suffixedName, lowerName, upperName, operator]

/-- What may come in a context. -/
def Context.may : Context → List Terminal
  | start =>
    [namespacePath, annotation, globalName, upperName, interfaceWord, moduleWord, classWord, typeWord]
  | sign => label :: typeStarts
  | ofAttribute => [label]
  | behind t =>
    match t with
    | namespacePath => [lowerName, interfaceName, upperName]
    | defWord | aliasWord => selfDot :: selfOptionalDot :: methodNames
    | selfOptionalDot | selfDot => methodNames
    | label | arrow | doubleStar | ampersand | equals | less | .star => typeStarts
    | suffixedName | operator => memberStarts ++ methodNames ++ [selfDot, colon]
    | attributeWord => [selfDot, label]
    | baseType | symbol | string | integer => typeFollows
    | mixinWord | interfaceWord | moduleWord | classWord => [namespacePath, interfaceName, upperName]
    | visibilityWord | dots => memberStarts
    | annotation | endWord => globalName :: memberStarts
    | lowerName => typeFollows ++ methodNames ++ [selfDot, colon, equals, leftBracket]
    | globalName | instanceVariable | selfWord => [colon]
    | interfaceName => leftBracket :: typeFollows
    | upperName => typeFollows ++ methodNames ++ [selfDot, colon, less, leftBracket]
    | uncheckedWord | varianceWord => [varianceWord, upperName]
    | singletonWord => [leftParen]
    | typeWord => [namespacePath, lowerName]
    | caret | leftBrace => [label, arrow, leftBrace, leftParen, leftBracket, question]
    | colon | bar => typeStarts ++ [dots, arrow, question]
    | comma | leftParen =>
      typeStarts ++ [label, uncheckedWord, varianceWord, doubleStar, question, star, rightParen]
    | leftBracket => typeStarts ++ [uncheckedWord, selfWord, varianceWord, rightBracket]
    | question => leftBrace :: typeFollows
    | rightBrace => arrow :: typeFollows
    | rightParen => typeFollows ++ [arrow, leftBrace, leftBracket]
    | rightBracket => typeFollows ++ [arrow, colon, equals, leftBrace, less, leftParen]
    | blank | comment | endOfText => []

/-- Signs that stand behind a name where no other name may come. -/
def marks : List Terminal :=
  [ampersand, comma, question, rightBrace, rightParen, rightBracket, bar, equals, less, leftBracket]

/-- Sets of terminals of which no state has a move for one of each. -/
def apart : List (List Terminal × List Terminal) :=
  [([selfWord], Terminal.all.filter (· ≠ selfWord)),
   ([uncheckedWord, varianceWord],
     Terminal.all.filter (· ∉ [uncheckedWord, varianceWord, upperName])),
   ([label], [suffixedName, operator]),
   (marks, [suffixedName, operator, selfDot])]

/-- Whether a state may have moves for both. -/
def together (t r : Terminal) : Bool :=
  apart.all fun p => !(p.1.contains t && p.2.contains r || p.1.contains r && p.2.contains t)

def Context.rivals (c : Context) (t : Terminal) : List Terminal := c.may.filter (together t)

/-! ## States in a context -/

/-- The context of the states that a terminal leads to, from states with the symbol `prev` on top. -/
def Context.of (prev : Option Nat) (t : Terminal) : Context :=
  if t = question ∧ prev.any (· < Terminal.all.length) then sign
  else if t = selfDot ∧ prev = some attributeWord.number then ofAttribute
  else behind t

/-- Whether `q` is a state in which a lexer may be asked for a token in the context `c`. -/
def Stands : Context → Nat → Prop
  | .start, q => q = 0
  | c, q => ∃ p t, next? p (.terminal t) = some q ∧ c = .of (past p).head? t

def setOf (ts : List Terminal) : Nat := ts.foldr (fun t set => (Lr.single t.number).lor set) 0

theorem mem_setOf {t : Terminal} {ts : List Terminal} :
    Lr.mem t.number (setOf ts) = true ↔ t ∈ ts := by
  induction ts with
  | nil => exact ⟨fun h => absurd ((not_mem_zero _).symm.trans h) (by decide), fun h => nomatch h⟩
  | cons s ts ih =>
    rw [setOf, List.foldr_cons, mem_lor, Bool.or_eq_true, mem_single, decide_eq_true_eq,
      List.mem_cons, ← ih]
    exact or_congr ⟨fun h => (Terminal.number_inj h).symm, fun h => h ▸ rfl⟩ Iff.rfl

/-- Whether no state of a row has moves for two terminals that are apart. -/
def apartAt (row : Lr.Row) : Bool :=
  let set := acceptSet row
  apart.all fun p => Lr.disjoint set (setOf p.1) || Lr.disjoint set (setOf p.2)

/-- Whether a question mark is shifted just where it is a sign, and the `self.` of an attribute. -/
def shiftsAt (past : List Nat) (row : Lr.Row) : Bool :=
  match past.head? with
  | none => (row.action? question.number).isNone
  | some x =>
    if x < Terminal.all.length then
      if Context.behind (Terminal.ofNat x) ∈ beforeSign then
        (row.action? question.number).isNone || (Lr.lookup question.number row.shifts).isSome
      else if x = attributeWord.number then
        (row.action? selfDot.number).isNone || (Lr.lookup selfDot.number row.shifts).isSome
      else (Lr.lookup question.number row.shifts).isNone
    else true

/-- Whether the states behind a row have moves for no other terminals than those of their context. -/
def mayAt (rows : List Lr.Row) (past : List Nat) (row : Lr.Row) : Bool :=
  row.shifts.all fun e =>
    subset (acceptSet (rows.getD e.2 ⟨[], [], []⟩))
      (setOf (endOfText :: (Context.of past.head? (Terminal.ofNat e.1)).may))

def contextRows (rows : List Lr.Row) : List (List Nat) → List Lr.Row → Bool
  | past :: pasts, row :: rest =>
    apartAt row && shiftsAt past row && mayAt rows past row && contextRows rows pasts rest
  | [], [] => true
  | _, _ => false

set_option maxRecDepth 100000 in
theorem contextRows_table : contextRows table.toList pasts table.toList = true := by
  decide

theorem contextAt_of_contextRows {all rows : List Lr.Row} {ps : List (List Nat)} {q : Nat}
    {row : Lr.Row} (h : contextRows all ps rows = true) (hq : rows[q]? = some row) :
    apartAt row = true ∧ shiftsAt (ps.getD q []) row = true ∧
      mayAt all (ps.getD q []) row = true := by
  induction rows generalizing ps q with
  | nil => cases hq
  | cons r rows ih =>
    match ps with
    | [] => cases h
    | past :: ps =>
      rw [contextRows, Bool.and_eq_true, Bool.and_eq_true, Bool.and_eq_true, and_assoc,
        and_assoc] at h
      match q with
      | 0 =>
        obtain rfl : r = row := Option.some.inj hq
        exact ⟨h.1, h.2.1, h.2.2.1⟩
      | q + 1 =>
        have := ih h.2.2.2 hq
        rwa [List.getD_cons_succ]

theorem contextAt_of_row? {q : Nat} {row : Lr.Row} (h : row? q = some row) :
    apartAt row = true ∧ shiftsAt (past q) row = true ∧ mayAt table.toList (past q) row = true := by
  refine contextAt_of_contextRows contextRows_table ?_
  rw [Array.getElem?_toList, ← row?_eq]
  exact h

theorem accepts_iff {q : Nat} {t : Terminal} :
    Accepts q t ↔ ∃ row, row? q = some row ∧ Lr.mem t.number (acceptSet row) = true := by
  rw [Accepts, action?, Option.isSome_bind, Option.any_eq_true]
  simp only [mem_acceptSet]

theorem not_mem_of_disjoint {a b i : Nat} (h : Lr.disjoint a b = true) (ha : Lr.mem i a = true) :
    Lr.mem i b = false := by
  have he : a &&& b = 0 := Nat.eq_of_beq_eq_true h
  have hi : (a &&& b).testBit i = false := by rw [he]; exact Nat.zero_testBit i
  rw [mem_eq_testBit] at ha ⊢
  rwa [Nat.testBit_and, ha, Bool.true_and] at hi

theorem together_of_accepts {q : Nat} {t r : Terminal} (ht : Accepts q t) (hr : Accepts q r) :
    together t r = true := by
  obtain ⟨row, hrow, ht⟩ := accepts_iff.mp ht
  obtain ⟨row', hrow', hr⟩ := accepts_iff.mp hr
  obtain rfl : row = row' := Option.some.inj (hrow.symm.trans hrow')
  have h := List.all_eq_true.mp (contextAt_of_row? hrow).1
  refine List.all_eq_true.mpr fun p hp => ?_
  have h := h p hp
  rw [Bool.or_eq_true] at h
  have hmem : ∀ {us : List Terminal} {u : Terminal}, Lr.mem u.number (acceptSet row) = true →
      Lr.disjoint (acceptSet row) (setOf us) = true → us.contains u = false := by
    intro us u hu hd
    rw [← Bool.not_eq_true, List.contains_iff_mem, ← mem_setOf, not_mem_of_disjoint hd hu]
    exact Bool.false_ne_true
  rcases h with h | h
  · rw [hmem ht h, hmem hr h, Bool.false_and, Bool.false_and]
    rfl
  · rw [hmem ht h, hmem hr h, Bool.and_false, Bool.and_false]
    rfl

theorem ofNat_number (t : Terminal) : Terminal.ofNat t.number = t := Terminal.ofNat_ctorIdx t

theorem mem_may_of_subset {row : Lr.Row} {t : Terminal} {ts : List Terminal}
    (h : subset (acceptSet row) (setOf (endOfText :: ts)) = true)
    (ht : Lr.mem t.number (acceptSet row) = true) (hend : t ≠ endOfText) : t ∈ ts := by
  rcases List.mem_cons.mp (mem_setOf.mp (mem_of_subset h ht)) with he | hm
  · exact absurd he hend
  · exact hm

theorem may_start : (table[0]?).all (fun row =>
    subset (acceptSet row) (setOf (endOfText :: Context.start.may))) = true := by
  decide +kernel

theorem stands_cases {c : Context} {q : Nat} (h : Stands c q) :
    (c = .start ∧ q = 0) ∨
      ∃ p t, next? p (.terminal t) = some q ∧ c = .of (past p).head? t := by
  cases c with
  | start => exact .inl ⟨rfl, h⟩
  | behind _ => exact .inr h
  | sign => exact .inr h
  | ofAttribute => exact .inr h

theorem mem_may {c : Context} {q : Nat} {t : Terminal} (hc : Stands c q) (ht : Accepts q t)
    (hend : t ≠ endOfText) : t ∈ c.may := by
  obtain ⟨row, hrow, hm⟩ := accepts_iff.mp ht
  rcases stands_cases hc with ⟨rfl, rfl⟩ | ⟨p, s, hs, rfl⟩
  · have h := may_start
    rw [← row?_eq, hrow, Option.all_some] at h
    exact mem_may_of_subset h hm hend
  · obtain ⟨prow, hprow, hmem⟩ := mem_shifts_of_next? hs
    have h := List.all_eq_true.mp (contextAt_of_row? hprow).2.2 _ hmem
    rw [ofNat_number, List.getD_eq_getElem?_getD, Array.getElem?_toList, ← row?_eq, hrow,
      Option.getD_some] at h
    exact mem_may_of_subset h hm hend

/-- **The terminals of a state compete in its context.** -/
theorem mem_rivals {c : Context} {q : Nat} {t r : Terminal} (hc : Stands c q) (ht : Accepts q t)
    (hr : Accepts q r) (hend : r ≠ .endOfText) : r ∈ c.rivals t :=
  List.mem_filter.mpr ⟨mem_may hc hr hend, together_of_accepts ht hr⟩

/-! ## The next context -/

theorem number_lt_of_terminal (t : Terminal) : (Symbol.terminal t).number < Terminal.all.length :=
  t.number_lt

theorem le_number_of_nonterminal (m : Nonterminal) :
    Terminal.all.length ≤ (Symbol.nonterminal m).number := Nat.le_add_right _ _

theorem of_eq {t : Terminal} (hq : t ≠ question) (hs : t ≠ selfDot) (prev : Option Nat) :
    Context.of prev t = .behind t := by
  rw [Context.of, if_neg fun h => hq h.1, if_neg fun h => hs h.1]

theorem of_eq_behind {prev : Option Nat} {s t : Terminal} (h : Context.of prev t = .behind s) :
    t = s := by
  rw [Context.of] at h
  split at h
  · cases h
  · split at h
    · cases h
    · exact Context.behind.inj h

/-- The check of the state that a terminal leads to. -/
theorem shiftsAt_of_next? {p q : Nat} {t : Terminal} {row : Lr.Row}
    (h : next? p (.terminal t) = some q) (hrow : row? q = some row) :
    (if Context.behind t ∈ beforeSign then
      (row.action? question.number).isNone || (Lr.lookup question.number row.shifts).isSome
    else if t.number = attributeWord.number then
      (row.action? selfDot.number).isNone || (Lr.lookup selfDot.number row.shifts).isSome
    else (Lr.lookup question.number row.shifts).isNone) = true := by
  have hs := (contextAt_of_row? hrow).2.1
  rw [shiftsAt, head?_past h] at hs
  simp only [] at hs
  rw [if_pos (number_lt_of_terminal t)] at hs
  rwa [show Terminal.ofNat (Symbol.terminal t).number = t from ofNat_number t] at hs

theorem not_reduces_of_lookup {q : Nat} {t : Terminal} {row : Lr.Row} (hrow : row? q = some row)
    (h : ((row.action? t.number).isNone || (Lr.lookup t.number row.shifts).isSome) = true) :
    ¬ Reduces q t := by
  rintro ⟨i, hi⟩
  rw [action?, hrow, Option.bind_some] at hi
  rw [hi, Option.isNone_some, Bool.false_or, Option.isSome_iff_exists] at h
  obtain ⟨q', hq'⟩ := h
  rw [Lr.Row.action?, hq'] at hi
  cases hi

theorem next?_of_lookup {q : Nat} {t : Terminal} {row : Lr.Row} (hrow : row? q = some row)
    (h : (Lr.lookup t.number row.shifts).isNone = true) : next? q (.terminal t) = none := by
  rw [Option.isNone_iff_eq_none] at h
  rw [next?, action?, hrow, Option.bind_some, Lr.Row.action?, h]
  cases Lr.reductionOn t.number row.reductions <;> rfl

theorem row?_of_reduces {q : Nat} {t : Terminal} (h : Reduces q t) : ∃ row, row? q = some row := by
  obtain ⟨i, hi⟩ := h
  obtain ⟨row, _, hrow, _⟩ := mem_of_reduce hi
  exact ⟨row, hrow⟩

/-- In a context before a sign a question mark is shifted at once. -/
theorem not_reduces_question {c : Context} {q : Nat} (hc : Stands c q) (hs : c ∈ beforeSign) :
    ¬ Reduces q question := by
  intro hr
  obtain ⟨row, hrow⟩ := row?_of_reduces hr
  rcases stands_cases hc with ⟨rfl, _⟩ | ⟨p, t, ht, rfl⟩
  · exact absurd hs (by decide)
  · have hmem : Context.behind t ∈ beforeSign := by
      rw [Context.of] at hs
      split at hs
      · exact absurd hs (by decide)
      · split at hs
        · exact absurd hs (by decide)
        · exact hs
    have h := shiftsAt_of_next? ht hrow
    rw [if_pos hmem] at h
    exact not_reduces_of_lookup hrow h hr

/-- The `self.` of an attribute is shifted at once. -/
theorem not_reduces_selfDot {q : Nat} (hc : Stands (.behind attributeWord) q) :
    ¬ Reduces q selfDot := by
  intro hr
  obtain ⟨row, hrow⟩ := row?_of_reduces hr
  rcases stands_cases hc with ⟨he, _⟩ | ⟨p, t, ht, he⟩
  · cases he
  · obtain rfl := of_eq_behind he.symm
    have h := shiftsAt_of_next? ht hrow
    rw [if_neg (by decide), if_pos rfl] at h
    exact not_reduces_of_lookup hrow h hr

/-- In all other contexts a question mark is shifted behind a reduction. -/
theorem next?_question {c : Context} {q : Nat} (hc : Stands c q) (hs : c ∉ beforeSign) :
    next? q (.terminal question) = none := by
  rcases stands_cases hc with ⟨rfl, rfl⟩ | ⟨p, t, ht, rfl⟩
  · decide +kernel
  · have hmem : Context.behind t ∉ beforeSign := by
      intro hmem
      rw [Context.of, if_neg (fun h => absurd (h.1 ▸ hmem) (by decide)),
        if_neg (fun h => absurd (h.1 ▸ hmem) (by decide))] at hs
      exact hs hmem
    cases hrow : row? q with
    | none => rw [next?, action?, hrow]; rfl
    | some row =>
      have h := shiftsAt_of_next? ht hrow
      rw [if_neg hmem] at h
      by_cases ha : t.number = attributeWord.number
      · obtain rfl := Terminal.number_inj ha
        cases hq : next? q (.terminal question) with
        | none => rfl
        | some q' =>
          have hmay := mem_may hc (accepts_of_next? hq) (by decide)
          rw [of_eq (by decide) (by decide)] at hmay
          exact absurd hmay (by decide)
      · rw [if_neg ha] at h
        exact next?_of_lookup hrow h

theorem stands_of {p q : Nat} {t : Terminal} (h : next? p (.terminal t) = some q) :
    Stands (.of (past p).head? t) q := by
  cases hc : Context.of (past p).head? t with
  | start =>
    rw [Context.of] at hc
    split at hc
    · cases hc
    · split at hc <;> cases hc
  | behind _ => exact ⟨p, t, h, hc.symm⟩
  | sign => exact ⟨p, t, h, hc.symm⟩
  | ofAttribute => exact ⟨p, t, h, hc.symm⟩

theorem of_nonterminal (m : Nonterminal) (t : Terminal) :
    Context.of (some (Symbol.nonterminal m).number) t = .behind t := by
  have hle := le_number_of_nonterminal m
  have hlt := number_lt_of_terminal attributeWord
  rw [Context.of, if_neg, if_neg]
  · rintro ⟨_, h⟩
    have h : (Symbol.nonterminal m).number = (Symbol.terminal attributeWord).number :=
      Option.some.inj h
    omega
  · rintro ⟨_, h⟩
    rw [Option.any_some, decide_eq_true_eq] at h
    omega

theorem next_eq_behind {c : Context} {t : Terminal} (hq : t = question → c ∉ beforeSign)
    (hs : t = selfDot → c ≠ .behind attributeWord) : c.next t = .behind t := by
  rw [Context.next, if_neg fun h => hq h.1 h.2, if_neg fun h => hs h.1 h.2]

/-- The context is that of the states which the top of the stack leads to. -/
theorem of_past_eq_next {c : Context} {name : String} {t : Terminal} {q : Nat}
    {stack stack' : List (Lr.Frame Node)} (hc : Stands c (Lr.top stack))
    (hfalls : Falls name t stack stack') (hq : next? (Lr.top stack') (.terminal t) = some q) :
    Context.of (past (Lr.top stack')).head? t = c.next t := by
  rcases hfalls.top with rfl | ⟨hr, p, m, hm⟩
  · have hsign : t = question → c ∈ beforeSign := by
      rintro rfl
      by_cases hs : c ∈ beforeSign
      · exact hs
      · rw [next?_question hc hs] at hq
        cases hq
    rcases stands_cases hc with ⟨rfl, h0⟩ | ⟨p, s, hp, rfl⟩
    · have hp : (past 0).head? = none := by decide
      rw [h0, hp, Context.of, if_neg (fun h => by cases h.2), if_neg (fun h => by cases h.2),
        next_eq_behind (fun h => absurd (hsign h) (by decide)) fun _ => by decide]
    · rw [head?_past hp]
      by_cases ht : t = question
      · rw [Context.of, if_pos ⟨ht, by
          rw [Option.any_some]; exact decide_eq_true (number_lt_of_terminal s)⟩,
          Context.next, if_pos ⟨ht, hsign ht⟩]
      · by_cases hown : t = selfDot ∧ s = attributeWord
        · obtain ⟨rfl, rfl⟩ := hown
          rw [of_eq (t := attributeWord) (by decide) (by decide)]
          rfl
        · rw [next_eq_behind (fun h => absurd h ht) fun h he => hown ⟨h, of_eq_behind he⟩,
            Context.of, if_neg fun h => ht h.1, if_neg]
          exact fun h => hown ⟨h.1, Terminal.number_inj (Option.some.inj h.2)⟩
  · rw [head?_past hm, of_nonterminal, next_eq_behind]
    · intro ht hs
      exact not_reduces_question hc hs (ht ▸ hr)
    · rintro ht rfl
      exact not_reduces_selfDot hc (ht ▸ hr)

/-- **The next token is in the next context.** -/
theorem Stands.next {c : Context} {name : String} {t : Terminal} {q : Nat}
    {stack stack' : List (Lr.Frame Node)} (hc : Stands c (Lr.top stack))
    (h : (machine name).settle t.number stack = .shift q stack') : Stands (c.next t) q := by
  obtain ⟨hfalls, hact⟩ := falls_of_shift h
  have hq := next?_of_action? hact
  rw [← of_past_eq_next hc hfalls hq]
  exact stands_of hq

end RbsSynth.Signature
