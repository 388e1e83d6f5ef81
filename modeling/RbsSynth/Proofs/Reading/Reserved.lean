import RbsSynth.Proofs.Reading.Kept
import RbsSynth.Proofs.Reading.Written
import RbsSynth.Proofs.Scanning.Keywords

/-!
# Words that are not read as names

Where a keyword may stand, its text is never read as a name.  The table gives each state the moves of
all that may follow, so that behind a type and behind the name of a method the words that start a member
are no names, and where a type may start the words that are types are none:

    reservedAt q  are the words that cannot be a name which is pushed in the state q      (Comes.not_reserved)

Behind `def`, `self.` or `alias` every word is a name.
-/

namespace RbsSynth.Signature

open Terminal

/-- The keywords that start a type. -/
def typeKeywords : List Terminal := [singletonWord, baseType]

/-- The keywords that start or end a member. -/
def memberKeywords : List Terminal :=
  [attributeWord, mixinWord, visibilityWord, interfaceWord, moduleWord, aliasWord, classWord, typeWord,
   defWord, endWord]

def Terminal.IsWord (t : Terminal) (w : String) : Prop := w ∈ wordsOf t ∨ t.spelling? = some w

instance (t : Terminal) (w : String) : Decidable (t.IsWord w) := inferInstanceAs (Decidable (_ ∨ _))

theorem exists_typeKeyword : ∀ w ∈ typeWords, ∃ t ∈ typeKeywords, t.IsWord w := by decide

theorem exists_memberKeyword : ∀ w ∈ memberWords, ∃ t ∈ memberKeywords, t.IsWord w := by decide

/-! ## What a lexer finds -/

variable {cs : List Char} {n q : Nat} {t : Terminal}

theorem match?_of_before {ts : List Terminal} {w r : Terminal}
    (hs : ts.Pairwise fun a b => a.number < b.number)
    (h : Lexicon.matchFirst? cs ts = some (w, n)) (hr : r ∈ ts) (hlt : r.number < w.number) :
    r.match? cs = none := by
  induction ts with
  | nil => cases hr
  | cons t ts ih =>
    rw [Lexicon.matchFirst?] at h
    split at h
    · obtain ⟨rfl, rfl⟩ := Prod.mk.inj (Option.some.inj h)
      rcases List.mem_cons.mp hr with rfl | hr
      · exact absurd hlt (Nat.lt_irrefl _)
      · exact absurd ((List.pairwise_cons.mp hs).1 r hr) (Nat.lt_asymm hlt)
    · next hnone =>
      rcases List.mem_cons.mp hr with rfl | hr
      · exact hnone
      · exact ih (List.pairwise_cons.mp hs).2 h hr

theorem allowed_of_accepts (ht : Accepts q t) (hend : t ≠ endOfText) :
    ∃ f, lexicons.getD q Lexicon.full = Lexicon.ofAllowed f ∧
      t ∈ (Lexicon.ofAllowed f).allowed := by
  rw [Accepts, action?, Option.isSome_bind, Option.any_eq_true] at ht
  obtain ⟨row, hrow, hm⟩ := ht
  refine ⟨fun r => row.accepts r.number, ?_, mem_allowed.mpr ⟨hend, .inr hm⟩⟩
  rw [lexicons_getD, hrow]
  rfl

theorem keyword_spec_all : ∀ t ∈ typeKeywords ++ memberKeywords, t ≠ endOfText ∧
    (wordsOf t ≠ [] ∧ t.number < lowerName.number ∧ (∀ w ∈ Terminal.all, t ∉ w.covers) ∨
      wordsOf t = [] ∧ t ∈ lowerName.covers ∧
        ∀ s ∈ t.spelling?, ∀ k ∈ lowerName.covers, k.spelling? = some s → k = t) := by
  decide

/-- Where a keyword may stand its text is not found as a name. -/
theorem ne_word_of_next? (hn : (lexicons.getD q Lexicon.full).next? cs = some (lowerName, n))
    (ht : Accepts q t) (hkey : t ∈ typeKeywords ++ memberKeywords) {w : String} (hw : t.IsWord w) :
    String.ofList (cs.take n) ≠ w := by
  intro he
  have htake : w.toList = cs.take n := by rw [← he, String.toList_ofList]
  obtain ⟨hend, hcases⟩ := keyword_spec_all t hkey
  obtain ⟨f, hf, hallowed⟩ := allowed_of_accepts ht hend
  rw [hf, Lexicon.next?] at hn
  split at hn
  · next r m hfirst =>
    obtain ⟨hr, rfl⟩ := Prod.mk.inj (Option.some.inj hn)
    have hlower : r = lowerName := by
      rcases resolve_cases (Lexicon.ofAllowed f) r (cs.take m) with h | ⟨h, -⟩
      · exact h.symm.trans hr
      · rw [hr] at h
        exact absurd h ((by decide : ∀ r ∈ Terminal.all, lowerName ∉ r.covers) r r.mem_all)
    subst hlower
    obtain ⟨-, hmatch⟩ := matchFirst?_some hfirst
    rcases hcases with ⟨hwords, hlt, htop⟩ | ⟨hwords, hcov, huniq⟩
    · -- A keyword that looks ahead is tried before a name.
      have htried : t ∈ (Lexicon.ofAllowed f).tried :=
        mem_tried.mpr ⟨hallowed, fun w _ => htop w w.mem_all⟩
      have hnone := match?_of_before (tried_sorted f) hfirst htried hlt
      have hmem : w ∈ wordsOf t := by
        refine hw.resolve_right fun hs => ?_
        revert hwords hs
        cases t <;> simp [wordsOf, spelling?]
      rw [match?_of_wordsOf hwords, ← List.take_append_drop m cs, ← htake] at hnone
      have hname : IsLowerName w.toList := htake ▸ (takes_of_lowerNameAt? hmatch).take.1
      have hany : (wordsOf t).any (·.toList == w.toList) = true :=
        List.any_eq_true.mpr ⟨w, hmem, beq_self_eq_true _⟩
      rw [wordAt?_eq hname.nameChars (boundary_of_lowerNameAt? hmatch), if_pos hany] at hnone
      cases hnone
    · have hs : t.spelling? = some w := hw.resolve_left fun h => by rw [hwords] at h; cases h
      rw [resolve_eq_of_mem hcov hallowed hs htake (huniq w hs)] at hr
      subst hr
      exact absurd hcov (by decide)
  · cases hn

/-! ## Reserved words -/

/-- Whether the newest symbol on the stacks of a state is a type or the name of a method. -/
def behindTypeOrName (past : List Nat) : Bool :=
  past.head? == some (Symbol.nonterminal .type).number ||
    past.head? == some (Symbol.nonterminal .methodName).number

/-- The words that no name pushed in a state is. -/
def reservedAt (q : Nat) : List String :=
  if behindTypeOrName (past q) then memberWords
  else if (next? q (.nonterminal .simple)).isSome then typeWords
  else []

/-- Whether a state behind a terminal has moves for the keywords of its reserved words, if it has one for a
name, and reduces nothing before a name but the `self.` of a method, where a member may not start. -/
def reservesAt (past : List Nat) (row : Lr.Row) : Bool :=
  let reduced := Lr.reductionOn lowerName.number row.reductions
  let simple := (row.goto? Nonterminal.simple.number).isSome
  bif behindTerminal past then
    (!simple || subset (setOf typeKeywords) (acceptSet row)) &&
      (subset (setOf memberKeywords) (acceptSet row) ||
        reduced.all fun i => productions[i]?.any (·.head == .methodKind))
  else !simple && (past.head? != some (Symbol.nonterminal .methodKind).number || reduced.isNone)

theorem reservesAt_table :
    (table.toList.zipIdx.all fun r => reservesAt (past r.2) r.1) = true := by
  decide +kernel

theorem reservesAt_of_row? {row : Lr.Row} (h : row? q = some row) : reservesAt (past q) row = true := by
  have hmem : (row, q) ∈ table.toList.zipIdx := by
    rw [List.mk_mem_zipIdx_iff_getElem?, Array.getElem?_toList, ← row?_eq]
    exact h
  exact List.all_eq_true.mp reservesAt_table _ hmem

theorem accepts_of_subset {row : Lr.Row} (h : row? q = some row) {ts : List Terminal}
    (hsub : subset (setOf ts) (acceptSet row) = true) (ht : t ∈ ts) : Accepts q t :=
  accepts_iff.mpr ⟨row, h, mem_of_subset hsub (mem_setOf.mpr ht)⟩

theorem reductionOn_of_reduce {i : Nat} (ha : action? q t = some (.reduce i)) :
    ∃ row, row? q = some row ∧ Lr.reductionOn t.number row.reductions = some i := by
  rw [action?, Option.bind_eq_some_iff] at ha
  obtain ⟨row, hrow, hact⟩ := ha
  refine ⟨row, hrow, ?_⟩
  rw [Lr.Row.action?] at hact
  split at hact
  · cases hact
  · obtain ⟨p, hp, he⟩ := Option.map_eq_some_iff.mp hact
    cases he
    exact hp

/-- A reduction before a name writes the `self.` of a method or is made where a member may start. -/
theorem reduced_cases {i : Nat} (hq : behindTerminal (past q) = true)
    (ha : action? q lowerName = some (.reduce i)) :
    (∃ p, productions[i]? = some p ∧ p.head = .methodKind) ∨ ∀ t ∈ memberKeywords, Accepts q t := by
  obtain ⟨row, hrow, hreduced⟩ := reductionOn_of_reduce ha
  have h := reservesAt_of_row? hrow
  simp only [reservesAt, hq, cond_true, Bool.and_eq_true, Bool.or_eq_true, hreduced, Option.all_some,
    Option.any_eq_true, beq_iff_eq] at h
  exact h.2.symm.imp id fun hsub t ht => accepts_of_subset hrow hsub ht

theorem accepts_typeKeyword (hq : behindTerminal (past q) = true)
    (hs : (next? q (.nonterminal .simple)).isSome = true) (ht : t ∈ typeKeywords) : Accepts q t := by
  rw [next?, Option.isSome_bind, Option.any_eq_true] at hs
  obtain ⟨row, hrow, hs⟩ := hs
  have h := reservesAt_of_row? hrow
  simp only [reservesAt, hq, cond_true, Bool.and_eq_true, hs, Bool.not_true, Bool.false_or] at h
  exact accepts_of_subset hrow h.1 ht

/-! ## Behind terminals and nonterminals -/

/-- Only behind a nonterminal the words of members are reserved. -/
theorem behindTypeOrName_eq_false {past : List Nat} (h : behindTerminal past = true) :
    behindTypeOrName past = false := by
  refine Bool.eq_false_iff.mpr fun hb => ?_
  rw [behindTypeOrName, Bool.or_eq_true, beq_iff_eq, beq_iff_eq] at hb
  have hle := le_number_of_nonterminal
  rcases hb with hb | hb <;>
  · rw [behindTerminal, hb, Option.all_some, decide_eq_true_eq] at h
    have := hle .type
    have := hle .methodName
    omega

/-- Behind a nonterminal no type starts, and behind the `self.` of a method nothing is reduced before a
name. -/
theorem behind_nonterminal {p : Nat} {m : Nonterminal} (h : next? p (.nonterminal m) = some q) :
    (next? q (.nonterminal .simple)).isSome = false ∧
      (m = .methodKind → ∀ i, action? q lowerName ≠ some (.reduce i)) := by
  have hhead := head?_past h
  have hbehind : behindTerminal (past q) = false := by
    have := le_number_of_nonterminal m
    rw [behindTerminal, hhead, Option.all_some, decide_eq_false_iff_not]
    omega
  have hcheck : ∀ row, row? q = some row → (row.goto? Nonterminal.simple.number).isSome = false ∧
      (m = .methodKind → Lr.reductionOn lowerName.number row.reductions = none) := by
    intro row hrow
    have h := reservesAt_of_row? hrow
    simp only [reservesAt, hbehind, cond_false, Bool.and_eq_true, Bool.not_eq_true', hhead, bne_iff_ne,
      Bool.or_eq_true, Option.isNone_iff_eq_none] at h
    refine ⟨h.1, ?_⟩
    rintro rfl
    exact h.2.resolve_left fun hne => hne rfl
  constructor
  · rw [next?, Option.isSome_bind, Option.any_eq_false]
    exact fun row hrow => Bool.not_eq_true _ ▸ (hcheck row hrow).1
  · intro hm i ha
    obtain ⟨row, hrow, hreduced⟩ := reductionOn_of_reduce ha
    rw [(hcheck row hrow).2 hm] at hreduced
    cases hreduced

/-- Where a name is shifted, the keywords of the reserved words had a move where it was found. -/
theorem accepts_of_reserved {name : String} {stack below : List (Lr.Frame Node)}
    (hbehind : behindTerminal (past (Lr.top stack)) = true) (hf : Falls name lowerName stack below)
    {w : String} (hw : w ∈ reservedAt (Lr.top below)) :
    ∃ t ∈ typeKeywords ++ memberKeywords, t.IsWord w ∧ Accepts (Lr.top stack) t := by
  rw [reservedAt] at hw
  cases hf with
  | refl =>
    rw [behindTypeOrName_eq_false hbehind, if_neg Bool.false_ne_true] at hw
    split at hw
    · next hs =>
      obtain ⟨t, ht, hword⟩ := exists_typeKeyword w hw
      exact ⟨t, List.mem_append_left _ ht, hword, accepts_typeKeyword hbehind hs ht⟩
    · cases hw
  | @step _ next _ i ha hr hrest =>
    obtain ⟨p, q, n, hp, -, hq, rfl⟩ := reduce_eq_some hr
    rcases reduced_cases hbehind ha with ⟨p', hp', hhead⟩ | hmembers
    · -- Nothing is reserved behind the `self.` of a method.
      obtain rfl : p = p' := Option.some.inj (hp.symm.trans hp')
      rw [hhead] at hq
      obtain ⟨hsimple, hstuck⟩ := behind_nonterminal hq
      cases hrest with
      | refl =>
        have hplain : behindTypeOrName (past q) = false := by
          rw [behindTypeOrName, head?_past hq]
          decide
        rw [show Lr.top (_ :: _) = q from rfl, hplain, hsimple] at hw
        cases hw
      | step ha' => exact absurd ha' (hstuck rfl _)
    · have hlast : ∃ p m, next? p (.nonterminal m) = some (Lr.top below) := by
        rcases hrest.top with rfl | ⟨-, h⟩
        · exact ⟨_, _, hq⟩
        · exact h
      obtain ⟨_, m, hm⟩ := hlast
      rw [(behind_nonterminal hm).1] at hw
      split at hw
      · obtain ⟨t, ht, hword⟩ := exists_memberKeyword w hw
        exact ⟨t, List.mem_append_right _ ht, hword, hmembers t ht⟩
      · cases hw

/-- **A name is none of the words that its state reserves.** -/
theorem Comes.not_reserved {name : String} {stack below : List (Lr.Frame Node)} {k : Token}
    (h : Comes name stack below k) (hk : k.terminal = lowerName) : k.text ∉ reservedAt (Lr.top below) := by
  intro hw
  have hfalls := h.falls
  obtain ⟨cs, n, hn, htext⟩ := h.found
  rw [hk] at hfalls hn
  obtain ⟨t, ht, hword, haccepts⟩ := accepts_of_reserved h.behind hfalls hw
  exact ne_word_of_next? hn haccepts ht hword htext.symm

end RbsSynth.Signature
