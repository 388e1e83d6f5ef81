import RbsSynth.Proofs.Scanning.Runs

/-!
# Where keywords end

Some keywords have a look-ahead of their own, so that no name character may follow them (`guarded`);
the others are bare spellings (`bare`).  A bare word is cut off a name only if no name may stand where
it does: otherwise the name is tried instead of the word, and is longer.

    a guarded word always ends at a word boundary, as `singleton` does
    a bare word is read whatever follows it  ↔  the state has no move for a lower-case name
                                                              (boundary_of_next?, next?_bare_iff)

So `classFoo` starts a class `Foo` where a declaration may stand.
-/

namespace RbsSynth.Signature

open Terminal

/-- The keywords that look ahead. -/
def guarded : List Terminal :=
  [attributeWord, baseType, mixinWord, visibilityWord, uncheckedWord, varianceWord]

/-- The keywords that are bare spellings and may stand where no name may. -/
def bare : List Terminal :=
  [interfaceWord, moduleWord, aliasWord, classWord, typeWord, defWord, endWord]

def keywords : List Terminal := guarded ++ singletonWord :: bare

variable {cs : List Char} {n : Nat}

/-! ## Word boundaries -/

theorem boundary_of_run (cs : List Char) : Boundary (cs.drop (runLength isNameChar cs)) := by
  intro c rest h
  rw [runLength_eq, drop_length_takeWhile] at h
  have hhead := List.head?_dropWhile_not isNameChar cs
  rw [h] at hhead
  simpa using hhead

theorem boundary_of_nameAt? {first : Char → Bool} (h : nameAt? first cs = some n) :
    Boundary (cs.drop n) := by
  cases cs with
  | nil => cases h
  | cons c cs =>
    rw [nameAt?, if_pos (begins_of_nameAt? h)] at h
    obtain rfl := Option.some.inj h
    exact boundary_of_run cs

theorem boundary_of_lowerNameAt? (h : lowerNameAt? cs = some n) : Boundary (cs.drop n) := by
  unfold lowerNameAt? at h
  split at h
  · next c cs =>
    split at h
    · cases h
    · obtain rfl := Option.some.inj h
      exact boundary_of_run (c :: cs)
  · exact boundary_of_nameAt? h

theorem boundary_of_wordAt? {words : List String} (h : wordAt? words cs = some n) :
    Boundary (cs.drop n) := by
  simp only [wordAt?] at h
  split at h
  · obtain rfl := Option.some.inj h
    rw [← runLength_eq]
    exact boundary_of_run cs
  · cases h

/-! ## The terminals of a state -/

/-- What may stand beside bare words where no name may. -/
def besideBare : List Terminal :=
  [namespacePath, attributeWord, mixinWord, visibilityWord, annotation, globalName, instanceVariable,
   upperName, arrow, colon, comma, equals, leftBrace, less, leftParen, leftBracket, question, bar,
   endOfText]

/-- Whether `singleton` only stands where a name may, and where no name may, only certain terminals
stand beside bare words. -/
def wordsAt (row : Lr.Row) : Bool :=
  let set := acceptSet row
  Lr.mem lowerName.number set ||
    !Lr.mem singletonWord.number set &&
      (Lr.disjoint set (setOf bare) || subset set (setOf (bare ++ besideBare)))

theorem wordsAt_table : table.toList.all wordsAt = true := by decide +kernel

theorem wordsAt_of_not_accepts {q : Nat} {t : Terminal} (ht : Accepts q t)
    (hn : ¬ Accepts q lowerName) :
    t ≠ singletonWord ∧ (t ∈ bare → ∀ r, Accepts q r → r ∈ bare ++ besideBare) := by
  obtain ⟨row, hrow, hm⟩ := accepts_iff.mp ht
  have hrow' : row ∈ table.toList := by
    rw [row?_eq] at hrow
    exact Array.mem_toList_iff.mpr (Array.mem_of_getElem? hrow)
  have hwords := List.all_eq_true.mp wordsAt_table row hrow'
  have hlower : Lr.mem lowerName.number (acceptSet row) = false :=
    Bool.eq_false_iff.mpr fun h => hn (accepts_iff.mpr ⟨row, hrow, h⟩)
  rw [wordsAt, hlower, Bool.false_or, Bool.and_eq_true, Bool.not_eq_true', Bool.or_eq_true] at hwords
  constructor
  · rintro rfl
    rw [hm] at hwords
    cases hwords.1
  · intro hbare r hr
    obtain ⟨row', hrow', hr⟩ := accepts_iff.mp hr
    obtain rfl : row = row' := Option.some.inj (hrow.symm.trans hrow')
    rcases hwords.2 with hd | hsub
    · have hnot := not_mem_of_disjoint hd hm
      rw [mem_setOf.mpr hbare] at hnot
      cases hnot
    · exact mem_setOf.mp (mem_of_subset hsub hr)

/-- A lexicon finds what it tries, or what is covered by it. -/
theorem cases_of_next? {lexicon : Lexicon} {t : Terminal} (h : lexicon.next? cs = some (t, n)) :
    ∃ w ∈ lexicon.tried, w.match? cs = some n ∧ (t = w ∨ t ∈ w.covers) := by
  rw [Lexicon.next?] at h
  split at h
  · next w m hw =>
    obtain ⟨rfl, rfl⟩ := Prod.mk.inj (Option.some.inj h)
    obtain ⟨hmem, hmatch⟩ := matchFirst?_some hw
    exact ⟨w, hmem, hmatch, (resolve_cases lexicon w (cs.take m)).imp id (·.1)⟩
  · cases h

/-! ## Guarded and bare words -/

theorem spelled_of_bare : ∀ t ∈ singletonWord :: bare,
    t ∈ lowerName.covers ∧ t.isSkipped = false ∧ t ≠ endOfText ∧ t.covers = [] ∧
      ∀ w ∈ Terminal.all, t ∈ w.covers → w = lowerName := by
  decide

theorem guarded_spec : ∀ t ∈ guarded, wordsOf t ≠ [] ∧ ∀ w ∈ Terminal.all, t ∉ w.covers := by
  decide

/-- Where a spelled word is found although it is not tried by itself, a name was found. -/
theorem tried_of_spelled {q : Nat} {t : Terminal} (ht : t ∈ singletonWord :: bare)
    (h : t ∈ (lexicons.getD q Lexicon.full).tried) : Accepts q t ∧ ¬ Accepts q lowerName := by
  obtain ⟨hcov, hskip, -⟩ := spelled_of_bare t ht
  rw [lexicons_getD] at h
  cases hrow : row? q with
  | none =>
    rw [hrow] at h
    exact absurd hcov ((mem_tried.mp h).2 lowerName (by decide))
  | some row =>
    rw [hrow] at h
    obtain ⟨hallowed, hnot⟩ := mem_tried.mp h
    constructor
    · obtain ⟨-, hs | ha⟩ := mem_allowed.mp hallowed
      · rw [hskip] at hs
        cases hs
      · rw [Accepts, action?, hrow]
        exact ha
    · intro ha
      rw [Accepts, action?, hrow] at ha
      exact hnot lowerName (mem_allowed.mpr ⟨by decide, .inr ha⟩) hcov

/-- **A keyword ends at a word boundary**, unless it is bare and stands where no name may. -/
theorem boundary_of_next? {q : Nat} {t : Terminal} (ht : t ∈ keywords)
    (h : (lexicons.getD q Lexicon.full).next? cs = some (t, n)) :
    Boundary (cs.drop n) ∨ t ∈ bare ∧ ¬ Accepts q lowerName := by
  obtain ⟨w, hw, hmatch, hcases⟩ := cases_of_next? h
  rcases List.mem_append.mp ht with hg | hs
  · obtain ⟨hwords, hnot⟩ := guarded_spec t hg
    obtain rfl : t = w := hcases.resolve_right (hnot w w.mem_all)
    rw [match?_of_wordsOf hwords] at hmatch
    exact .inl (boundary_of_wordAt? hmatch)
  · rcases hcases with rfl | hcov
    · obtain ⟨ha, hn⟩ := tried_of_spelled hs hw
      have hne := (wordsAt_of_not_accepts ha hn).1
      exact .inr ⟨(List.mem_cons.mp hs).resolve_left hne, hn⟩
    · obtain rfl := (spelled_of_bare t hs).2.2.2.2 w w.mem_all hcov
      exact .inl (boundary_of_lowerNameAt? hmatch)

/-- A terminal of fixed texts takes one of them. -/
theorem exists_prefix_of_match? {r : Terminal} (h : wordsOf r ≠ [] ∨ r.spelling?.isSome = true)
    (hm : r.match? cs = some n) : ∃ w ∈ wordsOf r ++ r.spelling?.toList, w.toList <+: cs := by
  rcases h with hw | hs
  · rw [match?_of_wordsOf hw] at hm
    obtain ⟨x, rest, rfl, -, w, hw, rfl⟩ := takes_of_wordAt? hm
    exact ⟨w, List.mem_append_left _ hw, List.prefix_append ..⟩
  · obtain ⟨w, hw⟩ := Option.isSome_iff_exists.mp hs
    obtain ⟨x, rest, rfl, -, v, hv, rfl⟩ := takes_of_spelling hw hm
    exact ⟨v, List.mem_append_right _ (Option.mem_toList.mpr hv), List.prefix_append ..⟩

/-- What may stand beside a bare word starts with another character, or has fixed texts of which none
goes on as the word does. -/
theorem beside_spec : ∀ t ∈ bare, ∀ r ∈ bare ++ besideBare, r ≠ t → ∀ s ∈ t.spelling?,
    s.toList.head?.all (!r.begins ·) = true ∨
      (wordsOf r ≠ [] ∨ r.spelling?.isSome = true) ∧
        ∀ w ∈ wordsOf r ++ r.spelling?.toList, ¬ w.toList <+: s.toList ∧ ¬ s.toList <+: w.toList := by
  decide

theorem match?_beside {t r : Terminal} {s : String} (ht : t ∈ bare) (hs : t.spelling? = some s)
    (hr : r ∈ bare ++ besideBare) (hne : r ≠ t) (rest : List Char) :
    r.match? (s.toList ++ rest) = none := by
  obtain ⟨c, x, hx⟩ := List.exists_cons_of_ne_nil (spelling?_ne_nil hs)
  rcases beside_spec t ht r hr hne s hs with hbegins | ⟨hfixed, hapart⟩
  · rw [hx, List.head?_cons, Option.all_some, Bool.not_eq_true'] at hbegins
    rw [hx]
    exact match?_eq_none hbegins _
  · cases hm : r.match? (s.toList ++ rest) with
    | none => rfl
    | some n =>
      obtain ⟨w, hw, hprefix⟩ := exists_prefix_of_match? hfixed hm
      obtain ⟨hws, hsw⟩ := hapart w hw
      rcases List.prefix_or_prefix_of_prefix hprefix (List.prefix_append s.toList rest) with h | h
      · exact absurd h hws
      · exact absurd h hsw

/-- Where no name may stand a bare word is read, whatever follows it. -/
theorem next?_bare {q : Nat} {t : Terminal} {s : String} (ht : t ∈ bare) (hs : t.spelling? = some s)
    (ha : Accepts q t) (hn : ¬ Accepts q lowerName) (rest : List Char) :
    (lexicons.getD q Lexicon.full).next? (s.toList ++ rest) = some (t, s.toList.length) := by
  obtain ⟨-, hskip, hend, hcovers, hcov⟩ := spelled_of_bare t (List.mem_cons_of_mem _ ht)
  have hbeside := (wordsAt_of_not_accepts ha hn).2 ht
  obtain ⟨row, hrow, hm⟩ := accepts_iff.mp ha
  have hacc : ∀ r : Terminal, row.accepts r.number = true → Accepts q r := by
    intro r hr
    rw [Accepts, action?, hrow]
    exact hr
  have hallowed : t ∈ (Lexicon.ofRow row).allowed := by
    rw [mem_acceptSet] at hm
    exact mem_allowed.mpr ⟨hend, .inr hm⟩
  have htried : t ∈ (Lexicon.ofRow row).tried := by
    refine mem_tried.mpr ⟨hallowed, fun w hw hin => ?_⟩
    obtain rfl := hcov w w.mem_all hin
    obtain ⟨-, hs | hr⟩ := mem_allowed.mp hw
    · cases hs
    · exact hn (hacc _ hr)
  have hread : t.match? (s.toList ++ rest) = some s.toList.length := by
    rw [match?_of_spelling hs, spelledAt?_self]
  have hsolid : ∀ t ∈ bare, ∀ s ∈ t.spelling?, s.toList.head?.all solid = true := by decide
  have hbefore : ∀ r ∈ (Lexicon.ofRow row).tried, r.number < t.number →
      r.match? (s.toList ++ rest) = none := by
    intro r hr hlt
    obtain ⟨-, hskipped | hr⟩ := mem_allowed.mp (mem_tried.mp hr).1
    · obtain ⟨c, x, hx⟩ := List.exists_cons_of_ne_nil (spelling?_ne_nil hs)
      have hc := hsolid t ht s hs
      rw [hx, List.head?_cons, Option.all_some] at hc
      rw [hx]
      exact match?_skipped hc _ r hskipped
    · have hne : r ≠ t := fun he => Nat.lt_irrefl _ (he ▸ hlt)
      exact match?_beside ht hs (hbeside r (hacc r hr)) hne rest
  have hsorted : (Lexicon.ofRow row).tried.Pairwise fun a b => a.number < b.number :=
    tried_sorted _
  rw [lexicons_getD, hrow, Option.map_some, Option.getD_some, Lexicon.next?,
    matchFirst?_eq hsorted htried hread hbefore]
  simp only [Option.some.injEq, Prod.mk.injEq, and_true]
  exact resolve_eq_self fun k hk => by rw [hcovers] at hk; cases hk

/-- **Where a bare word is cut off a name.**  It is read whatever follows it exactly where no name may
stand. -/
theorem next?_bare_iff {q : Nat} {t : Terminal} {s : String} (ht : t ∈ bare)
    (hs : t.spelling? = some s) (ha : Accepts q t) :
    (∀ rest, (lexicons.getD q Lexicon.full).next? (s.toList ++ rest) = some (t, s.toList.length)) ↔
      ¬ Accepts q lowerName := by
  constructor
  · intro h hn
    have hkey : t ∈ keywords := List.mem_append_right _ (List.mem_cons_of_mem _ ht)
    rcases boundary_of_next? hkey (h ['x']) with hb | ⟨-, hno⟩
    · rw [List.drop_left] at hb
      exact absurd (hb 'x' [] rfl) (by decide)
    · exact hno hn
  · exact next?_bare ht hs ha

/-! ## Top theorem -/

/-- In a text a reader takes the token `x` of a terminal before `rest`. -/
def TakenAt (name text : String) (st : Progress) (t : Terminal) (x rest : List Char) : Prop :=
  (∃ w, Finds name {} text.toList w st (x ++ rest)) ∧
    st.lexicon.next? (x ++ rest) = some (t, x.length)

/-- **Where keywords end.**  In every text a keyword is only taken out of a longer name when it is bare
and the parser is in a state without a move for a name; and wherever a reader comes to in such a
state, the bare words that may stand there are taken whatever follows them. -/
theorem keyword_spec (name text : String) :
    (∀ st t x rest, TakenAt name text st t x rest → t ∈ keywords → ¬ Boundary rest →
      t ∈ bare ∧ ¬ Accepts (Lr.top st.stack) lowerName) ∧
    ∀ w st cs, Finds name {} text.toList w st cs → ∀ t ∈ bare, ∀ s ∈ t.spelling?,
      Accepts (Lr.top st.stack) t →
        ((∀ rest, st.lexicon.next? (s.toList ++ rest) = some (t, s.toList.length)) ↔
          ¬ Accepts (Lr.top st.stack) lowerName) := by
  constructor
  · rintro st t x rest ⟨-, hnext⟩ ht hb
    rw [Progress.lexicon] at hnext
    have hor := boundary_of_next? ht hnext
    rw [List.drop_left] at hor
    exact hor.resolve_left hb
  · intro w st cs _ t ht s hs ha
    rw [Progress.lexicon]
    exact next?_bare_iff ht hs ha

/-- That in accepted texts every keyword ends at a word boundary. -/
def KeywordsEnd : Prop :=
  ∀ name text ds, parse text name = .ok ds → ∀ st t x rest, TakenAt name text st t x rest →
    t ∈ keywords → Boundary rest

/-- A class whose name is written right behind the keyword. -/
def gluedClass : String := "classFoo\nend\n"

/-- The glued class is accepted. -/
theorem not_keywordsEnd : ¬ KeywordsEnd := by
  intro h
  have haccepted : (parse gluedClass "a.rbs").toOption.isSome = true := by decide +kernel
  cases hparse : parse gluedClass "a.rbs" with
  | error f => rw [hparse] at haccepted; cases haccepted
  | ok ds =>
    have htaken : TakenAt "a.rbs" gluedClass {} classWord "class".toList "Foo\nend\n".toList := by
      have hword : Accepts 0 classWord := by
        show (action? 0 classWord).isSome = true
        decide +kernel
      have hname : ¬ Accepts 0 lowerName := by
        show ¬ (action? 0 lowerName).isSome = true
        decide +kernel
      refine ⟨⟨[], .refl {} _⟩, ?_⟩
      rw [Progress.lexicon]
      exact next?_bare (by decide) rfl hword hname _
    exact absurd (h _ _ ds hparse {} _ _ _ htaken (by decide) 'F' _ rfl) (by decide)

end RbsSynth.Signature
