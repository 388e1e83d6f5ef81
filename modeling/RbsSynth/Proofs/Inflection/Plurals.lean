import RbsSynth.Proofs.Inflection.Undoing

/-!
# What is got back from a plural

The rules from many to one are no inverse of those from one to many, which of two words leave the same
ending: from `cookies` they find `cooky`.  The words that are lost so can be told by their ending:

    singularize (pluralize w) = w  ↔  ¬ Lost w                                (singularize_pluralize_iff)

The rule on `oxen` looks at the start of a word, which is why words that start so stand apart.
-/

namespace RbsSynth.Inflection

/-! ## The words that are lost -/

def EndsInOne (endings : List String) (w : List Char) : Prop := ∃ s ∈ endings, s.toList <:+ w

instance (endings : List String) : DecidablePred (EndsInOne endings) := fun w =>
  inferInstanceAs (Decidable (∃ s ∈ endings, s.toList <:+ w))

/-- Whether an ending has a letter before it, and none of some. -/
def EndsBehindOther (cs : List Char) (ending : String) (w : List Char) : Prop :=
  ∃ c ∈ w, c ∉ cs ∧ c :: ending.toList <:+ w

instance (cs : List Char) (ending : String) : DecidablePred (EndsBehindOther cs ending) := fun w =>
  List.decidableBEx (fun c => c ∉ cs ∧ c :: ending.toList <:+ w) w

/-- Words that are lost though their ending is not. -/
def lostWords : List String := ["ax", "axi", "jean", "specy", "zomby", "mofe"]

/-- Words that have a plural of their own, and are not lost with their ending. -/
def keptWords : List String := ["zombie", "move"]

/-- Endings that are not lost, while shorter ones are. -/
def keptEndings : List String :=
  ["database", "shoe", "movie", "tive", "hive", "crisis", "analysis", "basis", "diagnosis", "prognosis",
    "synopsis", "thesis"]

def lostEndings : List String :=
  ["matrex", "vertix", "indix", "quizze", "matrice", "vertice", "indice", "aliase", "statuse", "statu",
    "octopu", "viru", "crisi", "crise", "testi", "teste", "oe", "buse", "bu", "xe", "che", "sse", "she",
    "movy", "sery", "lfe", "rfe", "tife", "hife", "sis", "analyse", "analysi", "base", "basi", "diagnose",
    "diagnosi", "prognose", "prognosi", "synopse", "synopsi", "these", "thesi", "new", "quie"]

/-- The endings with which words that start as `oxen` does are not lost. -/
def oxenEndings : List String := ["database", "quiz", "matrix", "vertex", "index"]

/-- The words that are not got back from their plural. -/
def Lost (w : List Char) : Prop :=
  if "oxen".toList <+: w then ¬ EndsInOne oxenEndings w
  else (∃ s ∈ lostWords, s.toList = w) ∨ (∀ s ∈ keptWords, s.toList ≠ w) ∧
    ("databasis".toList <:+ w ∨ ¬ EndsInOne keptEndings w ∧
      (EndsInOne lostEndings w ∨ EndsBehindOther ['a', 'e', 'i', 'o', 'u', 'y'] "ie" w ∨
        EndsBehindOther ['f'] "ve" w))

instance : DecidablePred Lost := fun _ => inferInstanceAs (Decidable (ite _ _ _))

/-! ## What is said of words, rule by rule -/

variable {α : Type}

/-- What is said of some words, or of all that end so. -/
def verdicts (whole : Bool) (ss : List String) (said : α) : List (Pending α) :=
  ss.map fun s => ⟨whole, (letters s).reverse, said⟩

def lostRules : List (Pending Bool) :=
  verdicts true lostWords true ++ verdicts true keptWords false ++ verdicts false ["databasis"] true ++
    verdicts false keptEndings false ++ verdicts false lostEndings true ++
    [⟨false, (letters "ie").reverse ++ [.noneOf ['a', 'e', 'i', 'o', 'u', 'y']], true⟩,
      ⟨false, (letters "ve").reverse ++ [.noneOf ['f']], true⟩]

def lostOxenRules : List (Pending Bool) := verdicts false oxenEndings false ++ [⟨false, [], true⟩]

theorem ends_iff {s : String} {w : List Char} (hw : IsSmall w) :
    fits (letters s).reverse w.reverse = true ↔ s.toList <:+ w := by
  rw [fits_reverse_iff]
  constructor
  · rintro ⟨front, cs, rfl, hcs⟩
    have hsmall : IsSmall cs := fun c hc => hw c (List.mem_append_right _ hc)
    rw [(standFor_letters hsmall).mp hcs]
    exact List.suffix_append front s.toList
  · rintro ⟨front, rfl⟩
    have hsmall : IsSmall s.toList := fun c hc => hw c (List.mem_append_right _ hc)
    exact ⟨front, s.toList, rfl, (standFor_letters hsmall).mpr rfl⟩

theorem endsBehindOther_iff {cs : List Char} {ending : String} {w : List Char} (hw : IsSmall w) :
    fits ((letters ending).reverse ++ [.noneOf cs]) w.reverse = true ↔ EndsBehindOther cs ending w := by
  rw [← List.reverse_cons, fits_reverse_iff]
  constructor
  · rintro ⟨front, ds, rfl, hds⟩
    obtain ⟨c, es, hc, hes, rfl⟩ := List.forall₂_cons_left_iff.mp hds
    have hsmall : IsSmall (c :: es) := fun a ha => hw a (List.mem_append_right _ ha)
    have hcs : c ∉ cs := by
      simpa [Letter.admits, toLower_of_isLower (hsmall c List.mem_cons_self)] using hc
    rw [(standFor_letters fun a ha => hsmall a (List.mem_cons_of_mem c ha)).mp hes]
    exact ⟨c, List.mem_append_right _ List.mem_cons_self, hcs, List.suffix_append front _⟩
  · rintro ⟨c, hc, hcs, front, rfl⟩
    have hsmall : IsSmall ending.toList := fun a ha =>
      hw a (List.mem_append_right _ (List.mem_cons_of_mem c ha))
    refine ⟨front, c :: ending.toList, rfl, .cons ?_ ((standFor_letters hsmall).mpr rfl)⟩
    simpa [Letter.admits, toLower_of_isLower (hw c hc)] using hcs

theorem isWhole_iff {s : String} {said : α} {w : List Char} (hw : IsSmall w) :
    (Pending.mk true (letters s).reverse said).meets w.reverse = true ↔ s.toList = w := by
  rw [Pending.meets, Bool.and_eq_true, ends_iff hw]
  simp only [Bool.not_true, Bool.false_or, beq_iff_eq, letters, List.length_reverse, List.length_map]
  constructor
  · rintro ⟨hends, hlen⟩
    exact hends.eq_of_length hlen
  · rintro rfl
    exact ⟨List.suffix_rfl, rfl⟩

/-- What is said of a word is said by the first that fits it, of a list that says the same of all. -/
theorem first_verdicts {P : String → Prop} [DecidablePred P] {whole : Bool} {said : α} {w : List Char}
    (hP : ∀ s, (Pending.mk whole (letters s).reverse said).meets w.reverse = true ↔ P s) (ss : List String) :
    first? (verdicts whole ss said) w.reverse = if ∃ s ∈ ss, P s then some said else none := by
  induction ss with
  | nil => simp [verdicts, first?]
  | cons s ss ih =>
    rw [verdicts, List.map_cons]
    by_cases h : P s
    · rw [first_cons_of_meets ((hP s).mpr h), if_pos ⟨s, List.mem_cons_self, h⟩]
    · rw [first_cons_of_not (Bool.eq_false_iff.mpr (mt (hP s).mp h))]
      refine ih.trans ?_
      simp [h]

theorem first_endings (ss : List String) (said : α) {w : List Char} (hw : IsSmall w) :
    first? (verdicts false ss said) w.reverse = if EndsInOne ss w then some said else none := by
  refine (first_verdicts (P := fun s => s.toList <:+ w) (fun s => ?_) ss).trans (by rfl)
  rw [Pending.meets, Bool.not_false, Bool.true_or, Bool.and_true, ends_iff hw]

theorem first_words (ss : List String) (said : α) {w : List Char} (hw : IsSmall w) :
    first? (verdicts true ss said) w.reverse = if ∃ s ∈ ss, s.toList = w then some said else none :=
  first_verdicts (fun _ => isWhole_iff hw) ss

theorem or_lost {P : Prop} [Decidable P] {o : Option Bool} :
    (if P then some true else none).or o = some true ↔ P ∨ o = some true := by
  by_cases h : P <;> simp [h]

theorem or_kept {P : Prop} [Decidable P] {o : Option Bool} :
    (if P then some false else none).or o = some true ↔ ¬ P ∧ o = some true := by
  by_cases h : P <;> simp [h]

theorem first_lostRules {w : List Char} (hw : IsSmall w) (hoxen : ¬ "oxen".toList <+: w) :
    first? lostRules w.reverse = some true ↔ Lost w := by
  have hclass : first? [⟨false, (letters "ie").reverse ++ [.noneOf ['a', 'e', 'i', 'o', 'u', 'y']], true⟩,
      ⟨false, (letters "ve").reverse ++ [.noneOf ['f']], true⟩] w.reverse = some true
      ↔ EndsBehindOther ['a', 'e', 'i', 'o', 'u', 'y'] "ie" w ∨ EndsBehindOther ['f'] "ve" w := by
    rw [← endsBehindOther_iff hw, ← endsBehindOther_iff hw]
    simp only [first?, List.find?, Pending.meets, Bool.not_false, Bool.true_or, Bool.and_true]
    cases fits ((letters "ie").reverse ++ [.noneOf ['a', 'e', 'i', 'o', 'u', 'y']]) w.reverse <;>
      cases fits ((letters "ve").reverse ++ [.noneOf ['f']]) w.reverse <;> simp
  have hone : EndsInOne ["databasis"] w ↔ "databasis".toList <:+ w := by simp [EndsInOne]
  have hkept : (¬ ∃ s ∈ keptWords, s.toList = w) ↔ ∀ s ∈ keptWords, s.toList ≠ w := by
    rw [not_exists]
    exact forall_congr' fun s => not_and
  simp only [lostRules, List.append_assoc]
  rw [first_append, first_append, first_append, first_append, first_append, first_words _ _ hw,
    first_words _ _ hw, first_endings _ _ hw, first_endings _ _ hw, first_endings _ _ hw, or_lost, or_kept,
    or_lost, or_kept, or_lost, hclass, hone, hkept, Lost, if_neg hoxen]

theorem first_lostOxenRules {w : List Char} (hw : IsSmall w) (hoxen : "oxen".toList <+: w) :
    first? lostOxenRules w.reverse = some true ↔ Lost w := by
  have hall : first? [(⟨false, [], true⟩ : Pending Bool)] w.reverse = some true :=
    first_always true [] w.reverse
  rw [lostOxenRules, first_append, first_endings _ _ hw, or_kept, Lost, if_pos hoxen]
  exact and_iff_left hall

/-! ## The rules -/

/-- All that is done from one to many. -/
def manyRules : List Ending := wordRules manyPairs ++ plurals

/-- The rule that looks at the start of a word. -/
def oxenRule : Ending := ⟨.atStart, letters "ox", letters "en", ""⟩

theorem singulars_split : singulars = singulars.take 5 ++ oxenRule :: singulars.drop 6 := rfl

/-- All that is done from many to one, if a word is not a longer one than `oxen` that starts so. -/
def oneRules : List Ending :=
  wordRules onePairs ++ (singulars.take 5 ++ Ending.whole "" "oxen" "ox" :: singulars.drop 6)

/-- What the tables of rules are checked for. -/
structure RulesChecked : Prop where
  manyClear : ∀ p ∈ manyRules, p.IsClear
  oneClear : ∀ s ∈ oneRules, s.IsClear
  undone : rulesUndone oneRules lostRules [] manyRules = true
  undoneOxen : rulesUndone (singulars.take 5) lostOxenRules [] manyRules = true

theorem rulesChecked : RulesChecked := by
  -- in one go, for which the rules are spelled out only once
  have h : ((∀ p ∈ manyRules, p.IsClear) ∧ ∀ s ∈ oneRules, s.IsClear) ∧
      rulesUndone oneRules lostRules [] manyRules = true ∧
      rulesUndone (singulars.take 5) lostOxenRules [] manyRules = true := by decide +kernel
  exact ⟨h.1.1, h.1.2, h.2.1, h.2.2⟩

/-! ## What a plural is made of -/

theorem pluralize_cases {w : List Char} (hw : IsSmall w) (hne : pluralize w ≠ w) :
    (∃ p ∈ manyPairs, p.1.toList = w ∧ pluralize w = p.2.toList) ∨
      ∃ e ∈ plurals, ∃ front gone, Changes e front gone [] ∧ w = front ++ gone
        ∧ pluralize w = front ++ e.added.toList := by
  cases hmany : pluralize? w with
  | none => exact absurd (by rw [pluralize, hmany, Option.getD_none]) hne
  | some q =>
    obtain ⟨tail, hq, -, hcases⟩ := exists_of_inflect hmany
    rw [lastWord_small hw] at hq hcases
    rw [pluralize, hmany, Option.getD_some, hq, List.nil_append]
    rcases hcases with ⟨p, hp, hone, htail⟩ | ⟨e, he, happly⟩
    · rw [hw.map_toLower] at hone
      rw [matchCase_small hw] at htail
      exact .inl ⟨p, hp, hone, htail⟩
    · obtain ⟨front, gone, back, hchanges, rfl, htail⟩ := Changes.of_apply happly
      have hplace : ∀ e ∈ plurals, e.place ≠ .atStart := by decide
      obtain rfl := hchanges.back (hplace e he)
      rw [List.append_nil] at htail ⊢
      exact .inr ⟨e, he, front, gone, hchanges, rfl, htail⟩

theorem small_pluralize {w : List Char} (hw : IsSmall w) (hne : pluralize w ≠ w) : IsSmall (pluralize w) := by
  rcases pluralize_cases hw hne with ⟨p, hp, -, hmany⟩ | ⟨e, he, front, gone, -, rfl, hmany⟩
  · have hall : ∀ p ∈ manyPairs, IsSmall p.2.toList := by decide
    exact hmany ▸ hall p hp
  · have hall : ∀ e ∈ plurals, IsSmall e.added.toList := by decide
    rw [hmany]
    exact List.forall_mem_append.mpr ⟨fun c hc => hw c (List.mem_append_left _ hc), hall e he⟩

theorem reverse_pluralize {w : List Char} (hw : IsSmall w) (hne : pluralize w ≠ w) :
    (pluralize w).reverse = changed manyRules w.reverse := by
  have hnil : w ≠ [] := by
    rintro rfl
    exact hne rfl
  have heq : pluralize w = (applyFirst? manyRules w).getD w := inflect_eq hw fun h => absurd h hnil
  rw [heq, applyFirst_reverse fun p hp => (rulesChecked.manyClear p hp).atEnd]

theorem singularize_eq {q : List Char} (hq : IsSmall q) :
    singularize q = (applyFirst? (wordRules onePairs ++ singulars) q).getD q := by
  refine inflect_eq hq ?_
  rintro rfl
  decide

/-! ## Words that start as `oxen` does -/

/-- The start of two texts put together is that of the first, if its last letter is not in the second. -/
theorem oxen_of_append {front back : List Char} (h : "oxen".toList <+: front ++ back) (hn : 'n' ∉ back) :
    "oxen".toList <+: front := by
  by_cases hlen : 4 ≤ front.length
  · exact List.prefix_of_prefix_length_le h (List.prefix_append front back) hlen
  · obtain ⟨t, ht⟩ := h
    have hget : (front ++ back)[3]? = some 'n' := by
      rw [← ht]
      rfl
    rw [List.getElem?_append_right (by omega)] at hget
    exact absurd (List.mem_of_getElem? hget) hn

/-- Only `ox` gets an `n`. -/
theorem plurals_letters : ∀ e ∈ plurals, (∀ l ∈ e.dropped, l.admits 'n' = false) ∧
    ('n' ∈ e.added.toList → e.place = .whole ∧ e.kept.length = 2 ∧ e.added.toList.length = 2) := by decide

theorem pluralize_long {w : List Char} (hw : IsSmall w) (hne : pluralize w ≠ w) (h : "oxen".toList <+: w) :
    ∃ s t, w = "oxen".toList ++ s ∧ pluralize w = "oxen".toList ++ t ∧ t.count 'n' ≤ s.count 'n' := by
  rcases pluralize_cases hw hne with ⟨p, hp, rfl, -⟩ | ⟨e, he, front, gone, hchanges, rfl, hmany⟩
  · have hall : ∀ p ∈ manyPairs, ¬ "oxen".toList <+: p.1.toList := by decide
    exact absurd h (hall p hp)
  · obtain ⟨hdropped, hadded⟩ := plurals_letters e he
    have hgone : 'n' ∉ gone := fun hn => by
      obtain ⟨l, hl, hln⟩ := hchanges.dropped.exists_letter hn
      exact absurd hln (Bool.eq_false_iff.mp (hdropped l hl))
    obtain ⟨m, rfl⟩ := oxen_of_append h hgone
    have hnone : 'n' ∉ e.added.toList := fun hn => by
      obtain ⟨hplace, hkept, -⟩ := hadded hn
      have hlen := hchanges.whole hplace
      rw [hkept, List.length_append, show "oxen".toList.length = 4 from rfl] at hlen
      omega
    refine ⟨m ++ gone, m ++ e.added.toList, List.append_assoc _ _ _, by rw [hmany, List.append_assoc], ?_⟩
    rw [List.count_append, List.count_append, List.count_eq_zero_of_not_mem hnone]
    omega

theorem pluralize_short {w : List Char} (hw : IsSmall w) (hne : pluralize w ≠ w) (h : ¬ "oxen".toList <+: w)
    (hmany : "oxen".toList <+: pluralize w) : "oxen".toList = pluralize w := by
  rcases pluralize_cases hw hne with ⟨p, hp, rfl, hq⟩ | ⟨e, he, front, gone, hchanges, rfl, hq⟩
  · have hall : ∀ p ∈ manyPairs, ¬ "oxen".toList <+: p.2.toList := by decide
    exact absurd (hq ▸ hmany) (hall p hp)
  · by_cases hn : 'n' ∈ e.added.toList
    · obtain ⟨hplace, hkept, hadded⟩ := (plurals_letters e he).2 hn
      refine hmany.eq_of_length ?_
      rw [hq, List.length_append, hchanges.whole hplace, hkept, hadded]
      rfl
    · rw [hq] at hmany
      exact absurd ((oxen_of_append hmany hn).trans (List.prefix_append front gone)) h

theorem oxenRule_long (t : List Char) : oxenRule.apply? ("oxen".toList ++ t) = some ("ox".toList ++ t) := rfl

theorem oxen_of_apply {q r : List Char} (hq : IsSmall q) (h : oxenRule.apply? q = some r) :
    "oxen".toList <+: q := by
  have hfits : fits ("oxen".toList.map .one) q = true := (Option.ite_none_right_eq_some.mp h).1
  obtain ⟨cs, rest, rfl, hcs⟩ := fits_iff.mp hfits
  rw [(standFor_letters fun c hc => hq c (List.mem_append_left _ hc)).mp hcs]
  exact List.prefix_append _ rest

/-- Where the rule applies at all it makes a shorter word, which is none that had such a plural. -/
theorem back_of_long {w : List Char} (hw : IsSmall w) (hne : pluralize w ≠ w) (h : "oxen".toList <+: w) :
    singularize (pluralize w) = w ↔
      (applyFirst? (singulars.take 5) (pluralize w)).getD (pluralize w) = w := by
  have hsmall := small_pluralize hw hne
  obtain ⟨s, t, rfl, hq, hcount⟩ := pluralize_long hw hne h
  rw [singularize_eq hsmall]
  rw [hq] at hne hsmall ⊢
  have hwords : applyFirst? (wordRules onePairs) ("oxen".toList ++ t) = none := by
    rw [wordRules, applyFirst_wordRules _ hsmall, Option.map_eq_none_iff, List.find?_eq_none]
    have hall : ∀ p ∈ uncountables.map (fun word => (word, word)) ++ onePairs,
        ¬ "oxen".toList <+: p.1.toList := by decide
    intro p hp hsame
    exact hall p hp (beq_iff_eq.mp hsame ▸ List.prefix_append _ t)
  rw [applyFirst_append, hwords, Option.none_or, singulars_split, applyFirst_append, ← singulars_split,
    applyFirst?, oxenRule_long]
  cases applyFirst? (singulars.take 5) ("oxen".toList ++ t) with
  | some _ => rfl
  | none =>
    refine iff_of_false (fun hback => ?_) hne
    have hcounts := congrArg (List.count 'n') hback
    have h1 : "oxen".toList.count 'n' = 1 := by decide
    have h0 : "ox".toList.count 'n' = 0 := by decide
    rw [Option.none_or, Option.getD_some, List.count_append, List.count_append, h0, h1] at hcounts
    omega

theorem applyFirst_oneRules {q : List Char} (hq : IsSmall q) (h : "oxen".toList <+: q → "oxen".toList = q) :
    applyFirst? (wordRules onePairs ++ singulars) q = applyFirst? oneRules q := by
  have hrule : oxenRule.apply? q = Ending.apply? (.whole "" "oxen" "ox") q := by
    rw [apply_whole "oxen" "ox" hq]
    by_cases hoxen : "oxen".toList <+: q
    · rw [if_pos (h hoxen), ← h hoxen]
      exact oxenRule_long []
    · have hother : "oxen".toList ≠ q := fun he => hoxen (he ▸ List.prefix_rfl)
      rw [if_neg hother, Option.eq_none_iff_forall_ne_some]
      exact fun r happly => hoxen (oxen_of_apply hq happly)
  rw [oneRules, applyFirst_append, applyFirst_append, singulars_split, applyFirst_append,
    applyFirst_append _ (_ :: _), applyFirst?, applyFirst?, hrule, ← singulars_split]

/-- **From their plural just those words are got back that are not lost.** -/
theorem singularize_pluralize_iff {w : List Char} (hw : IsSmall w) (hne : pluralize w ≠ w) :
    singularize (pluralize w) = w ↔ ¬ Lost w := by
  have hsmall := small_pluralize hw hne
  have hmany := reverse_pluralize hw hne
  have hreverse : IsSmall w.reverse := fun c hc => hw c (List.mem_reverse.mp hc)
  have hchanged : changed manyRules w.reverse ≠ w.reverse := by
    rw [← hmany]
    exact fun h => hne (List.reverse_injective h)
  by_cases hoxen : "oxen".toList <+: w
  · have hclear : ∀ s ∈ singulars.take 5, s.IsClear := fun s hs =>
      rulesChecked.oneClear s (List.mem_append_right _ (List.mem_append_left _ hs))
    rw [back_of_long hw hne hoxen, ← List.reverse_inj, applyFirst_reverse fun s hs => (hclear s hs).atEnd,
      hmany, changed_back rulesChecked.manyClear hclear rulesChecked.undoneOxen hreverse hchanged,
      Ne, first_lostOxenRules hw hoxen]
  · rw [singularize_eq hsmall, applyFirst_oneRules hsmall fun h => pluralize_short hw hne hoxen h,
      ← List.reverse_inj, applyFirst_reverse fun s hs => (rulesChecked.oneClear s hs).atEnd, hmany,
      changed_back rulesChecked.manyClear rulesChecked.oneClear rulesChecked.undone hreverse hchanged,
      Ne, first_lostRules hw hoxen]

theorem singularize_pluralize_analysis :
    singularize (pluralize "analysis".toList) = "analysis".toList ∧
      singularize (pluralize "cookie".toList) ≠ "cookie".toList := by
  have hplural : pluralize "analysis".toList ≠ "analysis".toList ∧
      pluralize "cookie".toList ≠ "cookie".toList := by decide +kernel
  constructor
  · exact (singularize_pluralize_iff (by decide) hplural.1).mpr (by decide)
  · exact fun h => (singularize_pluralize_iff (by decide) hplural.2).mp h (by decide)

theorem not_singularize_pluralize :
    ¬ ∀ w, IsSmall w → pluralize w ≠ w → singularize (pluralize w) = w := by
  intro h
  have hcookie : pluralize "cookie".toList ≠ "cookie".toList ∧
      singularize (pluralize "cookie".toList) ≠ "cookie".toList := by decide +kernel
  exact hcookie.2 (h "cookie".toList (by decide) hcookie.1)

end RbsSynth.Inflection
