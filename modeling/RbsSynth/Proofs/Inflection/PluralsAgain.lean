import RbsSynth.Proofs.Inflection.Plurals

/-!
# Plurals of plurals

Most plurals are left alone, but not all: the rules add an `s` to `zebu`, and to `zebus` they add `es`.  And a word
that has a plural of its own gets it in small letters.  The words that this happens to can be told by their last
letters:

    pluralize (pluralize w) = pluralize w  ↔  ¬ Unsettled (lastWord w).2                  (pluralize_pluralize_iff)

What the rules do again to what a rule has made does not depend on the case of the letters, up to the letters that
stay as they are written.  So a finite check answers it for all words, as for the way back from a plural.
-/

namespace RbsSynth.Inflection

/-! ## The words that have another plural of their plural -/

/-- Endings with which the plural of a word looks like a word for one. -/
def turnedEndings : List String := ["si", "bu", "statu", "octopu", "viru"]

def turnedWords : List String := ["axi", "testi"]

/-- Words with a plural that is one of another word, and how many of their letters it keeps. -/
def casedWords : List (String × Nat) := [("sexe", 4), ("zomby", 4), ("mofe", 2)]

/-- The words with a plural that is changed again: by a rule, or because behind its first letter there is a capital,
which a plural that is paired with a word does not have. -/
def Unsettled (t : List Char) : Prop :=
  EndsInOne turnedEndings (t.map Char.toLower) ∨ (∃ s ∈ turnedWords, s.toList = t.map Char.toLower) ∨
    ∃ p ∈ casedWords, p.1.toList = t.map Char.toLower ∧ ((t.take p.2).drop 1).any Char.isUpper = true

instance : DecidablePred Unsettled := fun _ => inferInstanceAs (Decidable (_ ∨ _ ∨ _))

/-! ## Letters in any case -/

def IsLetters (t : List Char) : Prop := ∀ c ∈ t, c.isAlpha = true

theorem toLower_of_not_isUpper {c : Char} (h : c.isUpper = false) : c.toLower = c := by
  refine dif_neg ?_
  intro hrange
  exact Bool.false_ne_true (h.symm.trans (decide_eq_true hrange))

theorem isLower_toLower {c : Char} : c.toLower.isLower = true ↔ c.isAlpha = true := by
  have halpha : c.isAlpha = (c.isUpper || c.isLower) := rfl
  cases hc : c.isUpper with
  | true =>
    have hall : ∀ c ∈ Signature.lettersFrom 65 26, c.toLower.isLower = true := by decide
    rw [halpha, hc, Bool.true_or]
    exact iff_of_true (hall c (Signature.mem_of_isUpper hc)) rfl
  | false => rw [toLower_of_not_isUpper hc, halpha, hc, Bool.false_or]

theorem toLower_eq_self_iff {c : Char} : c.toLower = c ↔ c.isUpper = false := by
  constructor
  · intro h
    cases hc : c.isUpper with
    | true =>
      have hall : ∀ c ∈ Signature.lettersFrom 65 26, c.toLower ≠ c := by decide
      exact absurd h (hall c (Signature.mem_of_isUpper hc))
    | false => rfl
  · exact toLower_of_not_isUpper

theorem toLower_toLower (c : Char) : c.toLower.toLower = c.toLower := by
  cases hc : c.isUpper with
  | true =>
    have hall : ∀ c ∈ Signature.lettersFrom 65 26, c.toLower.toLower = c.toLower := by decide
    exact hall c (Signature.mem_of_isUpper hc)
  | false => rw [toLower_of_not_isUpper hc, toLower_of_not_isUpper hc]

theorem small_toLower_iff {t : List Char} : IsSmall (t.map Char.toLower) ↔ IsLetters t := by
  rw [IsSmall, List.forall_mem_map]
  exact forall₂_congr fun c _ => isLower_toLower

theorem IsLetters.small {t : List Char} (h : IsLetters t) : IsSmall (t.map Char.toLower) :=
  small_toLower_iff.mpr h

theorem IsLetters.small_reverse {t : List Char} (h : IsLetters t) : IsSmall (t.reverse.map Char.toLower) :=
  small_toLower_iff.mpr fun c hc => h c (List.mem_reverse.mp hc)

theorem Letter.admits_toLower (l : Letter) (c : Char) : l.admits c.toLower = l.admits c := by
  cases l <;> simp only [admits, toLower_toLower]

theorem fits_toLower (ls : List Letter) (t : List Char) : fits ls (t.map Char.toLower) = fits ls t := by
  induction ls generalizing t with
  | nil => cases t <;> rfl
  | cons l ls ih =>
    cases t with
    | nil => rfl
    | cons c t => rw [List.map_cons, fits, fits, l.admits_toLower, ih]

variable {α : Type}

theorem Pending.meets_toLower (p : Pending α) (u : List Char) : p.meets (u.map Char.toLower) = p.meets u := by
  rw [meets, meets, fits_toLower, List.length_map]

/-- Which rule fits does not depend on the case of the letters. -/
theorem first_toLower (ps : List (Pending α)) (u : List Char) :
    first? ps (u.map Char.toLower) = first? ps u := by
  simp only [first?, Pending.meets_toLower]

theorem Ending.IsClear.rewrite_toLower {e : Ending} (he : e.IsClear) (u : List Char) :
    (e.rewrite u).map Char.toLower = e.rewrite (u.map Char.toLower) := by
  have hnew : IsSmall e.new := fun c hc => he.added c (List.mem_reverse.mp hc)
  rw [Ending.rewrite, Ending.rewrite, List.map_append, hnew.map_toLower, List.map_drop]

/-! ## What is done to a last word -/

/-- What becomes of a word: it stays, or gets the plural that it is paired with, or is changed by a rule. -/
inductive Step
  | stays
  | paired (other : String)
  | ruled (e : Ending)

/-- The plural, if it is another word or one that is written again. -/
def Step.made? : Step → List Char → Option (List Char)
  | stays, _ => none
  | paired other, t => some (matchCase t other.toList)
  | ruled e, t => some (e.rewrite t.reverse).reverse

def wordSteps : List (Pending Step) :=
  verdicts true uncountables .stays ++ manyPairs.map fun p => ⟨true, (letters p.1).reverse, .paired p.2⟩

def ruleSteps (es : List Ending) : List (Pending Step) := (es.map Ending.pending).map (Pending.map .ruled)

/-- All that is done from one to many. -/
def manySteps : List (Pending Step) := wordSteps ++ ruleSteps plurals

/-- The plural of a word that consists of letters. -/
def manyOf (t : List Char) : List Char := ((first? manySteps t.reverse).bind (·.made? t)).getD t

theorem first_wordSteps {t : List Char} (ht : IsLetters t) : first? wordSteps t.reverse
    = if uncountables.any (·.toList == t.map Char.toLower) then some .stays
      else (manyPairs.find? (·.1.toList == t.map Char.toLower)).map fun p => .paired p.2 := by
  have hpairs : ∀ ps : List (String × String),
      first? (ps.map fun p => ⟨true, (letters p.1).reverse, Step.paired p.2⟩) (t.map Char.toLower).reverse
        = (ps.find? (·.1.toList == t.map Char.toLower)).map fun p => .paired p.2 := by
    intro ps
    induction ps with
    | nil => rfl
    | cons p ps ih =>
      rw [List.map_cons]
      by_cases h : p.1.toList = t.map Char.toLower
      · rw [first_cons_of_meets ((isWhole_iff ht.small).mpr h), List.find?_cons_of_pos (by simpa using h)]
        rfl
      · rw [first_cons_of_not (Bool.eq_false_iff.mpr (mt (isWhole_iff ht.small).mp h)),
          List.find?_cons_of_neg (by simpa using h), ih]
  rw [← first_toLower, List.map_reverse, wordSteps, first_append, first_words _ _ ht.small, hpairs]
  simp only [List.any_eq_true, beq_iff_eq]
  split <;> rfl

theorem pluralize_eq {w : List Char} (h : (lastWord w).2 ≠ []) : pluralize? w
    = ((first? manySteps (lastWord w).2.reverse).bind (·.made? (lastWord w).2)).map ((lastWord w).1 ++ ·) := by
  have hrules : ∀ t : List Char, applyFirst? plurals t
      = (first? (plurals.map Ending.pending) t.reverse).map fun e => (e.rewrite t.reverse).reverse :=
    applyFirst_eq (by decide)
  have hinflect : pluralize? w = inflect? manyPairs plurals w := rfl
  rw [manySteps, first_append, first_wordSteps (isAlpha_lastWord w), ruleSteps, first_map, hinflect, inflect?]
  simp only [List.isEmpty_eq_false_iff.mpr h, Bool.false_or]
  by_cases hany : uncountables.any (·.toList == (lastWord w).2.map Char.toLower) = true
  · rw [if_pos hany, if_pos hany]
    rfl
  · rw [if_neg hany, if_neg hany]
    cases manyPairs.find? (·.1.toList == (lastWord w).2.map Char.toLower) with
    | some p => rfl
    | none =>
      rw [hrules]
      cases first? (plurals.map Ending.pending) (lastWord w).2.reverse <;> rfl

/-! ## What is done to a plural -/

/-- What becomes of a plural. -/
inductive Fate
  | stays | turns | byCase | unknown
  deriving DecidableEq

/-- The same by the rule that has made it, and by what is done then. -/
def fate (p : Ending) : Step → Fate
  | .stays => .stays
  | .paired _ => .byCase
  | .ruled q => if q.new ≠ q.gone then .turns else if q.gone.length ≤ p.new.length then .stays else .unknown

theorem new_ne_of_fate {p q : Ending} (h : fate p (.ruled q) = .turns) : q.new ≠ q.gone := by
  intro hsame
  rw [fate, if_neg (not_not.mpr hsame)] at h
  split at h <;> cases h

theorem new_eq_of_fate {p q : Ending} (h : fate p (.ruled q) = .stays) :
    q.new = q.gone ∧ q.gone.length ≤ p.new.length := by
  rw [fate] at h
  by_cases hsame : q.new = q.gone
  · rw [if_neg (not_not.mpr hsame)] at h
    by_cases hlen : q.gone.length ≤ p.new.length
    · exact ⟨hsame, hlen⟩
    · rw [if_neg hlen] at h
      cases h
  · rw [if_pos hsame] at h
    cases h

/-- What is said of words, for which those that nothing is said of have a plural that stays. -/
def saidRules : List (Pending Fate) :=
  verdicts true (casedWords.map (·.1)) .byCase ++ verdicts true turnedWords .turns ++
    verdicts false turnedEndings .turns

theorem plurals_judged : eachBehind (fun es p =>
    ruleJudged fate .unknown .stays manySteps saidRules (wordSteps ++ ruleSteps es) p) [] plurals = true := by
  decide +kernel

theorem plurals_clear {e : Ending} (he : e ∈ plurals) : e.IsClear :=
  rulesChecked.manyClear e (List.mem_append_right _ he)

theorem Ending.IsClear.small_rewrite {e : Ending} (he : e.IsClear) {u : List Char}
    (hu : IsSmall (u.map Char.toLower)) : IsSmall ((e.rewrite u).map Char.toLower) := by
  rw [he.rewrite_toLower, Ending.rewrite]
  exact List.forall_mem_append.mpr ⟨fun c hc => he.added c (List.mem_reverse.mp hc),
    fun c hc => hu c (List.mem_of_mem_drop hc)⟩

/-- What a word is taken for: one that stays, one of a pair, or one for the first rule that fits. -/
theorem manySteps_cases {t : List Char} (ht : IsLetters t) {s : Step} (h : first? manySteps t.reverse = some s) :
    (s = .stays ∧ ∃ word ∈ uncountables, word.toList = t.map Char.toLower) ∨
      (∃ p ∈ manyPairs, p.1.toList = t.map Char.toLower ∧ s = .paired p.2) ∨
      ∃ e earlier later, s = .ruled e ∧ plurals = earlier ++ e :: later ∧ e.pending.meets t.reverse = true ∧
        first? (wordSteps ++ ruleSteps earlier) t.reverse = none := by
  rw [manySteps, first_append] at h
  cases hword : first? wordSteps t.reverse with
  | some s' =>
    rw [hword, Option.some_or] at h
    obtain rfl := Option.some.inj h
    rw [first_wordSteps ht] at hword
    split at hword
    · rename_i hany
      obtain ⟨word, hmem, hsame⟩ := List.any_eq_true.mp hany
      exact .inl ⟨(Option.some.inj hword).symm, word, hmem, beq_iff_eq.mp hsame⟩
    · obtain ⟨p, hp, hpair⟩ := Option.map_eq_some_iff.mp hword
      have hsame : p.1.toList = t.map Char.toLower := by simpa using List.find?_some hp
      exact .inr (.inl ⟨p, List.mem_of_find?_eq_some hp, hsame, hpair.symm⟩)
  | none =>
    rw [hword, Option.none_or, ruleSteps, first_map] at h
    obtain ⟨e, he, hruled⟩ := Option.map_eq_some_iff.mp h
    obtain ⟨earlier, later, hsplit, hmeets, hnone⟩ := exists_of_first he
    refine .inr (.inr ⟨e, earlier, later, hruled.symm, hsplit, hmeets, ?_⟩)
    rw [first_append, hword, Option.none_or, ruleSteps, first_map, hnone, Option.map_none]

theorem exists_of_ruled {t : List Char} (ht : IsLetters t) {p : Ending}
    (h : first? manySteps t.reverse = some (.ruled p)) :
    ∃ earlier later, plurals = earlier ++ p :: later ∧ p.pending.meets t.reverse = true ∧
      first? (wordSteps ++ ruleSteps earlier) t.reverse = none := by
  obtain ⟨hs, -⟩ | ⟨_, _, _, hs⟩ | ⟨e, earlier, later, hs, hrest⟩ := manySteps_cases ht h
  · cases hs
  · cases hs
  · obtain rfl := Step.ruled.inj hs
    exact ⟨earlier, later, hrest⟩

theorem mem_of_ruled {t : List Char} (ht : IsLetters t) {p : Ending}
    (h : first? manySteps t.reverse = some (.ruled p)) : p ∈ plurals := by
  obtain ⟨earlier, later, hsplit, -⟩ := exists_of_ruled ht h
  simp [hsplit]

/-- What is said of a word is done to its plural. -/
theorem fate_of_ruled {t : List Char} (ht : IsLetters t) {p : Ending}
    (h : first? manySteps t.reverse = some (.ruled p)) :
    ((first? manySteps (p.rewrite t.reverse)).map (fate p)).getD .unknown
      = (first? saidRules (t.map Char.toLower).reverse).getD .stays := by
  obtain ⟨earlier, later, hsplit, hmeets, hnone⟩ := exists_of_ruled ht h
  have hp : p.IsClear := plurals_clear (mem_of_ruled ht h)
  have hcheck := eachBehind_sound plurals_judged hsplit
  rw [List.nil_append] at hcheck
  rw [← Pending.meets_toLower] at hmeets
  rw [← first_toLower] at hnone
  rw [← first_toLower manySteps, hp.rewrite_toLower, ← List.map_reverse]
  exact ruleJudged_sound hcheck ht.small_reverse hmeets hnone

/-- A rule that puts back what it takes changes nothing that another one has put there. -/
theorem rewrite_of_stays {p q : Ending} (hp : p.IsClear) (hq : q.IsClear) {u : List Char}
    (hu : IsSmall (u.map Char.toLower)) (hmeets : q.pending.meets (p.rewrite u) = true) (hsame : q.new = q.gone)
    (hlen : q.gone.length ≤ p.new.length) : q.rewrite (p.rewrite u) = p.rewrite u := by
  rw [← q.pending.meets_toLower] at hmeets
  obtain ⟨v, hgone, -⟩ := hq.exists_rest (hp.small_rewrite hu) hmeets
  rw [hp.rewrite_toLower] at hgone
  obtain ⟨r, hr⟩ : q.gone <+: p.new :=
    List.prefix_of_prefix_length_le (hgone ▸ List.prefix_append q.gone v) (List.prefix_append p.new _) hlen
  have hrewrite : p.rewrite u = q.gone ++ (r ++ u.drop p.dropped.length) := by
    rw [Ending.rewrite, ← hr, List.append_assoc]
  rw [hrewrite, Ending.rewrite, hsame, ← hq.gone_length, List.drop_left]

theorem rewrite_of_turns {q : Ending} (hq : q.IsClear) {v : List Char} (hv : IsSmall (v.map Char.toLower))
    (hmeets : q.pending.meets v = true) (hnew : q.new ≠ q.gone) : q.rewrite v ≠ v := by
  intro h
  have hlower := congrArg (List.map Char.toLower) h
  rw [← q.pending.meets_toLower] at hmeets
  obtain ⟨rest, hgone, hrewrite⟩ := hq.exists_rest hv hmeets
  rw [hq.rewrite_toLower, hrewrite, hgone] at hlower
  exact hnew (List.append_cancel_right hlower)

/-! ## Words with a plural of their own -/

/-- A word that is paired with itself in small letters keeps its first letter as it is written, and only that. -/
theorem matchCase_eq_self_iff {t : List Char} :
    matchCase t (t.map Char.toLower) = t ↔ ∀ c ∈ t.drop 1, c.isUpper = false := by
  cases t with
  | nil => exact iff_of_true rfl (List.forall_mem_nil _)
  | cons c cs =>
    have hmatch : matchCase (c :: cs) ((c :: cs).map Char.toLower) = c :: cs.map Char.toLower := by
      rw [List.map_cons, matchCase]
      by_cases hc : c.isUpper = true
      · rw [if_pos hc]
      · rw [if_neg hc, toLower_of_not_isUpper (Bool.eq_false_iff.mpr hc)]
    have hself : cs.map Char.toLower = cs ↔ ∀ c ∈ cs, c.toLower = c := by
      simpa using List.map_inj_left (f := Char.toLower) (g := id) (l := cs)
    rw [hmatch, List.cons_inj_right, hself]
    exact forall₂_congr fun _ _ => toLower_eq_self_iff

theorem matchCase_toLower {t other : List Char} (hfirst : (t.map Char.toLower).head? = other.head?)
    (hother : IsSmall other) : (matchCase t other).map Char.toLower = other := by
  match t, other with
  | [], [] => rfl
  | [], _ :: _ => cases hfirst
  | _ :: _, [] => cases hfirst
  | c :: cs, d :: ds =>
    have hd : c.toLower = d := Option.some.inj hfirst
    obtain ⟨hsmall, hds⟩ := List.forall_mem_cons.mp hother
    rw [matchCase]
    split
    · rw [List.map_cons, hd, IsSmall.map_toLower hds]
    · exact hother.map_toLower

theorem drop_matchCase (t other : List Char) : (matchCase t other).drop 1 = other.drop 1 := by
  cases t with
  | nil => cases other <;> rfl
  | cons c cs =>
    cases other with
    | nil => rfl
    | cons d ds =>
      rw [matchCase]
      split <;> rfl

theorem manyOf_eq {t : List Char} {s : Step} (h : first? manySteps t.reverse = some s) :
    manyOf t = (s.made? t).getD t := by
  rw [manyOf, h, Option.bind_some]

theorem manyOf_eq_self_of_paired {t : List Char} {other : String}
    (h : first? manySteps t.reverse = some (.paired other)) (hother : other.toList = t.map Char.toLower) :
    manyOf t = t ↔ ∀ c ∈ t.drop 1, c.isUpper = false := by
  rw [manyOf_eq h, Step.made?, Option.getD_some, hother, matchCase_eq_self_iff]

/-! ## Which plurals are left alone -/

/-- A default rule fits every word. -/
theorem exists_step (u : List Char) : ∃ s, first? manySteps u = some s :=
  ⟨_, first_default manySteps.dropLast (.ruled (.atEnd "" "" "s")) u⟩

theorem manyOf_of_ruled {t : List Char} {p : Ending} (h : first? manySteps t.reverse = some (.ruled p)) :
    (manyOf t).reverse = p.rewrite t.reverse := by
  rw [manyOf_eq h, Step.made?, Option.getD_some, List.reverse_reverse]

/-- What the words with another one have in common. -/
theorem manyPairs_facts : ∀ p ∈ manyPairs, p.1.toList.head? = p.2.toList.head? ∧ IsSmall p.2.toList ∧
    p.2.toList ≠ [] ∧ first? manySteps p.2.toList.reverse = some (.paired p.2) := by
  have hall : ∀ p ∈ manyPairs, p.1.toList.head? = p.2.toList.head? ∧ IsSmall p.2.toList ∧ p.2.toList ≠ [] ∧
      uncountables.any (·.toList == p.2.toList) = false ∧
      (manyPairs.find? (·.1.toList == p.2.toList)).map (·.2) = some p.2 := by decide
  intro p hp
  obtain ⟨hfirst, hsmall, hne, hcount, hfind⟩ := hall p hp
  refine ⟨hfirst, hsmall, hne, ?_⟩
  obtain ⟨q, hq, hsame⟩ := Option.map_eq_some_iff.mp hfind
  rw [manySteps, first_append, first_wordSteps fun c hc => isAlpha_of_isLower (hsmall c hc), hsmall.map_toLower,
    hcount, if_neg Bool.false_ne_true, hq, Option.map_some, hsame, Option.some_or]

theorem IsLetters.manyOf {t : List Char} (ht : IsLetters t) : IsLetters (manyOf t) := by
  obtain ⟨s, hs⟩ := exists_step t.reverse
  rw [manyOf_eq hs]
  obtain ⟨rfl, -⟩ | ⟨p, hp, hone, rfl⟩ | ⟨e, _, _, rfl, hsplit, -⟩ := manySteps_cases ht hs
  · exact ht
  · obtain ⟨hfirst, hsmall, -⟩ := manyPairs_facts p hp
    rw [hone] at hfirst
    rw [← small_toLower_iff]
    exact (matchCase_toLower hfirst hsmall).symm ▸ hsmall
  · have he : e.IsClear := plurals_clear (by simp [hsplit])
    exact fun c hc => small_toLower_iff.mp (he.small_rewrite ht.small_reverse) c (List.mem_reverse.mp hc)

theorem manyOf_ne_nil {t : List Char} (ht : IsLetters t) (hne : t ≠ []) : manyOf t ≠ [] := by
  obtain ⟨s, hs⟩ := exists_step t.reverse
  rw [manyOf_eq hs]
  obtain ⟨rfl, -⟩ | ⟨p, hp, hone, rfl⟩ | ⟨e, _, _, rfl, hsplit, -⟩ := manySteps_cases ht hs
  · exact hne
  · obtain ⟨hfirst, hsmall, hother, -⟩ := manyPairs_facts p hp
    rw [hone] at hfirst
    intro hnil
    have hlower := matchCase_toLower hfirst hsmall
    rw [show matchCase t p.2.toList = [] from hnil] at hlower
    exact hother hlower.symm
  · -- a rule that adds nothing drops nothing
    have hall : ∀ e ∈ plurals, e.added.toList = [] → e.dropped.length = 0 := by decide
    have he : e ∈ plurals := by simp [hsplit]
    intro hnil
    obtain ⟨hnew, hdrop⟩ := List.append_eq_nil_iff.mp (List.reverse_eq_nil_iff.mp hnil)
    rw [hall e he (List.reverse_eq_nil_iff.mp hnew), List.drop_zero] at hdrop
    exact hne (List.reverse_eq_nil_iff.mp hdrop)

/-- What is said of words that are not told apart by case. -/
theorem said_iff {t : List Char} (ht : IsLetters t) (hcased : ∀ p ∈ casedWords, p.1.toList ≠ t.map Char.toLower) :
    (first? saidRules (t.map Char.toLower).reverse).getD .stays = if Unsettled t then .turns else .stays := by
  have hnone : ¬ ∃ s ∈ casedWords.map (·.1), s.toList = t.map Char.toLower := by
    rintro ⟨s, hs, hsame⟩
    obtain ⟨p, hp, rfl⟩ := List.mem_map.mp hs
    exact hcased p hp hsame
  have hiff : Unsettled t ↔ (∃ s ∈ turnedWords, s.toList = t.map Char.toLower) ∨
      EndsInOne turnedEndings (t.map Char.toLower) := by
    constructor
    · rintro (hends | hword | ⟨p, hp, hsame, -⟩)
      · exact .inr hends
      · exact .inl hword
      · exact absurd hsame (hcased p hp)
    · rintro (hword | hends)
      · exact .inr (.inl hword)
      · exact .inl hends
  rw [saidRules, first_append, first_append, first_words _ _ ht.small, first_words _ _ ht.small,
    first_endings _ _ ht.small, if_neg hnone, Option.none_or]
  by_cases hword : ∃ s ∈ turnedWords, s.toList = t.map Char.toLower
  · rw [if_pos hword, if_pos (hiff.mpr (.inl hword))]
    rfl
  · by_cases hends : EndsInOne turnedEndings (t.map Char.toLower)
    · rw [if_neg hword, if_pos hends, if_pos (hiff.mpr (.inr hends))]
      rfl
    · rw [if_neg hword, if_neg hends, if_neg (mt hiff.mp (not_or.mpr ⟨hword, hends⟩))]
      rfl

theorem manyOf_of_uncased {t : List Char} (ht : IsLetters t) {p : Ending}
    (h : first? manySteps t.reverse = some (.ruled p))
    (hcased : ∀ p ∈ casedWords, p.1.toList ≠ t.map Char.toLower) :
    manyOf (manyOf t) = manyOf t ↔ ¬ Unsettled t := by
  have hletters : IsLetters (manyOf t) := ht.manyOf
  have hp : p.IsClear := plurals_clear (mem_of_ruled ht h)
  have hmany : (manyOf t).reverse = p.rewrite t.reverse := manyOf_of_ruled h
  have hsaid := fate_of_ruled ht h
  obtain ⟨s, hs⟩ := exists_step (manyOf t).reverse
  rw [← hmany, hs, Option.map_some, Option.getD_some, said_iff ht hcased] at hsaid
  rw [manyOf_eq hs]
  obtain ⟨rfl, -⟩ | ⟨q, -, -, rfl⟩ | ⟨q, _, _, rfl, hsplit, hmeets, -⟩ := manySteps_cases hletters hs
  · have hsettled : ¬ Unsettled t := by
      intro hu
      rw [if_pos hu] at hsaid
      cases hsaid
    exact iff_of_true rfl hsettled
  · split at hsaid <;> cases hsaid
  · have hq : q.IsClear := plurals_clear (by simp [hsplit])
    rw [Step.made?, Option.getD_some, List.reverse_eq_iff, hmany]
    rw [hmany] at hmeets
    by_cases hu : Unsettled t
    · rw [if_pos hu] at hsaid
      have hturns := rewrite_of_turns hq (hp.small_rewrite ht.small_reverse) hmeets (new_ne_of_fate hsaid)
      exact iff_of_false hturns (not_not.mpr hu)
    · rw [if_neg hu] at hsaid
      obtain ⟨hsame, hlen⟩ := new_eq_of_fate hsaid
      exact iff_of_true (rewrite_of_stays hp hq ht.small_reverse hmeets hsame hlen) hu

/-- A word gets a plural that is one of another word. -/
structure IsCased (q : String × Nat) (e : Ending) (other : String) : Prop where
  ruled : first? manySteps q.1.toList.reverse = some (.ruled e)
  kept : q.1.toList.length - e.dropped.length = q.2
  added : IsSmall e.added.toList
  many : other.toList = q.1.toList.take q.2 ++ e.added.toList
  paired : first? manySteps other.toList.reverse = some (.paired other)
  bounds : 1 ≤ q.2 ∧ q.2 ≤ q.1.toList.length
  notEnding : ¬ EndsInOne turnedEndings q.1.toList
  notWord : ∀ s ∈ turnedWords, s ≠ q.1

theorem exists_isCased : ∀ q ∈ casedWords, ∃ e other, IsCased q e other := by
  refine List.forall_mem_cons.mpr ⟨?_, List.forall_mem_cons.mpr ⟨?_, List.forall_mem_singleton.mpr ?_⟩⟩
  · exact ⟨.atEnd "" "" "s", "sexes", rfl, rfl, by decide, rfl, rfl, by decide, by decide, by decide⟩
  · exact ⟨.behind (.noneOf ['a', 'e', 'i', 'o', 'u', 'y']) "y" "ies", "zombies", rfl, rfl, by decide, rfl, rfl,
      by decide, by decide, by decide⟩
  · exact ⟨.behind (.noneOf ['f']) "fe" "ves", "moves", rfl, rfl, by decide, rfl, rfl, by decide, by decide,
      by decide⟩

theorem manyOf_of_cased {t : List Char} {q : String × Nat} (hq : q ∈ casedWords)
    (ht : q.1.toList = t.map Char.toLower) : manyOf (manyOf t) = manyOf t ↔ ¬ Unsettled t := by
  obtain ⟨e, other, h⟩ := exists_isCased q hq
  obtain ⟨hpos, hlen⟩ := h.bounds
  have hunsettled : Unsettled t ↔ ((t.take q.2).drop 1).any Char.isUpper = true := by
    have hdistinct : ∀ p ∈ casedWords, ∀ q ∈ casedWords, p.1 = q.1 → p = q := by decide
    rw [Unsettled, ← ht]
    constructor
    · rintro (hends | ⟨s, hs, hsame⟩ | ⟨p, hp, hsame, hupper⟩)
      · exact absurd hends h.notEnding
      · exact absurd (String.toList_inj.mp hsame) (h.notWord s hs)
      · rwa [hdistinct p hp q hq (String.toList_inj.mp hsame)] at hupper
    · intro hupper
      exact .inr (.inr ⟨q, hq, rfl, hupper⟩)
  have htlen : t.length = q.1.toList.length := by rw [ht, List.length_map]
  have hmany : manyOf t = t.take q.2 ++ e.added.toList := by
    have hs : first? manySteps t.reverse = some (.ruled e) := by
      rw [← first_toLower, List.map_reverse, ← ht, h.ruled]
    rw [manyOf_eq hs, Step.made?, Option.getD_some, Ending.rewrite, Ending.new, List.reverse_append,
      List.reverse_reverse, List.drop_reverse, List.reverse_reverse, htlen, h.kept]
  have hlower : (manyOf t).map Char.toLower = other.toList := by
    rw [hmany, List.map_append, List.map_take, ← ht, h.added.map_toLower, h.many]
  have hsecond : first? manySteps (manyOf t).reverse = some (.paired other) := by
    rw [← first_toLower, List.map_reverse, hlower, h.paired]
  rw [manyOf_eq_self_of_paired hsecond hlower.symm, hunsettled, hmany,
    List.drop_append_of_le_length (by rw [List.length_take]; omega), List.any_eq_true]
  constructor
  · rintro hsmall ⟨c, hc, hupper⟩
    rw [hsmall c (List.mem_append_left _ hc)] at hupper
    cases hupper
  · intro hnone
    refine List.forall_mem_append.mpr ⟨fun c hc => ?_, fun c hc => not_isUpper_of_isLower (h.added c hc)⟩
    exact Bool.eq_false_iff.mpr fun hupper => hnone ⟨c, hc, hupper⟩

theorem manyOf_of_paired {t : List Char} {p : String × String} (hp : p ∈ manyPairs)
    (hone : p.1.toList = t.map Char.toLower) (h : first? manySteps t.reverse = some (.paired p.2)) :
    manyOf (manyOf t) = manyOf t := by
  obtain ⟨hfirst, hsmall, -, hstep⟩ := manyPairs_facts p hp
  rw [hone] at hfirst
  have hlower := matchCase_toLower hfirst hsmall
  rw [manyOf_eq h, Step.made?, Option.getD_some]
  have hagain : first? manySteps (matchCase t p.2.toList).reverse = some (.paired p.2) := by
    rw [← first_toLower, List.map_reverse, hlower, hstep]
  rw [manyOf_eq_self_of_paired hagain hlower.symm, drop_matchCase]
  exact fun c hc => not_isUpper_of_isLower (hsmall c (List.mem_of_mem_drop hc))

theorem manyOf_manyOf_iff {t : List Char} (ht : IsLetters t) : manyOf (manyOf t) = manyOf t ↔ ¬ Unsettled t := by
  have hwords : ∀ w ∈ uncountables ++ manyPairs.map (·.1), ¬ EndsInOne turnedEndings w.toList ∧
      ¬ (∃ s ∈ turnedWords, s.toList = w.toList) ∧ ∀ p ∈ casedWords, p.1 ≠ w := by decide
  have hsettled : ∀ w ∈ uncountables ++ manyPairs.map (·.1), w.toList = t.map Char.toLower → ¬ Unsettled t := by
    intro w hw hsame
    obtain ⟨hends, hword, hcased⟩ := hwords w hw
    rw [Unsettled, ← hsame]
    rintro (h | h | ⟨p, hp, h, -⟩)
    · exact hends h
    · exact hword h
    · exact hcased p hp (String.toList_inj.mp h)
  obtain ⟨s, hs⟩ := exists_step t.reverse
  obtain ⟨rfl, word, hword, hsame⟩ | ⟨p, hp, hone, rfl⟩ | ⟨e, _, _, rfl, -⟩ := manySteps_cases ht hs
  · have hstays : manyOf t = t := manyOf_eq hs
    rw [hstays]
    exact iff_of_true hstays (hsettled word (List.mem_append_left _ hword) hsame)
  · exact iff_of_true (manyOf_of_paired hp hone hs)
      (hsettled p.1 (List.mem_append_right _ (List.mem_map_of_mem hp)) hone)
  · by_cases hcased : ∃ q ∈ casedWords, q.1.toList = t.map Char.toLower
    · obtain ⟨q, hq, hsame⟩ := hcased
      exact manyOf_of_cased hq hsame
    · exact manyOf_of_uncased ht hs fun q hq hsame => hcased ⟨q, hq, hsame⟩

/-! ## Names -/

/-- In front of the last word of a name there is no letter. -/
theorem exists_dropWhile {w : List Char} (h : (lastWord w).2 ≠ []) :
    ∃ l : List Char, (lastWord w).1 = (l.dropWhile Char.isAlpha).reverse := by
  rw [lastWord] at h ⊢
  split
  · rename_i hempty
    rw [if_pos hempty] at h
    split
    · rename_i before _
      exact ⟨before, rfl⟩
    · rename_i hnot
      split at h
      · rename_i hrev
        exact absurd hrev (hnot _)
      · exact absurd rfl h
  · exact ⟨w.reverse, rfl⟩

/-- What stands before the last word of a name, with another one behind it. -/
theorem lastWord_head {w t : List Char} (h : (lastWord w).2 ≠ []) (ht : IsLetters t) (hne : t ≠ []) :
    lastWord ((lastWord w).1 ++ t) = ((lastWord w).1, t) := by
  obtain ⟨l, hl⟩ := exists_dropWhile h
  have hletters : ∀ c ∈ t.reverse, c.isAlpha = true := fun c hc => ht c (List.mem_reverse.mp hc)
  have hstop : (l.dropWhile Char.isAlpha).takeWhile Char.isAlpha = [] :=
    List.takeWhile_eq_nil_iff.mpr fun hpos => by
      simpa using List.dropWhile_get_zero_not Char.isAlpha l hpos
  have htake : (t.reverse ++ l.dropWhile Char.isAlpha).takeWhile Char.isAlpha = t.reverse := by
    rw [List.takeWhile_append_of_pos hletters, hstop, List.append_nil]
  have hdrop : (t.reverse ++ l.dropWhile Char.isAlpha).dropWhile Char.isAlpha = l.dropWhile Char.isAlpha := by
    have hrest := List.takeWhile_append_dropWhile (p := Char.isAlpha) (l := l.dropWhile Char.isAlpha)
    rw [hstop, List.nil_append] at hrest
    rw [List.dropWhile_append_of_pos hletters, hrest]
  rw [hl, lastWord, List.reverse_append, List.reverse_reverse, htake, hdrop,
    if_neg (by simpa using hne), List.reverse_reverse]

theorem pluralize_head {w t : List Char} (h : (lastWord w).2 ≠ []) (ht : IsLetters t) (hne : t ≠ []) :
    pluralize ((lastWord w).1 ++ t) = (lastWord w).1 ++ manyOf t := by
  have hlast := lastWord_head h ht hne
  have hpluralize := pluralize_eq (w := (lastWord w).1 ++ t) (by rwa [hlast])
  rw [hlast] at hpluralize
  rw [pluralize, hpluralize, manyOf]
  cases (first? manySteps t.reverse).bind (·.made? t) <;> rfl

/-- **A plural is left alone just if the word it comes from is not unsettled**, and so is a name that is a plural when
it is made the name of a table. -/
theorem pluralize_pluralize_iff (w : List Char) :
    (pluralize (pluralize w) = pluralize w ↔ ¬ Unsettled (lastWord w).2) ∧
      ∀ name, underscore name = pluralize w → (tableize name = underscore name ↔ ¬ Unsettled (lastWord w).2) := by
  have hagain : pluralize (pluralize w) = pluralize w ↔ ¬ Unsettled (lastWord w).2 := by
    have hletters : IsLetters (lastWord w).2 := isAlpha_lastWord w
    by_cases hne : (lastWord w).2 = []
    · have hnone : pluralize? w = none := by
        rw [pluralize?, inflect?]
        simp [hne]
      have hsame : pluralize w = w := by rw [pluralize, hnone, Option.getD_none]
      rw [hsame, hne]
      exact iff_of_true hsame (by decide)
    · rw [← manyOf_manyOf_iff hletters]
      have hmany := pluralize_eq hne
      cases hmade : (first? manySteps (lastWord w).2.reverse).bind (·.made? (lastWord w).2) with
      | none =>
        -- a word that stays, where a line feed at the end does as well
        have hsame : pluralize w = w := by rw [pluralize, hmany, hmade, Option.map_none, Option.getD_none]
        have hstays : manyOf (lastWord w).2 = (lastWord w).2 := by rw [manyOf, hmade, Option.getD_none]
        rw [hsame, hstays]
        exact iff_of_true hsame hstays
      | some t =>
        have hplural : pluralize w = (lastWord w).1 ++ manyOf (lastWord w).2 := by
          rw [pluralize, hmany, manyOf, hmade, Option.map_some, Option.getD_some, Option.getD_some]
        rw [hplural, pluralize_head hne hletters.manyOf (manyOf_ne_nil hletters hne)]
        exact List.append_right_inj _
  refine ⟨hagain, fun name hname => ?_⟩
  rw [tableize, hname]
  exact hagain

/-- Names in the plural are left alone; of capitals those behind the first letter are lost to `Sexes`. -/
theorem pluralize_pluralize_posts :
    pluralize (pluralize "blog_post".toList) = pluralize "blog_post".toList ∧
      tableize "BlogPosts".toList = underscore "BlogPosts".toList ∧
      pluralize (pluralize "SEXE".toList) ≠ pluralize "SEXE".toList := by
  have hposts : underscore "BlogPosts".toList = pluralize "blog_post".toList := by decide +kernel
  have hsettled : ¬ Unsettled (lastWord "blog_post".toList).2 := by decide +kernel
  refine ⟨(pluralize_pluralize_iff _).1.mpr hsettled, ?_, ?_⟩
  · exact ((pluralize_pluralize_iff "blog_post".toList).2 "BlogPosts".toList hposts).mpr hsettled
  · exact fun h => (pluralize_pluralize_iff _).1.mp h (by decide +kernel)

/-- The rule for `bus` takes `zebus` for the name of one. -/
theorem not_pluralize_pluralize : ¬ ∀ w, pluralize (pluralize w) = pluralize w := by
  intro h
  have hzebu : pluralize (pluralize "zebu".toList) ≠ pluralize "zebu".toList := by decide +kernel
  exact hzebu (h "zebu".toList)

end RbsSynth.Inflection
