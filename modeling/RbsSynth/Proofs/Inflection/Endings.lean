import Mathlib.Data.List.Forall2
import Mathlib.Data.List.TakeWhile
import RbsSynth.Inflection.Words
import RbsSynth.Proofs.Scanning.Words

/-!
# Rules on the ending of a word

A rule that fits a word has found there the letters that it drops, and puts others in their place:

    e.apply? w = some w'  →  w = front ++ gone ++ back,  w' = front ++ added ++ back   (Changes.of_apply)

Of a name only its last word is changed, and for a word of small letters a pair of words is a rule like
the others (`inflect_eq`).
-/

namespace RbsSynth.Inflection

open Signature

/-- What all words here consist of. -/
def IsSmall (w : List Char) : Prop := ∀ c ∈ w, c.isLower = true

instance : DecidablePred IsSmall := fun w => inferInstanceAs (Decidable (∀ c ∈ w, c.isLower = true))

theorem toLower_of_isLower {c : Char} (h : c.isLower = true) : c.toLower = c := by
  have hall : ∀ c ∈ lettersFrom 97 26, c.toLower = c := by decide
  exact hall c (mem_of_isLower h)

theorem isAlpha_of_isLower {c : Char} (h : c.isLower = true) : c.isAlpha = true := by
  show (c.isUpper || c.isLower) = true
  rw [h, Bool.or_true]

theorem not_isUpper_of_isLower {c : Char} (h : c.isLower = true) : c.isUpper = false := by
  have hall : ∀ c ∈ lettersFrom 97 26, c.isUpper = false := by decide
  exact hall c (mem_of_isLower h)

theorem IsSmall.map_toLower {w : List Char} (h : IsSmall w) : w.map Char.toLower = w := by
  rw [List.map_congr_left fun c hc => toLower_of_isLower (h c hc), List.map_id']

/-! ## Letters -/

/-- A letter for each character. -/
def StandFor (ls : List Letter) (cs : List Char) : Prop := List.Forall₂ (fun l c => l.admits c = true) ls cs

theorem fits_iff {ls : List Letter} {w : List Char} :
    fits ls w = true ↔ ∃ cs rest, w = cs ++ rest ∧ StandFor ls cs := by
  induction ls generalizing w with
  | nil => exact ⟨fun _ => ⟨[], w, rfl, .nil⟩, fun _ => by cases w <;> rfl⟩
  | cons l ls ih =>
    cases w with
    | nil =>
      constructor
      · intro h
        cases h
      · rintro ⟨cs, rest, h, hcs⟩
        obtain ⟨rfl, rfl⟩ := List.append_eq_nil_iff.mp h.symm
        cases hcs
    | cons c w =>
      simp only [fits, Bool.and_eq_true, ih]
      constructor
      · rintro ⟨hc, cs, rest, rfl, hcs⟩
        exact ⟨c :: cs, rest, rfl, .cons hc hcs⟩
      · rintro ⟨cs, rest, h, hcs⟩
        cases hcs with
        | cons hc hcs =>
          obtain ⟨rfl, rfl⟩ := List.cons.inj h
          exact ⟨hc, _, rest, rfl, hcs⟩

theorem StandFor.fits {ls : List Letter} {cs : List Char} (h : StandFor ls cs) : fits ls cs = true :=
  fits_iff.mpr ⟨cs, [], (List.append_nil cs).symm, h⟩

theorem StandFor.length_eq {ls : List Letter} {cs : List Char} (h : StandFor ls cs) :
    ls.length = cs.length :=
  List.Forall₂.length_eq h

theorem StandFor.reverse {ls : List Letter} {cs : List Char} (h : StandFor ls cs) :
    StandFor ls.reverse cs.reverse :=
  List.forall₂_reverse_iff.mpr h

theorem StandFor.exists_letter {ls : List Letter} {cs : List Char} (h : StandFor ls cs) {c : Char}
    (hc : c ∈ cs) : ∃ l ∈ ls, l.admits c = true := by
  induction h with
  | nil => cases hc
  | @cons l d ls ds hd _ ih =>
    rcases List.mem_cons.mp hc with rfl | hc
    · exact ⟨l, List.mem_cons_self, hd⟩
    · obtain ⟨m, hm, hmc⟩ := ih hc
      exact ⟨m, List.mem_cons_of_mem l hm, hmc⟩

theorem StandFor.of_append {ks ds : List Letter} {cs : List Char} (h : StandFor (ks ++ ds) cs) :
    ∃ k d, cs = k ++ d ∧ StandFor ks k ∧ StandFor ds d := by
  induction ks generalizing cs with
  | nil => exact ⟨[], cs, rfl, .nil, h⟩
  | cons l ks ih =>
    cases h with
    | cons hc h =>
      obtain ⟨k, d, rfl, hk, hd⟩ := ih h
      exact ⟨_ :: k, d, rfl, .cons hc hk, hd⟩

/-- Letters at the end of a word are those at the start of the reversed word. -/
theorem fits_reverse_iff {ls : List Letter} {w : List Char} :
    fits ls.reverse w.reverse = true ↔ ∃ front cs, w = front ++ cs ∧ StandFor ls cs := by
  rw [fits_iff]
  constructor
  · rintro ⟨cs, rest, hw, hcs⟩
    refine ⟨rest.reverse, cs.reverse, ?_, ?_⟩
    · rw [← List.reverse_append, ← hw, List.reverse_reverse]
    · have h := hcs.reverse
      rwa [List.reverse_reverse] at h
  · rintro ⟨front, cs, rfl, hcs⟩
    exact ⟨cs.reverse, front.reverse, List.reverse_append, hcs.reverse⟩

theorem fits_drop (ls : List Letter) (w : List Char) :
    (decide (ls.length ≤ w.length) && fits ls (w.drop (w.length - ls.length))) = fits ls.reverse w.reverse := by
  rw [Bool.eq_iff_iff, Bool.and_eq_true, decide_eq_true_eq, fits_iff, fits_reverse_iff]
  constructor
  · rintro ⟨hlen, cs, rest, hw, hcs⟩
    have hrest : rest = [] := by
      have h := congrArg List.length hw
      rw [List.length_drop, List.length_append, ← hcs.length_eq] at h
      exact List.eq_nil_of_length_eq_zero (by omega)
    rw [hrest, List.append_nil] at hw
    exact ⟨w.take (w.length - ls.length), cs, by rw [← hw, List.take_append_drop], hcs⟩
  · rintro ⟨front, cs, rfl, hcs⟩
    rw [List.length_append, hcs.length_eq, Nat.add_sub_cancel, List.drop_left]
    exact ⟨Nat.le_add_left _ _, cs, [], (List.append_nil cs).symm, hcs⟩

/-! ## What a rule does -/

/-- A rule for the end of a word, read from the last letter on. -/
theorem apply_of_end {e : Ending} (he : e.place ≠ .atStart) (w : List Char) : e.apply? w
    = if fits (e.kept ++ e.dropped).reverse w.reverse
          && (e.place != .whole || (e.kept ++ e.dropped).length == w.length)
      then some (w.take (w.length - e.dropped.length) ++ e.added.toList) else none := by
  rw [← fits_drop]
  by_cases hlen : (e.kept ++ e.dropped).length ≤ w.length
  · have htake : w.length - (e.kept ++ e.dropped).length + e.kept.length = w.length - e.dropped.length := by
      rw [List.length_append] at hlen ⊢
      omega
    have hwhole : (w.length - (e.kept ++ e.dropped).length == 0)
        = ((e.kept ++ e.dropped).length == w.length) := by
      rw [Bool.eq_iff_iff, beq_iff_eq, beq_iff_eq]
      omega
    cases hp : e.place with
    | atStart => exact absurd hp he
    | atEnd => simp only [ Ending.apply?, hp, htake, decide_true]; rfl
    | whole => simp only [ Ending.apply?, hp, htake, hwhole]; rfl
  · cases hp : e.place with
    | atStart => exact absurd hp he
    | atEnd | whole => simp only [ Ending.apply?, hp, hlen, decide_false, Bool.false_and, if_neg Bool.false_ne_true]

/-- A rule has found `gone` in a word to put its own letters there. -/
structure Changes (e : Ending) (front gone back : List Char) : Prop where
  dropped : StandFor e.dropped gone
  kept : e.kept.length ≤ front.length
  whole : e.place = .whole → front.length = e.kept.length
  back : e.place ≠ .atStart → back = []

theorem Changes.of_apply {e : Ending} {w w' : List Char} (h : e.apply? w = some w') :
    ∃ front gone back, Changes e front gone back ∧ w = front ++ gone ++ back
      ∧ w' = front ++ e.added.toList ++ back := by
  by_cases hplace : e.place = .atStart
  · simp only [ Ending.apply?, hplace, Option.ite_none_right_eq_some, Option.some.injEq] at h
    obtain ⟨hfits, rfl⟩ := h
    obtain ⟨cs, rest, rfl, hcs⟩ := fits_iff.mp hfits
    obtain ⟨k, d, rfl, hk, hd⟩ := hcs.of_append
    refine ⟨k, d, rest, ⟨hd, Nat.le_of_eq hk.length_eq, ?_, fun hs => absurd hplace hs⟩, rfl, ?_⟩
    · rw [hplace]
      intro hw
      cases hw
    · rw [hcs.length_eq, List.drop_left, hk.length_eq, List.append_assoc k d rest, List.take_left]
  · rw [apply_of_end hplace, Option.ite_none_right_eq_some, Bool.and_eq_true, Bool.or_eq_true] at h
    obtain ⟨⟨hfits, hwhole⟩, hw'⟩ := h
    obtain ⟨front, cs, rfl, hcs⟩ := fits_reverse_iff.mp hfits
    obtain ⟨k, d, rfl, hk, hd⟩ := hcs.of_append
    refine ⟨front ++ k, d, [], ⟨hd, ?_, ?_, fun _ => rfl⟩, ?_, ?_⟩
    · rw [List.length_append, hk.length_eq]
      omega
    · intro hp
      simp only [hp, bne_self_eq_false, Bool.false_eq_true, false_or, beq_iff_eq] at hwhole
      have hlen := hd.length_eq
      simp only [List.length_append] at hwhole ⊢
      omega
    · rw [List.append_nil, List.append_assoc]
    · rw [← Option.some.inj hw', List.append_nil, ← List.append_assoc, @List.length_append _ _ d,
        hd.length_eq, Nat.add_sub_cancel, List.take_left]

/-! ## The first rule that fits -/

theorem applyFirst_append (es fs : List Ending) (w : List Char) :
    applyFirst? (es ++ fs) w = (applyFirst? es w).or (applyFirst? fs w) := by
  induction es with
  | nil => rfl
  | cons e es ih =>
    rw [List.cons_append, applyFirst?, applyFirst?, ih]
    cases e.apply? w <;> rfl

theorem exists_of_applyFirst {es : List Ending} {w w' : List Char} (h : applyFirst? es w = some w') :
    ∃ e ∈ es, e.apply? w = some w' := by
  induction es with
  | nil => cases h
  | cons e es ih =>
    rw [applyFirst?] at h
    cases he : e.apply? w with
    | some v =>
      rw [he] at h
      exact ⟨e, List.mem_cons_self, he.trans h⟩
    | none =>
      rw [he] at h
      obtain ⟨f, hf, hw⟩ := ih h
      exact ⟨f, List.mem_cons_of_mem e hf, hw⟩

/-! ## Whole words as rules -/

def manyPairs : List (String × String) := irregulars ++ irregulars.map fun (_, many) => (many, many)

def onePairs : List (String × String) :=
  irregulars.map (fun (one, many) => (many, one)) ++ irregulars.map fun (one, _) => (one, one)

theorem standFor_letters {cs w : List Char} (hw : IsSmall w) : StandFor (cs.map .one) w ↔ w = cs := by
  induction cs generalizing w with
  | nil => exact List.forall₂_nil_left_iff
  | cons c cs ih =>
    rw [List.map_cons, StandFor, List.forall₂_cons_left_iff]
    constructor
    · rintro ⟨d, v, hd, hv, rfl⟩
      obtain ⟨hsmall, hv'⟩ := List.forall_mem_cons.mp hw
      have hd : d.toLower = c := beq_iff_eq.mp hd
      rw [toLower_of_isLower hsmall] at hd
      rw [hd, (ih hv').mp hv]
    · rintro rfl
      obtain ⟨hsmall, hv'⟩ := List.forall_mem_cons.mp hw
      refine ⟨c, cs, ?_, (ih hv').mpr rfl, rfl⟩
      exact beq_iff_eq.mpr (toLower_of_isLower hsmall)

/-- Of a word another one. -/
theorem apply_whole (one other : String) {w : List Char} (hw : IsSmall w) :
    Ending.apply? (.whole "" one other) w = if one.toList = w then some other.toList else none := by
  have hfits : (fits (letters one).reverse w.reverse && (letters one).length == w.length) = true
      ↔ one.toList = w := by
    rw [Bool.and_eq_true, beq_iff_eq, fits_reverse_iff, eq_comm (b := w), letters, ← standFor_letters hw]
    constructor
    · rintro ⟨⟨front, cs, rfl, hcs⟩, hlen⟩
      rw [hcs.length_eq, List.length_append] at hlen
      have hnil : front = [] := List.eq_nil_of_length_eq_zero (by omega)
      rwa [hnil, List.nil_append]
    · intro h
      exact ⟨⟨[], w, rfl, h⟩, h.length_eq⟩
  have hplace : (Ending.whole "" one other).place ≠ .atStart := nofun
  rw [apply_of_end hplace]
  by_cases h : one.toList = w
  · have hlen : w.length - (letters one).length = 0 := by
      rw [← h, letters, List.length_map]
      omega
    have htake : w.take (w.length - (letters one).length) = [] := by rw [hlen, List.take_zero]
    refine (if_pos (hfits.mpr h)).trans ((congrArg (some <| · ++ other.toList) htake).trans ?_)
    rw [if_pos h, List.nil_append]
  · exact (if_neg (mt hfits.mp h)).trans (if_neg h).symm

/-- Words that stay as they are, and words with another one. -/
def wordRules (pairs : List (String × String)) : List Ending :=
  (uncountables.map (fun word => (word, word)) ++ pairs).map fun (one, other) => Ending.whole "" one other

theorem applyFirst_wordRules (pairs : List (String × String)) {w : List Char} (hw : IsSmall w) :
    applyFirst? (pairs.map fun (one, other) => Ending.whole "" one other) w
      = (pairs.find? (·.1.toList == w)).map (·.2.toList) := by
  induction pairs with
  | nil => rfl
  | cons p pairs ih =>
    obtain ⟨one, other⟩ := p
    rw [List.map_cons, applyFirst?, apply_whole one other hw, ih]
    by_cases h : one.toList = w
    · simp [h]
    · simp [h]

theorem find_same (words : List String) (w : List Char) :
    ((words.map fun word => (word, word)).find? (·.1.toList == w)).map (·.2.toList)
      = if words.any (·.toList == w) then some w else none := by
  induction words with
  | nil => rfl
  | cons word words ih =>
    rw [List.map_cons, List.any_cons]
    by_cases h : word.toList = w
    · rw [List.find?_cons_of_pos (by simpa using h), beq_iff_eq.mpr h]
      exact congrArg some h
    · rw [List.find?_cons_of_neg (by simpa using h), ih, beq_eq_false_iff_ne.mpr h, Bool.false_or]

/-! ## Names -/

theorem lastWord_append {w : List Char} (h : '\n' ∉ w) : (lastWord w).1 ++ (lastWord w).2 = w := by
  have hsplit : (w.reverse.dropWhile Char.isAlpha).reverse ++ (w.reverse.takeWhile Char.isAlpha).reverse = w := by
    rw [← List.reverse_append, List.takeWhile_append_dropWhile, List.reverse_reverse]
  rw [lastWord]
  split
  · split
    · rename_i before hrev
      exact absurd (List.mem_reverse.mp (hrev ▸ List.mem_cons_self)) h
    · exact List.append_nil w
  · exact hsplit

theorem isAlpha_lastWord (w : List Char) : ∀ c ∈ (lastWord w).2, c.isAlpha = true := by
  have hall : ∀ cs : List Char, ∀ c ∈ (cs.takeWhile Char.isAlpha).reverse, c.isAlpha = true :=
    fun cs c hc => List.mem_takeWhile_imp (List.mem_reverse.mp hc)
  rw [lastWord]
  split
  · split
    · exact hall _
    · exact List.forall_mem_nil _
  · exact hall _

/-- Only the last word is changed, to what it is paired with or by a rule. -/
theorem exists_of_inflect {pairs : List (String × String)} {rules : List Ending} {w w' : List Char}
    (h : inflect? pairs rules w = some w') : ∃ tail, w' = (lastWord w).1 ++ tail ∧ (lastWord w).2 ≠ [] ∧
      ((∃ p ∈ pairs, p.1.toList = (lastWord w).2.map Char.toLower ∧
          tail = matchCase (lastWord w).2 p.2.toList) ∨
        ∃ e ∈ rules, e.apply? (lastWord w).2 = some tail) := by
  simp only [inflect?] at h
  split at h
  · cases h
  · rename_i hplain
    simp only [Bool.or_eq_true, List.isEmpty_iff, not_or] at hplain
    split at h
    · rename_i one other hfind
      cases h
      have hsame : one.toList = (lastWord w).2.map Char.toLower := by simpa using List.find?_some hfind
      exact ⟨_, rfl, hplain.1, .inl ⟨_, List.mem_of_find?_eq_some hfind, hsame, rfl⟩⟩
    · obtain ⟨tail, htail, rfl⟩ := Option.map_eq_some_iff.mp h
      exact ⟨tail, rfl, hplain.1, .inr (exists_of_applyFirst htail)⟩

theorem lastWord_small {w : List Char} (h : IsSmall w) : lastWord w = ([], w) := by
  have hall : ∀ c ∈ w.reverse, c.isAlpha = true := fun c hc =>
    isAlpha_of_isLower (h c (List.mem_reverse.mp hc))
  have htake : w.reverse.takeWhile Char.isAlpha = w.reverse := by
    rw [← List.append_nil w.reverse, List.takeWhile_append_of_pos hall, List.takeWhile_nil]
  have hdrop : w.reverse.dropWhile Char.isAlpha = [] := by
    rw [← List.append_nil w.reverse, List.dropWhile_append_of_pos hall, List.dropWhile_nil]
  cases w with
  | nil => rfl
  | cons c cs =>
    rw [lastWord, htake, hdrop]
    simp

theorem matchCase_small {w : List Char} (h : IsSmall w) (other : List Char) : matchCase w other = other := by
  match w, other with
  | [], _ => rfl
  | _ :: _, [] => rfl
  | c :: cs, d :: ds => rw [matchCase, not_isUpper_of_isLower (h c List.mem_cons_self), if_neg Bool.false_ne_true]

/-- Small letters alone are one word, and each pair is a rule for the whole of it. -/
theorem inflect_eq {pairs : List (String × String)} {rules : List Ending} {w : List Char} (hw : IsSmall w)
    (hnil : w = [] → applyFirst? (wordRules pairs ++ rules) w = none) : (inflect? pairs rules w).getD w
      = (applyFirst? (wordRules pairs ++ rules) w).getD w := by
  by_cases hempty : w = []
  · rw [hnil hempty, hempty]
    rfl
  have hwords := applyFirst_wordRules (uncountables.map fun word => (word, word)) hw
  rw [find_same] at hwords
  rw [wordRules, List.map_append, List.append_assoc, applyFirst_append, applyFirst_append, hwords,
    applyFirst_wordRules pairs hw]
  simp only [inflect?, lastWord_small hw, hw.map_toLower, matchCase_small hw, List.nil_append,
    List.isEmpty_eq_false_iff.mpr hempty, Bool.false_or]
  by_cases hany : uncountables.any (·.toList == w) = true
  · rw [if_pos hany, if_pos hany]
    rfl
  · rw [if_neg hany, if_neg hany, Option.none_or]
    cases pairs.find? (·.1.toList == w) with
    | some p => rfl
    | none => rw [Option.map_none, Option.none_or, Option.map_id']

end RbsSynth.Inflection
