import RbsSynth.Proofs.Inflection.FirstFits

/-!
# Rules that undo rules

Whether a second list of rules gets back the words that a first one has changed.  What one rule undoes of
another one does not depend on the word (`back_iff`).  So it is a question on which rules fit first, and a
finite check answers it for all words:

    rulesUndone ones lost [] manys = true  →  changed ones (changed manys u) = u ↔ first? lost u ≠ some true
                                                                                      (changed_back)

Words are given with their last letter first.
-/

namespace RbsSynth.Inflection

/-! ## Rules on reversed words -/

/-- The only character that a letter stands for. -/
def Letter.only : Letter → Option Char
  | .one c => some c
  | _ => none

namespace Ending

/-- A rule with all of its letters still to be met. -/
def pending (e : Ending) : Pending Ending := ⟨e.place = .whole, (e.kept ++ e.dropped).reverse, e⟩

/-- What is taken off the end. -/
def gone (e : Ending) : List Char := (e.dropped.filterMap Letter.only).reverse

/-- What is put to the end. -/
def new (e : Ending) : List Char := e.added.toList.reverse

def rewrite (e : Ending) (u : List Char) : List Char := e.new ++ u.drop e.dropped.length

/-- What it takes for a rule to be undone. -/
structure IsClear (e : Ending) : Prop where
  atEnd : e.place ≠ .atStart
  dropped : ∀ l ∈ e.dropped, l.only.isSome = true
  added : IsSmall e.added.toList

instance : DecidablePred IsClear := fun e =>
  decidable_of_iff (e.place ≠ .atStart ∧ (∀ l ∈ e.dropped, l.only.isSome = true) ∧ IsSmall e.added.toList)
    ⟨fun ⟨h1, h2, h3⟩ => ⟨h1, h2, h3⟩, fun ⟨h1, h2, h3⟩ => ⟨h1, h2, h3⟩⟩

end Ending

/-- What the first rule that fits makes of a word. -/
def changed (es : List Ending) (u : List Char) : List Char :=
  match first? (es.map Ending.pending) u with
  | none => u
  | some e => e.rewrite u

theorem apply_eq_rewrite {e : Ending} (he : e.place ≠ .atStart) (w : List Char) :
    e.apply? w = if e.pending.meets w.reverse then some (e.rewrite w.reverse).reverse else none := by
  have hrewrite : (e.rewrite w.reverse).reverse = w.take (w.length - e.dropped.length) ++ e.added.toList := by
    simp [Ending.rewrite, Ending.new, List.drop_reverse]
  have hmeets : e.pending.meets w.reverse = (fits (e.kept ++ e.dropped).reverse w.reverse
      && (e.place != .whole || (e.kept ++ e.dropped).length == w.length)) := by
    rw [Pending.meets, Ending.pending, List.length_reverse, List.length_reverse]
    rfl
  rw [apply_of_end he, hrewrite, hmeets]

theorem applyFirst_eq {es : List Ending} (hes : ∀ e ∈ es, e.place ≠ .atStart) (w : List Char) :
    applyFirst? es w
      = (first? (es.map Ending.pending) w.reverse).map fun e => (e.rewrite w.reverse).reverse := by
  induction es with
  | nil => rfl
  | cons e es ih =>
    obtain ⟨he, hes⟩ := List.forall_mem_cons.mp hes
    rw [applyFirst?, apply_eq_rewrite he, List.map_cons]
    cases h : e.pending.meets w.reverse with
    | true =>
      rw [first_cons_of_meets h]
      rfl
    | false =>
      rw [first_cons_of_not h]
      exact ih hes

theorem applyFirst_reverse {es : List Ending} (hes : ∀ e ∈ es, e.place ≠ .atStart) (w : List Char) :
    ((applyFirst? es w).getD w).reverse = changed es w.reverse := by
  rw [applyFirst_eq hes, changed]
  cases first? (es.map Ending.pending) w.reverse with
  | none => rfl
  | some e => exact List.reverse_reverse _

theorem StandFor.eq_only {ls : List Letter} {cs : List Char} (h : StandFor ls cs) (hcs : IsSmall cs)
    (hls : ∀ l ∈ ls, l.only.isSome = true) : cs = ls.filterMap Letter.only := by
  induction h with
  | nil => rfl
  | @cons l c ls cs hc _ ih =>
    obtain ⟨hl, hrest⟩ := List.forall_mem_cons.mp hls
    obtain ⟨hsmall, hcs⟩ := List.forall_mem_cons.mp hcs
    cases l with
    | one a =>
      have ha : c = a := (toLower_of_isLower hsmall).symm.trans (beq_iff_eq.mp hc)
      rw [List.filterMap_cons_some (show (Letter.one a).only = some a from rfl), ← ih hcs hrest, ha]
    | anyOf _ => cases hl
    | noneOf _ => cases hl

theorem Ending.IsClear.gone_length {e : Ending} (he : e.IsClear) : e.gone.length = e.dropped.length := by
  have hall : ∀ ls : List Letter, (∀ l ∈ ls, l.only.isSome = true) →
      (ls.filterMap Letter.only).length = ls.length := by
    intro ls hls
    induction ls with
    | nil => rfl
    | cons l ls ih =>
      obtain ⟨hl, hls⟩ := List.forall_mem_cons.mp hls
      obtain ⟨c, hc⟩ := Option.isSome_iff_exists.mp hl
      rw [List.filterMap_cons_some hc, List.length_cons, List.length_cons, ih hls]
  rw [Ending.gone, List.length_reverse, hall e.dropped he.dropped]

/-- What stands in front of the dropped letters is kept. -/
theorem Ending.IsClear.exists_rest {e : Ending} (he : e.IsClear) {u : List Char} (hu : IsSmall u)
    (h : e.pending.meets u = true) : ∃ v, u = e.gone ++ v ∧ e.rewrite u = e.new ++ v := by
  obtain ⟨hfits, -⟩ := (Bool.and_eq_true _ _).mp h
  rw [← List.reverse_reverse u] at hfits
  obtain ⟨front, cs, hw, hcs⟩ := fits_reverse_iff.mp hfits
  obtain ⟨k, d, rfl, -, hd⟩ := hcs.of_append
  have hsmall : IsSmall d := fun c hc => hu c (List.mem_reverse.mp
    (hw ▸ List.mem_append_right _ (List.mem_append_right _ hc)))
  have hgone : d.reverse = e.gone := by rw [Ending.gone, hd.eq_only hsmall he.dropped]
  have hu : u = d.reverse ++ (k.reverse ++ front.reverse) := by
    rw [← List.reverse_append, ← List.reverse_append, List.append_assoc, ← hw, List.reverse_reverse]
  refine ⟨k.reverse ++ front.reverse, by rw [← hgone, hu], ?_⟩
  rw [Ending.rewrite, ← he.gone_length, ← hgone, hu, List.drop_left]

/-! ## One rule behind another one -/

/-- Whether a rule puts back what another one took off, and takes off what it put. -/
def undoes (p s : Ending) : Bool :=
  s.new ++ p.new.drop s.gone.length == p.gone ++ s.gone.drop p.new.length

theorem back_iff {p s : Ending} {u v : List Char} (h : p.new ++ u = s.gone ++ v) :
    s.new ++ v = p.gone ++ u ↔ undoes p s = true := by
  rw [undoes, beq_iff_eq]
  rcases List.append_eq_append_iff.mp h with ⟨m, hs, rfl⟩ | ⟨m, hp, rfl⟩
  · rw [hs, List.drop_left, List.drop_eq_nil_of_le (by simp), List.append_nil, ← List.append_assoc]
    exact List.append_left_inj v
  · rw [hp, List.drop_left, List.drop_eq_nil_of_le (by simp), List.append_nil, ← List.append_assoc]
    exact List.append_left_inj u

/-! ## The check -/

/-- The letters that a letter stands for. -/
def Letter.options : Letter → List Char
  | .one c => [c]
  | l => alphabet.filter l.admits

/-- The words that some letters stand for. -/
def spellings : List Letter → List (List Char)
  | [] => [[]]
  | l :: ls => l.options.flatMap fun c => (spellings ls).map (c :: ·)

theorem mem_spellings {ls : List Letter} {cs : List Char} (h : StandFor ls cs) (hcs : IsSmall cs) :
    cs ∈ spellings ls := by
  induction h with
  | nil => exact List.mem_singleton_self []
  | @cons l c ls cs hc _ ih =>
    obtain ⟨hsmall, hcs⟩ := List.forall_mem_cons.mp hcs
    refine List.mem_flatMap.mpr ⟨c, ?_, List.mem_map_of_mem (ih hcs)⟩
    have halpha : c ∈ alphabet := Signature.mem_of_isLower hsmall
    cases l with
    | one a => exact List.mem_singleton.mpr ((toLower_of_isLower hsmall).symm.trans (beq_iff_eq.mp hc))
    | anyOf _ | noneOf _ => exact List.mem_filter.mpr ⟨halpha, hc⟩

section

variable {α β γ : Type} [BEq β] (judge : Ending → α → β) (unmet unsaid : β) (ps : List (Pending α))
  (said : List (Pending β))

/-- Whether what becomes of the words that a rule is the first to fit is judged just as is said of them. -/
def ruleJudged (es : List (Pending γ)) (p : Ending) : Bool :=
  (spellings (p.kept ++ p.dropped).reverse).all fun x =>
    let earlier := x.foldl after es
    let found := ((p.rewrite x).foldl after ps).map (Pending.map (judge p)) ++ [⟨false, [], unmet⟩]
    let spoken := x.foldl after said ++ [⟨false, [], unsaid⟩]
    if p.place = .whole then (first? earlier []).isSome || first? found [] == first? spoken []
    else agree 20 earlier found spoken

/-- Whether each rule passes a check with those before it. -/
def eachBehind (check : List Ending → Ending → Bool) : List Ending → List Ending → Bool
  | _, [] => true
  | es, p :: ps => check es p && eachBehind check (es ++ [p]) ps

variable {judge unmet unsaid ps said}

theorem ruleJudged_sound [LawfulBEq β] {es : List (Pending γ)} {p : Ending}
    (h : ruleJudged judge unmet unsaid ps said es p = true) {u : List Char} (hu : IsSmall u)
    (hmeets : p.pending.meets u = true) (hes : first? es u = none) :
    ((first? ps (p.rewrite u)).map (judge p)).getD unmet = (first? said u).getD unsaid := by
  obtain ⟨hfits, hwhole⟩ := (Bool.and_eq_true _ _).mp hmeets
  obtain ⟨x, rest, rfl, hx⟩ := fits_iff.mp hfits
  have hsmall : IsSmall x ∧ IsSmall rest := List.forall_mem_append.mp hu
  have hx' := List.all_eq_true.mp h x (mem_spellings hx hsmall.1)
  have hdrop : p.rewrite (x ++ rest) = p.rewrite x ++ rest := by
    have hlen : p.dropped.length ≤ x.length := by
      rw [← hx.length_eq, Ending.pending, List.length_reverse, List.length_append]
      omega
    rw [Ending.rewrite, Ending.rewrite, List.drop_append_of_le_length hlen, List.append_assoc]
  rw [first_read] at hes
  rw [hdrop, first_read, first_read said, ← Option.some_inj, ← first_map, ← first_default, ← first_default]
  simp only [] at hx'
  split at hx'
  · rename_i hplace
    have hnil : rest = [] := by
      simp only [Ending.pending, hplace, decide_true, Bool.not_true, Bool.false_or, beq_iff_eq] at hwhole
      have hlen : (p.kept ++ p.dropped).reverse.length = x.length := hx.length_eq
      rw [List.length_append] at hwhole
      exact List.eq_nil_of_length_eq_zero (by omega)
    subst hnil
    rw [hes, Option.isSome_none, Bool.false_or] at hx'
    exact beq_iff_eq.mp hx'
  · exact agree_sound hx' hsmall.2 hes

theorem eachBehind_sound {check : List Ending → Ending → Bool} {es ps : List Ending}
    (h : eachBehind check es ps = true) {p : Ending} {ps₁ ps₂ : List Ending} (hps : ps = ps₁ ++ p :: ps₂) :
    check (es ++ ps₁) p = true := by
  induction ps₁ generalizing es ps with
  | nil =>
    rw [hps, List.nil_append, eachBehind, Bool.and_eq_true] at h
    rw [List.append_nil]
    exact h.1
  | cons e ps₁ ih =>
    rw [hps, List.cons_append, eachBehind, Bool.and_eq_true] at h
    have hrest := ih h.2 rfl
    rwa [List.append_assoc] at hrest

end

variable (ones : List Ending) (lost : List (Pending Bool))

/-- Whether of the words that a rule is the first to fit just those that are said to be lost are so. -/
def ruleUndone (es : List Ending) (p : Ending) : Bool :=
  ruleJudged (fun p s => !undoes p s) true false (ones.map Ending.pending) lost (es.map Ending.pending) p

/-- The same of all rules behind some earlier ones. -/
def rulesUndone (es ps : List Ending) : Bool :=
  eachBehind (fun es p => p.new == p.gone || ruleUndone ones lost es p) es ps

variable {ones : List Ending} {lost : List (Pending Bool)}

theorem ruleUndone_sound {es : List Ending} {p : Ending} (h : ruleUndone ones lost es p = true)
    {u : List Char} (hu : IsSmall u) (hmeets : p.pending.meets u = true)
    (hes : first? (es.map Ending.pending) u = none) :
    ((first? (ones.map Ending.pending) (p.rewrite u)).all fun s => !undoes p s) = (first? lost u).getD false := by
  rw [← ruleJudged_sound h hu hmeets hes]
  cases first? (ones.map Ending.pending) (p.rewrite u) <;> rfl

theorem rulesUndone_sound {es ps : List Ending} (h : rulesUndone ones lost es ps = true) {p : Ending}
    {ps₁ ps₂ : List Ending} (hps : ps = ps₁ ++ p :: ps₂) :
    p.new = p.gone ∨ ruleUndone ones lost (es ++ ps₁) p = true := by
  have hcheck := eachBehind_sound h hps
  rwa [Bool.or_eq_true, beq_iff_eq] at hcheck

theorem exists_of_first {es : List Ending} {u : List Char} {p : Ending}
    (h : first? (es.map Ending.pending) u = some p) : ∃ es₁ es₂, es = es₁ ++ p :: es₂ ∧
      p.pending.meets u = true ∧ first? (es₁.map Ending.pending) u = none := by
  induction es with
  | nil => cases h
  | cons e es ih =>
    rw [List.map_cons] at h
    cases he : e.pending.meets u with
    | true =>
      rw [first_cons_of_meets he] at h
      cases h
      exact ⟨[], es, rfl, he, rfl⟩
    | false =>
      rw [first_cons_of_not he] at h
      obtain ⟨es₁, es₂, rfl, hp, hnone⟩ := ih h
      refine ⟨e :: es₁, es₂, rfl, hp, ?_⟩
      rw [List.map_cons, first_cons_of_not he, hnone]

/-- **Just the words that are not said to be lost are got back.** -/
theorem changed_back {manys : List Ending} (hmanys : ∀ p ∈ manys, p.IsClear) (hones : ∀ s ∈ ones, s.IsClear)
    (hcheck : rulesUndone ones lost [] manys = true) {u : List Char} (hu : IsSmall u)
    (hne : changed manys u ≠ u) : changed ones (changed manys u) = u ↔ first? lost u ≠ some true := by
  cases hfirst : first? (manys.map Ending.pending) u with
  | none => exact absurd (by rw [changed, hfirst]) hne
  | some p =>
    have hmany : changed manys u = p.rewrite u := by rw [changed, hfirst]
    rw [hmany] at hne ⊢
    obtain ⟨earlier, later, heq, hmeets, hearlier⟩ := exists_of_first hfirst
    have hp : p.IsClear := hmanys p (heq ▸ List.mem_append_right _ List.mem_cons_self)
    obtain ⟨v, huv, hq⟩ := hp.exists_rest hu hmeets
    have hundone : ruleUndone ones lost earlier p = true := by
      refine (rulesUndone_sound hcheck heq).resolve_left fun hsame => hne ?_
      rw [hq, hsame, ← huv]
    have hsaid := ruleUndone_sound hundone hu hmeets hearlier
    have hlost : first? lost u ≠ some true ↔ (first? lost u).getD false = false := by
      cases first? lost u <;> simp
    rw [hlost, ← hsaid, changed]
    cases hone : first? (ones.map Ending.pending) (p.rewrite u) with
    | none => simpa using hne
    | some s =>
      obtain ⟨before, after, hones', hsmeets, -⟩ := exists_of_first hone
      have hs : s.IsClear := hones s (hones' ▸ List.mem_append_right _ List.mem_cons_self)
      have hsmall : IsSmall (p.rewrite u) := by
        rw [hq]
        exact List.forall_mem_append.mpr ⟨fun c hc => hp.added c (List.mem_reverse.mp hc),
          fun c hc => hu c (huv ▸ List.mem_append_right _ hc)⟩
      obtain ⟨v', hqv, hback⟩ := hs.exists_rest hsmall hsmeets
      have hboth : p.new ++ v = s.gone ++ v' := hq.symm.trans hqv
      simp only [Option.all_some, Bool.not_eq_false']
      rw [hback, ← back_iff hboth, ← huv]

end RbsSynth.Inflection
