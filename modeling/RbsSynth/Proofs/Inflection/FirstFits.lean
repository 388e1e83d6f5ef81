import RbsSynth.Proofs.Inflection.Endings

/-!
# The first rule that fits, letter by letter

A word is read from its last letter on.  Of each rule there is then left what the letters read so far leave
of it, and which rule fits first is a question on that:

    first? ps (c :: u) = first? (after ps c) u                                            (first_cons)

So two lists of rules can be compared on all words at once (`agree_sound`): their rests are followed until
they are settled, and of the letters that no rule asks for, one stands for all.
-/

namespace RbsSynth.Inflection

variable {α β : Type}

/-- The letters that a rule has still to meet, and its value. -/
structure Pending (α : Type) where
  whole : Bool
  letters : List Letter
  value : α

def Pending.map (f : α → β) (p : Pending α) : Pending β := ⟨p.whole, p.letters, f p.value⟩

def Pending.meets (p : Pending α) (u : List Char) : Bool :=
  fits p.letters u && (!p.whole || p.letters.length == u.length)

/-- The value of the first that fits. -/
def first? (ps : List (Pending α)) (u : List Char) : Option α := (ps.find? (·.meets u)).map (·.value)

/-! ## Reading a letter -/

/-- What is left behind a letter. -/
def Pending.after? (c : Char) (p : Pending α) : Option (Pending α) :=
  match p.letters with
  | [] => if p.whole then none else some p
  | l :: ls => if l.admits c then some ⟨p.whole, ls, p.value⟩ else none

def after (ps : List (Pending α)) (c : Char) : List (Pending α) := ps.filterMap (·.after? c)

theorem Pending.meets_cons (p : Pending α) (c : Char) (u : List Char) :
    p.meets (c :: u) = (p.after? c).any (·.meets u) := by
  obtain ⟨whole, letters, value⟩ := p
  cases letters with
  | nil => cases whole <;> cases u <;> rfl
  | cons l ls =>
    by_cases hl : l.admits c = true
    · simp [meets, after?, fits, hl]
    · simp [meets, after?, fits, hl]

theorem Pending.value_after {p q : Pending α} {c : Char} (h : p.after? c = some q) : q.value = p.value := by
  obtain ⟨whole, letters, value⟩ := p
  cases letters with
  | nil =>
    cases whole with
    | true => cases h
    | false => exact congrArg Pending.value (Option.some.inj h).symm
  | cons l ls =>
    rw [after?, Option.ite_none_right_eq_some] at h
    rw [← Option.some.inj h.2]

theorem first_cons_of_meets {p : Pending α} {u : List Char} (h : p.meets u = true) (ps : List (Pending α)) :
    first? (p :: ps) u = some p.value := by
  simp [first?, h]

theorem first_cons_of_not {p : Pending α} {u : List Char} (h : p.meets u = false) (ps : List (Pending α)) :
    first? (p :: ps) u = first? ps u := by
  simp [first?, h]

/-- **The first that fits is found in what a letter leaves.** -/
theorem first_cons (ps : List (Pending α)) (c : Char) (u : List Char) :
    first? ps (c :: u) = first? (after ps c) u := by
  induction ps with
  | nil => rfl
  | cons p ps ih =>
    have hmeets := p.meets_cons c u
    cases hafter : p.after? c with
    | none =>
      rw [hafter] at hmeets
      rw [first_cons_of_not hmeets, ih, after, after, List.filterMap_cons_none hafter]
    | some q =>
      rw [hafter, Option.any_some] at hmeets
      rw [after, List.filterMap_cons_some hafter]
      cases hq : q.meets u with
      | true =>
        rw [first_cons_of_meets (hmeets.trans hq), first_cons_of_meets hq, Pending.value_after hafter]
      | false =>
        rw [first_cons_of_not (hmeets.trans hq), first_cons_of_not hq, ih]
        rfl

theorem first_read (ps : List (Pending α)) (x u : List Char) :
    first? ps (x ++ u) = first? (x.foldl after ps) u := by
  induction x generalizing ps with
  | nil => rfl
  | cons c x ih => rw [List.cons_append, first_cons, ih, List.foldl_cons]

theorem first_append (ps qs : List (Pending α)) (u : List Char) :
    first? (ps ++ qs) u = (first? ps u).or (first? qs u) := by
  simp [first?, List.find?_append, Option.map_or]

theorem first_map (f : α → β) (ps : List (Pending α)) (u : List Char) :
    first? (ps.map (Pending.map f)) u = (first? ps u).map f := by
  induction ps with
  | nil => rfl
  | cons p ps ih =>
    rw [List.map_cons]
    cases h : p.meets u with
    | true =>
      have h' : (p.map f).meets u = true := h
      rw [first_cons_of_meets h, first_cons_of_meets h']
      rfl
    | false =>
      have h' : (p.map f).meets u = false := h
      rw [first_cons_of_not h, first_cons_of_not h', ih]

/-! ## When no further letter counts -/

theorem first_always (a : α) (ps : List (Pending α)) (u : List Char) :
    first? (⟨false, [], a⟩ :: ps) u = some a :=
  first_cons_of_meets (by cases u <;> rfl) ps

/-- A list with a value for all words that it has none for. -/
theorem first_default (qs : List (Pending α)) (a : α) (u : List Char) :
    first? (qs ++ [⟨false, [], a⟩]) u = some ((first? qs u).getD a) := by
  rw [first_append, first_always]
  cases first? qs u <;> rfl

/-- The value for all words, if it is known. -/
def settled? : List (Pending α) → Option (Option α)
  | [] => some none
  | p :: _ => if p.letters.isEmpty && !p.whole then some (some p.value) else none

theorem first_of_settled {ps : List (Pending α)} {a : Option α} (h : settled? ps = some a) (u : List Char) :
    first? ps u = a := by
  cases ps with
  | nil => exact Option.some.inj h
  | cons p ps =>
    obtain ⟨whole, letters, a⟩ := p
    simp only [settled?, Option.ite_none_right_eq_some, Bool.and_eq_true, List.isEmpty_iff,
      Bool.not_eq_true', Option.some.injEq] at h
    obtain ⟨⟨rfl, rfl⟩, rfl⟩ := h
    exact first_always a ps u

/-- The characters that a letter asks for. -/
def Letter.marks : Letter → List Char
  | .one c => [c]
  | .anyOf cs => cs
  | .noneOf cs => cs

/-- The characters that are asked for next. -/
def marks (ps : List (Pending α)) : List Char :=
  ps.flatMap fun p => (p.letters.head?.map Letter.marks).getD []

theorem Letter.admits_congr {l : Letter} {c d : Char} (hc : c.isLower = true) (hd : d.isLower = true)
    (hcl : c ∉ l.marks) (hdl : d ∉ l.marks) : l.admits c = l.admits d := by
  cases l with
  | one a =>
    have hc' : c ≠ a := fun h => hcl (List.mem_singleton.mpr h)
    have hd' : d ≠ a := fun h => hdl (List.mem_singleton.mpr h)
    simp [admits, toLower_of_isLower hc, toLower_of_isLower hd, hc', hd']
  | anyOf as | noneOf as =>
    have hc' : c ∉ as := hcl
    have hd' : d ∉ as := hdl
    simp [admits, toLower_of_isLower hc, toLower_of_isLower hd, hc', hd']

/-- Letters that no rule asks for leave the same. -/
theorem after_congr {ps : List (Pending α)} {c d : Char} (hc : c.isLower = true) (hd : d.isLower = true)
    (hcs : c ∉ marks ps) (hds : d ∉ marks ps) : after ps c = after ps d := by
  induction ps with
  | nil => rfl
  | cons p ps ih =>
    rw [marks, List.flatMap_cons, List.mem_append, not_or] at hcs hds
    have hp : p.after? c = p.after? d := by
      obtain ⟨whole, letters, value⟩ := p
      cases letters with
      | nil => rfl
      | cons l ls => simp only [Pending.after?, l.admits_congr hc hd hcs.1 hds.1]
    have hps : ps.filterMap (·.after? c) = ps.filterMap (·.after? d) := ih hcs.2 hds.2
    rw [after, after, List.filterMap_cons, List.filterMap_cons, hp, hps]

def alphabet : List Char := Signature.lettersFrom 97 26

/-- Some characters, and one that stands for all others. -/
def probes (cs : List Char) : List Char := cs.eraseDups ++ (alphabet.find? (!cs.contains ·)).toList

theorem exists_probe {c : Char} (hc : c.isLower = true) (cs : List Char) :
    c ∈ probes cs ∨ c ∉ cs ∧ ∃ d ∈ probes cs, d.isLower = true ∧ d ∉ cs := by
  by_cases hmem : c ∈ cs
  · exact .inl (List.mem_append_left _ (List.mem_eraseDups.mpr hmem))
  · refine .inr ⟨hmem, ?_⟩
    cases hfind : alphabet.find? (!cs.contains ·) with
    | none =>
      have hall := List.find?_eq_none.mp hfind c (Signature.mem_of_isLower hc)
      simp [hmem] at hall
    | some d =>
      have hlower : ∀ d ∈ alphabet, d.isLower = true := by decide
      refine ⟨d, ?_, hlower d (List.mem_of_find?_eq_some hfind), ?_⟩
      · rw [probes, hfind]
        exact List.mem_append_right _ List.mem_cons_self
      · simpa using List.find?_some hfind

/-! ## Comparing two lists -/

/-- Whether two lists have the same value on all words on which a third one has none. -/
def agree [BEq β] : Nat → List (Pending α) → List (Pending β) → List (Pending β) → Bool
  | 0, _, _, _ => false
  | fuel + 1, es, ps, qs =>
    (settled? ps).isSome && settled? ps == settled? qs || (settled? es).any Option.isSome ||
      ((first? es []).isSome || first? ps [] == first? qs []) &&
        (probes (marks es ++ marks ps ++ marks qs)).all fun c =>
          agree fuel (after es c) (after ps c) (after qs c)

theorem agree_sound [BEq β] [LawfulBEq β] {fuel : Nat} {es : List (Pending α)} {ps qs : List (Pending β)}
    (h : agree fuel es ps qs = true) {u : List Char} (hu : IsSmall u) (hes : first? es u = none) :
    first? ps u = first? qs u := by
  induction fuel generalizing es ps qs u with
  | zero => cases h
  | succ fuel ih =>
    rw [agree, Bool.or_eq_true, Bool.or_eq_true, Bool.and_eq_true, Bool.and_eq_true] at h
    obtain (⟨hsome, hsame⟩ | hsettled) | ⟨hend, hall⟩ := h
    · obtain ⟨a, ha⟩ := Option.isSome_iff_exists.mp hsome
      have hb : settled? qs = some a := (beq_iff_eq.mp hsame).symm.trans ha
      rw [first_of_settled ha, first_of_settled hb]
    · cases ha : settled? es with
      | none =>
        rw [ha] at hsettled
        cases hsettled
      | some a =>
        rw [ha, Option.any_some, ← first_of_settled ha u, hes] at hsettled
        cases hsettled
    · cases u with
      | nil =>
        rw [hes, Option.isSome_none, Bool.false_or] at hend
        exact beq_iff_eq.mp hend
      | cons c u =>
        obtain ⟨hc, hu⟩ := List.forall_mem_cons.mp hu
        rw [first_cons] at hes ⊢
        rw [first_cons qs]
        rcases exists_probe hc (marks es ++ marks ps ++ marks qs) with hprobe | ⟨hmarks, d, hprobe, hd, hdm⟩
        · exact ih (List.all_eq_true.mp hall c hprobe) hu hes
        · -- No list tells `c` from `d`, which has been tried.
          simp only [List.mem_append, not_or] at hmarks hdm
          rw [after_congr hc hd hmarks.1.1 hdm.1.1] at hes
          rw [after_congr hc hd hmarks.1.2 hdm.1.2, after_congr hc hd hmarks.2 hdm.2]
          exact ih (List.all_eq_true.mp hall d hprobe) hu hes

end RbsSynth.Inflection
