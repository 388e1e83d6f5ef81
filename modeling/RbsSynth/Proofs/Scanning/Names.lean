import RbsSynth.Proofs.Scanning.Begins

/-!
# Names before other text

How the terminals that are names match a name with other text behind it.

    IsName first x,  Boundary rest  →  nameAt? first (x ++ rest) = some x.length           (nameAt?_eq)
-/

namespace RbsSynth.Signature

/-- A name whose first character satisfies `first`. -/
def IsName (first : Char → Bool) (x : List Char) : Prop :=
  ∃ c cs, x = c :: cs ∧ first c = true ∧ ∀ a ∈ cs, isNameChar a = true

/-- A text before which a name ends. -/
def Boundary (rest : List Char) : Prop := ∀ c cs, rest = c :: cs → isNameChar c = false

def IsUpperName (x : List Char) : Prop := IsName Char.isUpper x

def IsInterfaceName (x : List Char) : Prop := ∃ y, x = '_' :: y ∧ IsUpperName y

def IsLowerName (x : List Char) : Prop :=
  IsName (fun c => c.isLower || c == '_') x ∧ ¬ IsInterfaceName x

theorem Boundary.cons {c : Char} (h : isNameChar c = false) (cs : List Char) :
    Boundary (c :: cs) := by
  intro d ds he
  rw [← (List.cons.inj he).1]
  exact h

theorem Boundary.nil : Boundary [] := fun _ _ h => nomatch h

/-! ## Runs of name characters -/

theorem Boundary.takeWhile {rest : List Char} (h : Boundary rest) :
    rest.takeWhile isNameChar = [] := by
  cases rest with
  | nil => rfl
  | cons c cs => rw [List.takeWhile_cons, h c cs rfl]; rfl

theorem takeWhile_name {x rest : List Char} (hx : ∀ a ∈ x, isNameChar a = true)
    (h : Boundary rest) : (x ++ rest).takeWhile isNameChar = x := by
  rw [List.takeWhile_append_of_pos hx, h.takeWhile, List.append_nil]

theorem runLength_eq (f : Char → Bool) (cs : List Char) :
    runLength f cs = (cs.takeWhile f).length := by
  induction cs with
  | nil => rfl
  | cons c cs ih =>
    rw [runLength, List.takeWhile_cons]
    cases f c with
    | true => exact congrArg (· + 1) ih
    | false => rfl

theorem runLength_name {x rest : List Char} (hx : ∀ a ∈ x, isNameChar a = true)
    (h : Boundary rest) : runLength isNameChar (x ++ rest) = x.length := by
  rw [runLength_eq, takeWhile_name hx h]

theorem nameAt?_eq {first : Char → Bool} {x rest : List Char} (hx : IsName first x)
    (h : Boundary rest) : nameAt? first (x ++ rest) = some x.length := by
  obtain ⟨c, cs, rfl, hc, hcs⟩ := hx
  rw [List.cons_append, nameAt?, hc, runLength_name hcs h]
  rfl

/-! ## Lower-case names -/

theorem isAlpha_eq (c : Char) : c.isAlpha = (c.isUpper || c.isLower) := rfl

theorem isNameChar_of_isUpper {c : Char} (h : c.isUpper = true) : isNameChar c = true := by
  rw [isNameChar, Char.isAlphanum, isAlpha_eq, h]
  rfl

theorem isNameChar_of_isLower {c : Char} (h : c.isLower = true) : isNameChar c = true := by
  rw [isNameChar, Char.isAlphanum, isAlpha_eq, h, Bool.or_true]
  rfl

theorem IsName.nameChars {first : Char → Bool} {x : List Char} (hx : IsName first x)
    (hfirst : ∀ c, first c = true → isNameChar c = true) : ∀ a ∈ x, isNameChar a = true := by
  obtain ⟨c, cs, rfl, hc, hcs⟩ := hx
  intro a ha
  rcases List.mem_cons.mp ha with rfl | ha
  · exact hfirst _ hc
  · exact hcs a ha

theorem IsUpperName.nameChars {x : List Char} (hx : IsUpperName x) : ∀ a ∈ x, isNameChar a = true :=
  IsName.nameChars hx fun _ => isNameChar_of_isUpper

theorem isNameChar_of_lowerFirst {c : Char} (h : (c.isLower || c == '_') = true) :
    isNameChar c = true := by
  rcases Bool.or_eq_true_iff.mp h with h | h
  · exact isNameChar_of_isLower h
  · rw [beq_iff_eq.mp h]
    rfl

theorem IsLowerName.nameChars {x : List Char} (hx : IsLowerName x) : ∀ a ∈ x, isNameChar a = true :=
  hx.1.nameChars fun _ => isNameChar_of_lowerFirst

theorem lowerNameAt?_eq {x rest : List Char} (hx : IsLowerName x) (h : Boundary rest) :
    lowerNameAt? (x ++ rest) = some x.length := by
  obtain ⟨⟨c, cs, rfl, hc, hcs⟩, hnot⟩ := hx
  by_cases hu : c = '_'
  · subst hu
    cases cs with
    | nil =>
      cases rest with
      | nil => rfl
      | cons d ds =>
        have hd : d.isUpper = false := by
          rw [← Bool.not_eq_true]
          intro hd
          exact absurd ((h d ds rfl).symm.trans (isNameChar_of_isUpper hd)) (by decide)
        show (if d.isUpper then none else some (runLength isNameChar (d :: ds) + 1)) = _
        rw [hd, runLength, h d ds rfl]
        rfl
    | cons d ds =>
      have hd : d.isUpper = false := by
        rw [← Bool.not_eq_true]
        intro hd
        exact hnot ⟨d :: ds, rfl, d, ds, rfl, hd, fun a ha => hcs a (List.mem_cons_of_mem d ha)⟩
      show (if d.isUpper then none else some (runLength isNameChar (d :: ds ++ rest) + 1)) = _
      rw [hd, runLength_name hcs h]
      rfl
  · rw [List.cons_append, lowerNameAt?.eq_2 _ fun d ds he => hu (List.cons.inj he).1]
    exact nameAt?_eq ⟨c, cs, rfl, hc, hcs⟩ h

theorem lowerNameAt?_interface {x : List Char} (hx : IsInterfaceName x) (rest : List Char) :
    lowerNameAt? (x ++ rest) = none := by
  obtain ⟨_, rfl, c, cs, rfl, hc, _⟩ := hx
  show (if c.isUpper then none else _) = none
  rw [hc]
  rfl

theorem interfaceNameAt?_eq {x rest : List Char} (hx : IsInterfaceName x) (h : Boundary rest) :
    interfaceNameAt? (x ++ rest) = some x.length := by
  obtain ⟨y, rfl, hy⟩ := hx
  rw [List.cons_append, interfaceNameAt?, nameAt?_eq hy h]
  rfl

/-! ## Words -/

theorem wordAt?_eq {words : List String} {x rest : List Char} (hx : ∀ a ∈ x, isNameChar a = true)
    (h : Boundary rest) :
    wordAt? words (x ++ rest) = if words.any (·.toList == x) then some x.length else none := by
  simp only [wordAt?, takeWhile_name hx h]

/-! ## Labels and suffixed names -/

/-- A text that makes no label of a name before it. -/
def NoLabel (rest : List Char) : Prop :=
  ∀ c cs, rest = c :: cs → c ≠ ':' ∧ ((c = '?' ∨ c = '!') → ∀ ds, cs ≠ ':' :: ds)

/-- The key of a label: a name, perhaps with a mark. -/
def IsKey (x : List Char) : Prop :=
  ∃ y m, x = y ++ m ∧ IsLowerName y ∧ (m = [] ∨ m = ['?'] ∨ m = ['!'])

theorem drop_length_append (x rest : List Char) : (x ++ rest).drop x.length = rest :=
  List.drop_left

/-- The length of a label with a single colon behind `n` characters. -/
def colonAt? (n : Nat) : List Char → Option Nat
  | ':' :: ':' :: _ => none
  | ':' :: _ => some (n + 1)
  | _ => none

theorem colonAt?_eq {n : Nat} {rest : List Char} (h : ∀ cs, rest ≠ ':' :: cs) :
    colonAt? n (':' :: rest) = some (n + 1) := by
  rw [colonAt?.eq_def]
  split
  · next he => exact absurd (List.cons.inj he).2 (h _)
  · rfl
  · next hne => exact absurd rfl (hne rest)

theorem colonAt?_none {n : Nat} {rest : List Char} (h : ∀ cs, rest ≠ ':' :: cs) :
    colonAt? n rest = none := by
  rw [colonAt?.eq_def]
  split
  · rfl
  · exact absurd rfl (h _)
  · rfl

/-- The same behind a mark, if there is one. -/
def labelFrom? (n : Nat) : List Char → Option Nat
  | '?' :: cs | '!' :: cs => colonAt? (n + 1) cs
  | cs => colonAt? n cs

theorem labelAt?_of_lowerNameAt? {x rest : List Char}
    (h : lowerNameAt? (x ++ rest) = some x.length) :
    labelAt? (x ++ rest) = labelFrom? x.length rest := by
  have hdrop : ∀ c ds, rest = c :: ds → (x ++ rest).drop (x.length + 1) = ds := by
    intro c ds he
    rw [← List.drop_drop, drop_length_append, he]
    rfl
  rw [labelAt?, h]
  simp only [drop_length_append]
  cases rest with
  | nil => simp only [drop_length_append]; rfl
  | cons c ds =>
    by_cases hq : c = '?'
    · subst hq
      simp only [hdrop '?' ds rfl]
      rfl
    · by_cases hb : c = '!'
      · subst hb
        simp only [hdrop '!' ds rfl]
        rfl
      · simp only [labelFrom?, List.cons.injEq, hq, hb, false_and, imp_false, not_false_eq_true,
          implies_true, drop_length_append]
        rfl

theorem labelAt?_eq {x rest : List Char} (hx : IsKey x) (h : ∀ cs, rest ≠ ':' :: cs) :
    labelAt? (x ++ ':' :: rest) = some (x.length + 1) := by
  obtain ⟨y, m, rfl, hy, hm⟩ := hx
  rcases hm with rfl | rfl | rfl
  · rw [List.append_nil, labelAt?_of_lowerNameAt? (lowerNameAt?_eq hy (.cons rfl rest))]
    exact colonAt?_eq h
  · have hb : Boundary ('?' :: ':' :: rest) := .cons rfl _
    have hl := lowerNameAt?_eq hy hb
    rw [List.append_assoc, List.cons_append, List.nil_append, labelAt?_of_lowerNameAt? hl,
      List.length_append]
    exact colonAt?_eq h
  · have hb : Boundary ('!' :: ':' :: rest) := .cons rfl _
    have hl := lowerNameAt?_eq hy hb
    rw [List.append_assoc, List.cons_append, List.nil_append, labelAt?_of_lowerNameAt? hl,
      List.length_append]
    exact colonAt?_eq h

theorem labelAt?_none {x rest : List Char} (hx : IsLowerName x) (hb : Boundary rest)
    (h : NoLabel rest) : labelAt? (x ++ rest) = none := by
  rw [labelAt?_of_lowerNameAt? (lowerNameAt?_eq hx hb)]
  fun_cases labelFrom? x.length rest with
  | case1 ds => exact colonAt?_none ((h '?' ds rfl).2 (.inl rfl))
  | case2 ds => exact colonAt?_none ((h '!' ds rfl).2 (.inr rfl))
  | case3 => exact colonAt?_none fun cs he => (h ':' cs he).1 rfl

/-- A text that makes no suffixed name of a name before it. -/
def NoSuffix (rest : List Char) : Prop := ∀ c cs, rest = c :: cs → isSuffix c = false

theorem suffixedAt?_eq {x : List Char} {c : Char} (hx : IsName isNameStart x)
    (hc : isSuffix c = true) (rest : List Char) :
    suffixedAt? (x ++ c :: rest) = some (x.length + 1) := by
  have hb : isNameChar c = false := by
    rw [isSuffix, Bool.or_eq_true, Bool.or_eq_true, beq_iff_eq, beq_iff_eq, beq_iff_eq] at hc
    rcases hc with (rfl | rfl) | rfl <;> rfl
  rw [suffixedAt?, nameAt?_eq hx (.cons hb rest)]
  simp only [drop_length_append, hc, if_true]

theorem suffixedAt?_none {x rest : List Char} (hx : IsName isNameStart x) (hb : Boundary rest)
    (h : NoSuffix rest) : suffixedAt? (x ++ rest) = none := by
  rw [suffixedAt?, nameAt?_eq hx hb]
  simp only [drop_length_append]
  cases rest with
  | nil => rfl
  | cons c cs => simp only [h c cs rfl]; rfl

end RbsSynth.Signature
