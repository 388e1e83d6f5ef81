import RbsSynth.Proofs.Scanning.Names

/-!
# Paths, literals and other texts before more text

How the terminals that are not single names match a text with other text behind it.
-/

namespace RbsSynth.Signature

/-! ## Paths -/

def colons : List Char := [':', ':']

/-- The names of a path, each with its colons behind it. -/
def pathText (segments : List (List Char)) : List Char := segments.flatMap (· ++ colons)

/-- A text that does not go on a path. -/
def PathEnd (rest : List Char) : Prop :=
  ∀ pos best, pathLength .start pos best rest = best

theorem pathLength_name {x : List Char} (hx : ∀ a ∈ x, isNameChar a = true) (pos best : Nat)
    (rest : List Char) :
    pathLength .name pos best (x ++ rest) = pathLength .name (pos + x.length) best rest := by
  induction x generalizing pos with
  | nil => rfl
  | cons a x ih =>
    rw [List.cons_append, pathLength, if_pos (hx a List.mem_cons_self),
      ih fun b hb => hx b (List.mem_cons_of_mem a hb), List.length_cons, Nat.add_assoc,
      Nat.add_comm 1]

theorem pathLength_segment {x : List Char} (hx : IsUpperName x) (pos best : Nat)
    (rest : List Char) : pathLength .start pos best (x ++ colons ++ rest)
      = pathLength .start (pos + x.length + 2) (pos + x.length + 2) rest := by
  obtain ⟨c, cs, rfl, hc, hcs⟩ := hx
  rw [List.append_assoc, List.cons_append, pathLength, if_pos hc, pathLength_name hcs]
  show pathLength .name _ _ (':' :: ':' :: rest) = _
  have hlen : pos + 1 + cs.length + 1 + 1 = pos + (cs.length + 1) + 2 := by omega
  rw [pathLength, if_neg (by decide), if_pos (beq_self_eq_true ':'), pathLength,
    if_pos (beq_self_eq_true ':'), List.length_cons, hlen]

theorem pathLength_path {segments : List (List Char)} (hs : ∀ x ∈ segments, IsUpperName x)
    (pos : Nat) {rest : List Char} (h : PathEnd rest) :
    pathLength .start pos pos (pathText segments ++ rest) = pos + (pathText segments).length := by
  induction segments generalizing pos with
  | nil => exact h pos pos
  | cons x segments ih =>
    have htext : pathText (x :: segments) = x ++ colons ++ pathText segments := List.flatMap_cons
    rw [htext, List.append_assoc, pathLength_segment (hs x List.mem_cons_self),
      ih (fun y hy => hs y (List.mem_cons_of_mem x hy)), List.length_append, List.length_append]
    show _ = pos + (x.length + 2 + _)
    omega

/-- A text that does not go on with two colons. -/
def NoColons (rest : List Char) : Prop := ∀ cs, rest ≠ ':' :: ':' :: cs

theorem pathEnd_upper {x rest : List Char} (hx : IsUpperName x) (hb : Boundary rest)
    (h : NoColons rest) : PathEnd (x ++ rest) := by
  intro pos best
  obtain ⟨c, cs, rfl, hc, hcs⟩ := hx
  rw [List.cons_append, pathLength, if_pos hc, pathLength_name hcs]
  cases rest with
  | nil => rw [pathLength]
  | cons d ds =>
    rw [pathLength, hb d ds rfl, if_neg (by decide)]
    by_cases hd : d = ':'
    · subst hd
      rw [if_pos (beq_self_eq_true ':')]
      cases ds with
      | nil => rw [pathLength]
      | cons e es =>
        rw [pathLength, if_neg]
        rw [beq_iff_eq]
        rintro rfl
        exact h es rfl
    · rw [if_neg (by rwa [beq_iff_eq])]

theorem pathEnd_other {c : Char} (hc : c.isUpper = false) (cs : List Char) :
    PathEnd (c :: cs) := by
  intro pos best
  rw [pathLength, hc]
  rfl

theorem namespaceAt?_relative {segments : List (List Char)} (hs : ∀ x ∈ segments, IsUpperName x)
    (hne : segments ≠ []) {rest : List Char} (h : PathEnd rest) :
    namespaceAt? (pathText segments ++ rest) = some (pathText segments).length := by
  obtain ⟨x, segments, rfl⟩ := List.exists_cons_of_ne_nil hne
  have hlen := pathLength_path hs 0 h
  obtain ⟨c, cs, rfl, hc, _⟩ := hs x List.mem_cons_self
  have htext : pathText ((c :: cs) :: segments) = c :: (cs ++ colons ++ pathText segments) :=
    List.flatMap_cons
  rw [htext] at hlen ⊢
  rw [List.cons_append] at hlen ⊢
  rw [namespaceAt?.eq_2 _ fun ds he => by
    rw [(List.cons.inj he).1] at hc
    exact absurd hc (by decide), hlen]
  simp only [Nat.zero_add, List.length_cons]

theorem namespaceAt?_absolute {segments : List (List Char)} (hs : ∀ x ∈ segments, IsUpperName x)
    {rest : List Char} (h : PathEnd rest) :
    namespaceAt? (colons ++ pathText segments ++ rest) = some (colons ++ pathText segments).length := by
  show some (pathLength .start 0 0 (pathText segments ++ rest) + 2) = _
  rw [pathLength_path hs 0 h, List.length_append, Nat.zero_add, Nat.add_comm]
  rfl

/-- A name alone is no path. -/
theorem namespaceAt?_none {c : Char} {cs : List Char} (hc : c ≠ ':') (h : PathEnd (c :: cs)) :
    namespaceAt? (c :: cs) = none := by
  rw [namespaceAt?.eq_2 _ fun ds he => hc (List.cons.inj he).1, h]

/-! ## Quoted texts -/

theorem quotedRest?_cons {quote c : Char} (hc : c ≠ '\\') (cs : List Char) :
    quotedRest? quote (c :: cs)
      = if c == quote then some 1 else (quotedRest? quote cs).map (· + 1) :=
  quotedRest?.eq_4 quote c cs (fun h _ => hc h) fun _ _ h _ => hc h

theorem quotedRest?_append {quote : Char} {y : List Char} {n : Nat}
    (h : quotedRest? quote y = some n) (rest : List Char) :
    quotedRest? quote (y ++ rest) = some n := by
  induction y using quotedRest?.induct (quote) generalizing n with
  | case1 => cases h
  | case2 => cases h
  | case3 c cs hc => rw [quotedRest?, if_pos hc] at h; cases h
  | case4 c cs hc ih =>
    rw [quotedRest?, if_neg hc, Option.map_eq_some_iff] at h
    obtain ⟨m, hm, rfl⟩ := h
    show quotedRest? quote ('\\' :: c :: (cs ++ rest)) = _
    rw [quotedRest?, if_neg hc, ih hm]
    rfl
  | case5 c cs h1 h2 hc =>
    have hne : c ≠ '\\' := fun he => by
      cases cs with
      | nil => exact h1 he rfl
      | cons d ds => exact h2 d ds he rfl
    rw [quotedRest?_cons hne, if_pos hc] at h
    rw [List.cons_append, quotedRest?_cons hne, if_pos hc, h]
  | case6 c cs h1 h2 hc ih =>
    have hne : c ≠ '\\' := fun he => by
      cases cs with
      | nil => exact h1 he rfl
      | cons d ds => exact h2 d ds he rfl
    rw [quotedRest?_cons hne, if_neg hc, Option.map_eq_some_iff] at h
    obtain ⟨m, hm, rfl⟩ := h
    rw [List.cons_append, quotedRest?_cons hne, if_neg hc, ih hm]
    rfl

def IsString (x : List Char) : Prop :=
  ∃ q y, (q = '"' ∨ q = '\'') ∧ x = q :: y ∧ quotedRest? q y = some y.length

theorem stringAt?_eq {x : List Char} (hx : IsString x) (rest : List Char) :
    stringAt? (x ++ rest) = some x.length := by
  obtain ⟨q, y, rfl | rfl, rfl, hy⟩ := hx
  · show (quotedRest? '"' (y ++ rest)).map (· + 1) = _
    rw [quotedRest?_append hy]
    rfl
  · show (quotedRest? '\'' (y ++ rest)).map (· + 1) = _
    rw [quotedRest?_append hy]
    rfl

/-! ## Symbols -/

/-- A symbol without a suffix or quotes. -/
def IsBareSymbol (x : List Char) : Prop := ∃ y, x = ':' :: y ∧ IsName isNameStart y

/-- A symbol that no text behind it can lengthen. -/
def IsClosedSymbol (x : List Char) : Prop :=
  (∃ y s, x = ':' :: (y ++ [s]) ∧ IsName isNameStart y ∧ isSuffix s = true) ∨
    ∃ y, x = ':' :: '"' :: y ∧ quotedRest? '"' y = some y.length

theorem isNameChar_of_isNameStart {c : Char} (h : isNameStart c = true) : isNameChar c = true := by
  rw [isNameStart, Bool.or_eq_true] at h
  rw [isNameChar, Char.isAlphanum]
  rcases h with h | h
  · rw [h]
    rfl
  · rw [h, Bool.or_true]

theorem symbolAt?_name {y : List Char} (hy : IsName isNameStart y) (rest : List Char) :
    ∀ cs, y ++ rest ≠ '"' :: cs := by
  obtain ⟨c, cs, rfl, hc, _⟩ := hy
  intro ds he
  rw [(List.cons.inj he).1] at hc
  exact absurd hc (by decide)

theorem symbolAt?_bare {x rest : List Char} (hx : IsBareSymbol x) (hb : Boundary rest)
    (h : NoSuffix rest) : symbolAt? (x ++ rest) = some x.length := by
  obtain ⟨y, rfl, hy⟩ := hx
  rw [List.cons_append, symbolAt?.eq_2 _ (symbolAt?_name hy rest), nameAt?_eq hy hb]
  simp only [drop_length_append]
  cases rest with
  | nil => rfl
  | cons c cs =>
    simp only [h c cs rfl]
    rfl

theorem not_isNameChar_of_isSuffix {c : Char} (h : isSuffix c = true) : isNameChar c = false := by
  rw [isSuffix, Bool.or_eq_true, Bool.or_eq_true, beq_iff_eq, beq_iff_eq, beq_iff_eq] at h
  rcases h with (rfl | rfl) | rfl <;> rfl

theorem symbolAt?_closed {x : List Char} (hx : IsClosedSymbol x) (rest : List Char) :
    symbolAt? (x ++ rest) = some x.length := by
  rcases hx with ⟨y, s, rfl, hy, hs⟩ | ⟨y, rfl, hy⟩
  · rw [List.cons_append, List.append_assoc, List.singleton_append,
      symbolAt?.eq_2 _ (symbolAt?_name hy _),
      nameAt?_eq hy (.cons (not_isNameChar_of_isSuffix hs) rest)]
    simp only [drop_length_append, hs, if_true, List.length_cons, List.length_append,
      List.length_nil]
  · show symbolAt? (':' :: '"' :: (y ++ rest)) = _
    rw [symbolAt?, quotedRest?_append hy]
    rfl

/-! ## Numbers -/

def IsDigits (x : List Char) : Prop :=
  ∃ c cs, x = c :: cs ∧ c.isDigit = true ∧ ∀ a ∈ cs, (a.isDigit || a == '_') = true

def IsInteger (x : List Char) : Prop := IsDigits x ∨ ∃ y, x = '-' :: y ∧ IsDigits y

theorem digitsAt?_eq {x rest : List Char} (hx : IsDigits x) (hb : Boundary rest) :
    digitsAt? (x ++ rest) = some x.length := by
  obtain ⟨c, cs, rfl, hc, hcs⟩ := hx
  have hrest : rest.takeWhile (fun d => d.isDigit || d == '_') = [] := by
    cases rest with
    | nil => rfl
    | cons d ds =>
      have hd := hb d ds rfl
      rw [isNameChar, Char.isAlphanum, Bool.or_eq_false_iff, Bool.or_eq_false_iff] at hd
      rw [List.takeWhile_cons, hd.1.2, hd.2]
      rfl
  rw [List.cons_append, digitsAt?, if_pos hc, runLength_eq, List.takeWhile_append_of_pos hcs, hrest,
    List.append_nil]
  rfl

theorem integerAt?_eq {x rest : List Char} (hx : IsInteger x) (hb : Boundary rest) :
    integerAt? (x ++ rest) = some x.length := by
  rcases hx with hx | ⟨y, rfl, hy⟩
  · have hdigits := digitsAt?_eq hx hb
    obtain ⟨c, cs, rfl, hc, _⟩ := hx
    rw [List.cons_append] at hdigits ⊢
    rw [integerAt?.eq_2 _ fun ds he => by
      rw [(List.cons.inj he).1] at hc
      exact absurd hc (by decide)]
    exact hdigits
  · rw [List.cons_append, integerAt?, digitsAt?_eq hy hb]
    rfl

/-! ## Names behind a sign -/

theorem signedNameAt?_eq {sign : Char} {x rest : List Char} (hx : IsName isNameStart x)
    (hb : Boundary rest) : signedNameAt? sign (sign :: x ++ rest) = some (x.length + 1) := by
  rw [List.cons_append, signedNameAt?, if_pos (beq_self_eq_true sign), nameAt?_eq hx hb]
  rfl

/-! ## Operators and annotations -/

/-- The characters that may stand behind a method name. -/
def behindName : List Char := [' ', '\n', ':']

theorem isPrefixOf_append {c : Char} {p : List Char} (hc : c ∉ p) (x rest : List Char) :
    p.isPrefixOf (x ++ c :: rest) = p.isPrefixOf x := by
  induction p generalizing x with
  | nil => rw [List.isPrefixOf, List.isPrefixOf]
  | cons a p ih =>
    rw [List.mem_cons, not_or] at hc
    cases x with
    | nil =>
      show (a == c && _) = false
      rw [beq_eq_false_iff_ne.mpr (Ne.symm hc.1), Bool.false_and]
    | cons b x => rw [List.cons_append, List.isPrefixOf, List.isPrefixOf, ih hc.2]

theorem operatorAt?_eq {o : String} (ho : o ∈ operators) {c : Char} (hc : c ∈ behindName)
    (rest : List Char) : operatorAt? (o.toList ++ c :: rest) = some o.toList.length := by
  have hnot : ∀ p ∈ operators, ∀ c ∈ behindName, c ∉ p.toList := by decide
  have hself : ∀ o ∈ operators, operatorAt? o.toList = some o.toList.length := by decide
  have hsame : ∀ ps : List String, (∀ p ∈ ps, c ∉ p.toList) →
      ps.findSome? (fun p => spelledAt? p.toList (o.toList ++ c :: rest))
        = ps.findSome? (fun p => spelledAt? p.toList o.toList) := by
    intro ps hps
    induction ps with
    | nil => rfl
    | cons p ps ih =>
      rw [List.findSome?_cons, List.findSome?_cons, spelledAt?, spelledAt?,
        isPrefixOf_append (hps p List.mem_cons_self), ih fun q hq => hps q (List.mem_cons_of_mem p hq)]
  rw [← hself o ho, operatorAt?, operatorAt?]
  exact hsame operators fun p hp => hnot p hp c hc

theorem delimitedRest?_eq {closing : Char} {body : List Char} (h : closing ∉ body)
    (rest : List Char) :
    delimitedRest? closing (body ++ closing :: rest) = some (body.length + 1) := by
  induction body with
  | nil => rw [List.nil_append, delimitedRest?, if_pos (beq_self_eq_true closing)]; rfl
  | cons a body ih =>
    rw [List.mem_cons, not_or] at h
    rw [List.cons_append, delimitedRest?, if_neg (by rw [beq_iff_eq]; exact fun he => h.1 he.symm),
      ih h.2]
    rfl

theorem annotationAt?_eq {d : Char × Char} (hd : d ∈ annotationDelimiters) {body : List Char}
    (h : d.2 ∉ body) (rest : List Char) :
    annotationAt? ('%' :: 'a' :: d.1 :: (body ++ d.2 :: rest)) = some (body.length + 4) := by
  have hfind : ∀ d ∈ annotationDelimiters, annotationDelimiters.find? (·.1 == d.1) = some d := by
    decide
  rw [annotationAt?, hfind d hd]
  simp only [delimitedRest?_eq h, Option.map_some]

end RbsSynth.Signature
