import RbsSynth.Proofs.Scanning.Taken

/-!
# Texts before the end of a line

A line feed ends every token but blanks, quoted texts and annotations, and these too if nothing behind
it can close them (`IsCalm`).

    IsCalm r,  cs starts with no blank  →  lexicon.next? (cs ++ '\n' :: r) = lexicon.next? cs
                                                                              (next?_append_line)
-/

namespace RbsSynth.Signature

open Terminal

/-- The characters that close a quoted text or an annotation. -/
def closers : List Char := ['"', '\'', '\x7d', ')', ']', '>', '|']

/-- A text that closes nothing. -/
def IsCalm (r : List Char) : Prop := ∀ c ∈ closers, c ∉ r

variable {r : List Char}

theorem runLength_append_line {f : Char → Bool} (hf : f '\n' = false) (cs r : List Char) :
    runLength f (cs ++ '\n' :: r) = runLength f cs := by
  induction cs with
  | nil =>
    show (if f '\n' then _ else 0) = 0
    rw [hf]
    rfl
  | cons c cs ih => rw [List.cons_append, runLength, runLength, ih]

theorem nameAt?_append_line (first : Char → Bool) {cs : List Char} (hcs : cs ≠ []) (r : List Char) :
    nameAt? first (cs ++ '\n' :: r) = nameAt? first cs := by
  obtain ⟨c, cs, rfl⟩ := List.exists_cons_of_ne_nil hcs
  rw [List.cons_append, nameAt?, nameAt?, runLength_append_line rfl]

theorem lowerNameAt?_append_line {cs : List Char} (hcs : cs ≠ []) (r : List Char) :
    lowerNameAt? (cs ++ '\n' :: r) = lowerNameAt? cs := by
  match cs with
  | [] => exact absurd rfl hcs
  | [c] =>
    by_cases hc : c = '_'
    · subst hc
      rfl
    · rw [List.singleton_append, lowerNameAt?.eq_2 _ fun d ds he => hc (List.cons.inj he).1,
        lowerNameAt?.eq_2 _ fun d ds he => hc (List.cons.inj he).1]
      exact nameAt?_append_line _ (List.cons_ne_nil c []) r
  | c :: d :: cs =>
    by_cases hc : c = '_'
    · subst hc
      show (if d.isUpper then none else some (runLength isNameChar (d :: cs ++ '\n' :: r) + 1)) = _
      rw [runLength_append_line rfl]
      rfl
    · rw [List.cons_append, lowerNameAt?.eq_2 _ fun d ds he => hc (List.cons.inj he).1,
        lowerNameAt?.eq_2 _ fun d ds he => hc (List.cons.inj he).1]
      exact nameAt?_append_line _ (List.cons_ne_nil c (d :: cs)) r

theorem interfaceNameAt?_append_line {cs : List Char} (hcs : cs ≠ []) (r : List Char) :
    interfaceNameAt? (cs ++ '\n' :: r) = interfaceNameAt? cs := by
  match cs with
  | [] => exact absurd rfl hcs
  | [c] =>
    by_cases hc : c = '_'
    · subst hc
      rfl
    · rw [List.singleton_append, interfaceNameAt?.eq_2 _ fun ds he => hc (List.cons.inj he).1,
        interfaceNameAt?.eq_2 _ fun ds he => hc (List.cons.inj he).1]
  | c :: d :: cs =>
    by_cases hc : c = '_'
    · subst hc
      show (nameAt? Char.isUpper (d :: cs ++ '\n' :: r)).map _ = _
      rw [nameAt?_append_line _ (List.cons_ne_nil d cs)]
      rfl
    · rw [List.cons_append, interfaceNameAt?.eq_2 _ fun ds he => hc (List.cons.inj he).1,
        interfaceNameAt?.eq_2 _ fun ds he => hc (List.cons.inj he).1]

theorem pathLength_append_line (stage : PathStage) (pos best : Nat) (cs r : List Char) :
    pathLength stage pos best (cs ++ '\n' :: r) = pathLength stage pos best cs := by
  induction cs generalizing stage pos best with
  | nil => cases stage <;> rfl
  | cons c cs ih =>
    cases stage
    · rw [List.cons_append, pathLength, pathLength, ih]
    · rw [List.cons_append, pathLength, pathLength, ih, ih]
    · rw [List.cons_append, pathLength, pathLength, ih]

theorem namespaceAt?_append_line {cs : List Char} (hcs : cs ≠ []) (r : List Char) :
    namespaceAt? (cs ++ '\n' :: r) = namespaceAt? cs := by
  have hrelative : ∀ cs : List Char, (∀ ds, cs ≠ ':' :: ':' :: ds) →
      (∀ ds, cs ++ '\n' :: r ≠ ':' :: ':' :: ds) →
      namespaceAt? (cs ++ '\n' :: r) = namespaceAt? cs := by
    intro cs h h'
    rw [namespaceAt?.eq_2 _ fun ds he => h' ds he, namespaceAt?.eq_2 _ fun ds he => h ds he,
      pathLength_append_line]
  rcases cs with _ | ⟨c, _ | ⟨d, cs⟩⟩
  · exact absurd rfl hcs
  · refine hrelative [c] (fun ds he => ?_) fun ds he => ?_
    · cases (List.cons.inj he).2
    · exact absurd (List.cons.inj (List.cons.inj he).2).1 (by decide)
  · by_cases hc : c = ':' ∧ d = ':'
    · obtain ⟨rfl, rfl⟩ := hc
      show some (pathLength .start 0 0 (cs ++ '\n' :: r) + 2) = _
      rw [pathLength_append_line]
      rfl
    · refine hrelative (c :: d :: cs) (fun ds he => hc ?_) fun ds he => hc ?_
      · exact ⟨(List.cons.inj he).1, (List.cons.inj (List.cons.inj he).2).1⟩
      · exact ⟨(List.cons.inj he).1, (List.cons.inj (List.cons.inj he).2).1⟩

theorem wordAt?_append_line (words : List String) (cs r : List Char) :
    wordAt? words (cs ++ '\n' :: r) = wordAt? words cs := by
  have htake : (cs ++ '\n' :: r).takeWhile isNameChar = cs.takeWhile isNameChar := by
    induction cs with
    | nil => rfl
    | cons c cs ih => rw [List.cons_append, List.takeWhile_cons, List.takeWhile_cons, ih]
  simp only [wordAt?, htake]

theorem spelledAt?_append_line {s : List Char} (hs : '\n' ∉ s) (cs r : List Char) :
    spelledAt? s (cs ++ '\n' :: r) = spelledAt? s cs := by
  rw [spelledAt?, spelledAt?, isPrefixOf_append hs]

theorem operatorAt?_append_line (cs r : List Char) :
    operatorAt? (cs ++ '\n' :: r) = operatorAt? cs := by
  have hall : ∀ o ∈ operators, '\n' ∉ o.toList := by decide
  rw [operatorAt?, operatorAt?]
  revert hall
  induction operators with
  | nil => exact fun _ => rfl
  | cons o os ih =>
    intro hall
    rw [List.findSome?_cons, List.findSome?_cons, spelledAt?_append_line (hall o List.mem_cons_self),
      ih fun p hp => hall p (List.mem_cons_of_mem o hp)]

/-- What stands behind a name is looked at one or two characters far. -/
theorem drop_append_line {P : List Char → Prop} {cs : List Char} {n : Nat} (h : StartsWith P n cs)
    (r : List Char) : (cs ++ '\n' :: r).drop n = cs.drop n ++ '\n' :: r := by
  obtain ⟨x, rest, rfl, rfl, _⟩ := h
  rw [List.append_assoc, List.drop_left, List.drop_left]

theorem colonAt?_append_line (n : Nat) (cs r : List Char) :
    colonAt? n (cs ++ '\n' :: r) = colonAt? n cs := by
  match cs with
  | [] => rfl
  | [c] =>
    by_cases hc : c = ':'
    · subst hc
      rfl
    · have hne : ∀ x : List Char, ∀ ds, c :: x ≠ ':' :: ds := fun x ds he => hc (List.cons.inj he).1
      rw [colonAt?_none (hne []), List.singleton_append, colonAt?_none (hne _)]
  | c :: d :: cs =>
    by_cases hc : c = ':'
    · subst hc
      by_cases hd : d = ':'
      · subst hd
        rfl
      · have hne : ∀ x : List Char, ∀ ds, d :: x ≠ ':' :: ds := fun x ds he => hd (List.cons.inj he).1
        rw [colonAt?_eq (hne cs), List.cons_append, List.cons_append, colonAt?_eq (hne _)]
    · have hne : ∀ x : List Char, ∀ ds, c :: x ≠ ':' :: ds := fun x ds he => hc (List.cons.inj he).1
      rw [colonAt?_none (hne _), List.cons_append, colonAt?_none (hne _)]

theorem labelFrom?_append_line (n : Nat) (cs r : List Char) :
    labelFrom? n (cs ++ '\n' :: r) = labelFrom? n cs := by
  cases cs with
  | nil => rfl
  | cons c cs =>
    by_cases hq : c = '?'
    · subst hq
      exact colonAt?_append_line (n + 1) cs r
    · by_cases hb : c = '!'
      · subst hb
        exact colonAt?_append_line (n + 1) cs r
      · rw [List.cons_append, labelFrom?.eq_3 _ _ (fun ds he => hq (List.cons.inj he).1)
          fun ds he => hb (List.cons.inj he).1, labelFrom?.eq_3 _ _
          (fun ds he => hq (List.cons.inj he).1) fun ds he => hb (List.cons.inj he).1]
        exact colonAt?_append_line n (c :: cs) r

theorem labelAt?_append_line {cs : List Char} (hcs : cs ≠ []) (r : List Char) :
    labelAt? (cs ++ '\n' :: r) = labelAt? cs := by
  have hl := lowerNameAt?_append_line hcs r
  cases hm : lowerNameAt? cs with
  | none =>
    rw [hm] at hl
    rw [labelAt?, labelAt?, hl, hm]
  | some m =>
    obtain ⟨x, rest, rfl, rfl, _⟩ := takes_of_lowerNameAt? hm
    rw [hm, List.append_assoc] at hl
    rw [List.append_assoc, labelAt?_of_lowerNameAt? hl, labelAt?_of_lowerNameAt? hm,
      labelFrom?_append_line]

theorem suffixedAt?_append_line {cs : List Char} (hcs : cs ≠ []) (r : List Char) :
    suffixedAt? (cs ++ '\n' :: r) = suffixedAt? cs := by
  rw [suffixedAt?, suffixedAt?, nameAt?_append_line _ hcs]
  cases hm : nameAt? isNameStart cs with
  | none => rfl
  | some m =>
    simp only [drop_append_line (takes_of_nameAt? hm)]
    cases cs.drop m with
    | nil => rfl
    | cons c ds => rfl

/-! ## Quoted and delimited texts -/

theorem quotedRest?_none {quote : Char} {cs : List Char} (h : quote ∉ cs) :
    quotedRest? quote cs = none := by
  cases hq : quotedRest? quote cs with
  | none => rfl
  | some n =>
    exfalso
    induction cs using quotedRest?.induct (quote) generalizing n with
    | case1 => cases hq
    | case2 => cases hq
    | case3 c cs hc => rw [quotedRest?, if_pos hc] at hq; cases hq
    | case4 c cs hc ih =>
      rw [quotedRest?, if_neg hc, Option.map_eq_some_iff] at hq
      obtain ⟨m, hm, _⟩ := hq
      exact ih (fun hmem => h (List.mem_cons_of_mem _ (List.mem_cons_of_mem _ hmem))) m hm
    | case5 c cs h1 h2 hc =>
      rw [beq_iff_eq.mp hc] at h
      exact h List.mem_cons_self
    | case6 c cs h1 h2 hc ih =>
      have hne : c ≠ '\\' := fun he => by
        cases cs with
        | nil => exact h1 he rfl
        | cons d ds => exact h2 d ds he rfl
      rw [quotedRest?_cons hne, if_neg hc, Option.map_eq_some_iff] at hq
      obtain ⟨m, hm, _⟩ := hq
      exact ih (fun hmem => h (List.mem_cons_of_mem _ hmem)) m hm

theorem quotedRest?_append_line {quote : Char} (hr : quote ∉ '\n' :: r) (cs : List Char) :
    quotedRest? quote (cs ++ '\n' :: r) = quotedRest? quote cs := by
  induction cs using quotedRest?.induct (quote) with
  | case1 => exact quotedRest?_none hr
  | case2 => rfl
  | case3 c cs hc =>
    show quotedRest? quote ('\\' :: c :: (cs ++ '\n' :: r)) = _
    rw [quotedRest?, quotedRest?, if_pos hc, if_pos hc]
  | case4 c cs hc ih =>
    show quotedRest? quote ('\\' :: c :: (cs ++ '\n' :: r)) = _
    rw [quotedRest?, quotedRest?, if_neg hc, if_neg hc, ih]
  | case5 c cs h1 h2 hc =>
    have hne : c ≠ '\\' := fun he => by
      cases cs with
      | nil => exact h1 he rfl
      | cons d ds => exact h2 d ds he rfl
    rw [List.cons_append, quotedRest?_cons hne, quotedRest?_cons hne, if_pos hc, if_pos hc]
  | case6 c cs h1 h2 hc ih =>
    have hne : c ≠ '\\' := fun he => by
      cases cs with
      | nil => exact h1 he rfl
      | cons d ds => exact h2 d ds he rfl
    rw [List.cons_append, quotedRest?_cons hne, quotedRest?_cons hne, if_neg hc, if_neg hc, ih]

theorem IsCalm.not_mem {c : Char} (h : IsCalm r) (hc : c ∈ closers) : c ∉ '\n' :: r := by
  intro hmem
  rcases List.mem_cons.mp hmem with rfl | hmem
  · exact absurd hc (by decide)
  · exact h c hc hmem

theorem stringAt?_append_line (h : IsCalm r) {cs : List Char} (hcs : cs ≠ []) :
    stringAt? (cs ++ '\n' :: r) = stringAt? cs := by
  obtain ⟨c, cs, rfl⟩ := List.exists_cons_of_ne_nil hcs
  by_cases hd : c = '"'
  · subst hd
    show (quotedRest? '"' (cs ++ '\n' :: r)).map _ = _
    rw [quotedRest?_append_line (h.not_mem (by decide))]
    rfl
  · by_cases hs : c = '\''
    · subst hs
      show (quotedRest? '\'' (cs ++ '\n' :: r)).map _ = _
      rw [quotedRest?_append_line (h.not_mem (by decide))]
      rfl
    · rw [List.cons_append, stringAt?.eq_3 _ (fun ds he => hd (List.cons.inj he).1)
        fun ds he => hs (List.cons.inj he).1, stringAt?.eq_3 _ (fun ds he => hd (List.cons.inj he).1)
        fun ds he => hs (List.cons.inj he).1]

theorem symbolAt?_append_line (h : IsCalm r) {cs : List Char} (hcs : cs ≠ []) :
    symbolAt? (cs ++ '\n' :: r) = symbolAt? cs := by
  match cs with
  | [] => exact absurd rfl hcs
  | [c] =>
    by_cases hc : c = ':'
    · subst hc
      rfl
    · rw [List.singleton_append, symbolAt?.eq_3 _ (fun ds he => hc (List.cons.inj he).1)
        fun ds he => hc (List.cons.inj he).1, symbolAt?.eq_3 _ (fun ds he => hc (List.cons.inj he).1)
        fun ds he => hc (List.cons.inj he).1]
  | c :: d :: cs =>
    by_cases hc : c = ':'
    · subst hc
      by_cases hd : d = '"'
      · subst hd
        show (quotedRest? '"' (cs ++ '\n' :: r)).map _ = _
        rw [quotedRest?_append_line (h.not_mem (by decide))]
        rfl
      · have hbare : ∀ ds : List Char, symbolAt? (':' :: d :: ds) = _ := fun ds =>
          symbolAt?.eq_2 (d :: ds) fun es he => hd (List.cons.inj he).1
        rw [List.cons_append, List.cons_append, hbare, hbare, ← List.cons_append,
          nameAt?_append_line _ (List.cons_ne_nil d cs)]
        cases hm : nameAt? isNameStart (d :: cs) with
        | none => rfl
        | some m =>
          simp only [drop_append_line (takes_of_nameAt? hm)]
          cases (d :: cs).drop m with
          | nil => rfl
          | cons e ds => rfl
    · rw [List.cons_append, symbolAt?.eq_3 _ (fun ds he => hc (List.cons.inj he).1)
        fun ds he => hc (List.cons.inj he).1, symbolAt?.eq_3 _ (fun ds he => hc (List.cons.inj he).1)
        fun ds he => hc (List.cons.inj he).1]

theorem delimitedRest?_append_line {closing : Char} (hr : closing ∉ '\n' :: r) (cs : List Char) :
    delimitedRest? closing (cs ++ '\n' :: r) = delimitedRest? closing cs := by
  induction cs with
  | nil =>
    cases hd : delimitedRest? closing ('\n' :: r) with
    | none => exact hd
    | some n =>
      obtain ⟨_, rest, he, _, body, rfl, _⟩ := takes_of_delimitedRest? hd
      rw [he] at hr
      exact absurd (List.mem_append_left rest (List.mem_append_right body List.mem_cons_self)) hr
  | cons c cs ih => rw [List.cons_append, delimitedRest?, delimitedRest?, ih]

theorem annotationAt?_append_line (h : IsCalm r) (cs : List Char) :
    annotationAt? (cs ++ '\n' :: r) = annotationAt? cs := by
  have hclosing : ∀ d ∈ annotationDelimiters, d.2 ∈ closers := by decide
  have hnone : ∀ cs : List Char, (∀ c ds, cs ≠ '%' :: 'a' :: c :: ds) → annotationAt? cs = none :=
    fun cs h => annotationAt?.eq_2 cs fun c ds he => h c ds he
  rcases cs with _ | ⟨c, _ | ⟨d, _ | ⟨e, cs⟩⟩⟩
  · rfl
  · rw [hnone [c] fun d ds he => List.cons_ne_nil _ _ (List.cons.inj he).2.symm,
      List.singleton_append, hnone]
    intro d ds he
    exact absurd (List.cons.inj (List.cons.inj he).2).1 (by decide)
  · rw [hnone [c, d] fun e ds he =>
      List.cons_ne_nil _ _ (List.cons.inj (List.cons.inj he).2).2.symm]
    by_cases hc : c = '%' ∧ d = 'a'
    · obtain ⟨rfl, rfl⟩ := hc
      rfl
    · rw [List.cons_append, hnone]
      intro e ds he
      exact hc ⟨(List.cons.inj he).1, (List.cons.inj (List.cons.inj he).2).1⟩
  · by_cases hc : c = '%' ∧ d = 'a'
    · obtain ⟨rfl, rfl⟩ := hc
      show annotationAt? ('%' :: 'a' :: e :: (cs ++ '\n' :: r)) = _
      rw [annotationAt?, annotationAt?]
      cases hf : annotationDelimiters.find? (·.1 == e) with
      | none => rfl
      | some p =>
        obtain ⟨first, closing⟩ := p
        have hmem := hclosing _ (List.mem_of_find?_eq_some hf)
        simp only [delimitedRest?_append_line (h.not_mem hmem)]
    · have hne : ∀ x : List Char, ∀ f ds, c :: d :: x ≠ '%' :: 'a' :: f :: ds := fun x f ds he =>
        hc ⟨(List.cons.inj he).1, (List.cons.inj (List.cons.inj he).2).1⟩
      rw [hnone _ (hne _), List.cons_append, List.cons_append, hnone _ (hne _)]

/-! ## All terminals -/

theorem signedNameAt?_append_line (sign : Char) {cs : List Char} (hcs : cs ≠ []) (r : List Char) :
    signedNameAt? sign (cs ++ '\n' :: r) = signedNameAt? sign cs := by
  match cs with
  | [] => exact absurd rfl hcs
  | [c] =>
    rw [List.singleton_append, signedNameAt?, signedNameAt?]
    rfl
  | c :: d :: cs =>
    rw [List.cons_append, signedNameAt?, signedNameAt?, nameAt?_append_line _ (List.cons_ne_nil d cs)]

theorem digitsAt?_append_line {cs : List Char} (hcs : cs ≠ []) (r : List Char) :
    digitsAt? (cs ++ '\n' :: r) = digitsAt? cs := by
  obtain ⟨c, cs, rfl⟩ := List.exists_cons_of_ne_nil hcs
  rw [List.cons_append, digitsAt?, digitsAt?, runLength_append_line rfl]

theorem integerAt?_append_line {cs : List Char} (hcs : cs ≠ []) (r : List Char) :
    integerAt? (cs ++ '\n' :: r) = integerAt? cs := by
  obtain ⟨c, cs, rfl⟩ := List.exists_cons_of_ne_nil hcs
  by_cases hc : c = '-'
  · subst hc
    cases cs with
    | nil => rfl
    | cons d cs =>
      show (digitsAt? (d :: cs ++ '\n' :: r)).map _ = _
      rw [digitsAt?_append_line (List.cons_ne_nil d cs)]
      rfl
  · rw [List.cons_append, integerAt?.eq_2 _ fun ds he => hc (List.cons.inj he).1,
      integerAt?.eq_2 _ fun ds he => hc (List.cons.inj he).1]
    exact digitsAt?_append_line (List.cons_ne_nil c cs) r

theorem commentAt?_append_line {cs : List Char} (hcs : cs ≠ []) (r : List Char) :
    commentAt? (cs ++ '\n' :: r) = commentAt? cs := by
  obtain ⟨c, cs, rfl⟩ := List.exists_cons_of_ne_nil hcs
  by_cases hc : c = '#'
  · subst hc
    show some (runLength (· != '\n') (cs ++ '\n' :: r) + 1) = _
    rw [runLength_append_line rfl]
    rfl
  · rw [List.cons_append, commentAt?.eq_2 _ fun ds he => hc (List.cons.inj he).1,
      commentAt?.eq_2 _ fun ds he => hc (List.cons.inj he).1]

theorem spelling?_no_line {t : Terminal} {s : String} (h : t.spelling? = some s) : '\n' ∉ s.toList := by
  have hall : Terminal.all.all (fun t => t.spelling?.all fun s => !s.toList.contains '\n') = true := by
    decide
  have ht := List.all_eq_true.mp hall t t.mem_all
  rw [h, Option.all_some, Bool.not_eq_true', ← Bool.not_eq_true, List.contains_iff_mem] at ht
  exact ht

theorem match?_append_line_of_spelling {t : Terminal} {s : String} (h : t.spelling? = some s)
    (cs r : List Char) : t.match? (cs ++ '\n' :: r) = t.match? cs := by
  rw [match?_of_spelling h, match?_of_spelling h, spelledAt?_append_line (spelling?_no_line h)]

theorem match?_append_line (h : IsCalm r) {c : Char} (hc : isBlankChar c = false) (cs : List Char)
    (t : Terminal) : t.match? (c :: cs ++ '\n' :: r) = t.match? (c :: cs) := by
  have hne := List.cons_ne_nil c cs
  cases t with
  | namespacePath => exact namespaceAt?_append_line hne r
  | label => exact labelAt?_append_line hne r
  | suffixedName => exact suffixedAt?_append_line hne r
  | attributeWord => exact wordAt?_append_line _ _ r
  | baseType => exact wordAt?_append_line _ _ r
  | mixinWord => exact wordAt?_append_line _ _ r
  | visibilityWord => exact wordAt?_append_line _ _ r
  | annotation => exact annotationAt?_append_line h _
  | symbol => exact symbolAt?_append_line h hne
  | string => exact stringAt?_append_line h hne
  | lowerName => exact lowerNameAt?_append_line hne r
  | globalName => exact signedNameAt?_append_line _ hne r
  | instanceVariable => exact signedNameAt?_append_line _ hne r
  | interfaceName => exact interfaceNameAt?_append_line hne r
  | upperName => exact nameAt?_append_line _ hne r
  | integer => exact integerAt?_append_line hne r
  | blank =>
    have hb : Terminal.begins .blank c = false := hc
    rw [List.cons_append, match?_eq_none hb, match?_eq_none hb]
  | comment => exact commentAt?_append_line hne r
  | uncheckedWord => exact wordAt?_append_line _ _ r
  | operator => exact operatorAt?_append_line _ r
  | varianceWord => exact wordAt?_append_line _ _ r
  | endOfText => rfl
  | _ => exact match?_append_line_of_spelling rfl _ r

theorem matchFirst?_append_line (h : IsCalm r) {c : Char} (hc : isBlankChar c = false)
    (cs : List Char) (ts : List Terminal) :
    Lexicon.matchFirst? (c :: cs ++ '\n' :: r) ts = Lexicon.matchFirst? (c :: cs) ts := by
  induction ts with
  | nil => rfl
  | cons t ts ih => rw [Lexicon.matchFirst?, Lexicon.matchFirst?, match?_append_line h hc, ih]

/-- **A line behind a text changes no token in it.** -/
theorem next?_append_line (lexicon : Lexicon) (h : IsCalm r) {c : Char} (hc : isBlankChar c = false)
    (cs : List Char) : lexicon.next? (c :: cs ++ '\n' :: r) = lexicon.next? (c :: cs) := by
  rw [Lexicon.next?, Lexicon.next?, matchFirst?_append_line h hc]
  cases hm : Lexicon.matchFirst? (c :: cs) lexicon.tried with
  | none => rfl
  | some p =>
    obtain ⟨w, n⟩ := p
    obtain ⟨x, rest, he, rfl, _⟩ := takes_of_match? (matchFirst?_some hm).2
    simp only [he, List.append_assoc, List.take_left]

end RbsSynth.Signature
