import RbsSynth.Proofs.Scanning.Clear
import RbsSynth.Proofs.Scanning.Words

/-!
# Clear tokens

Which tokens are clear in which contexts.  `alone c t d rs` says that in the context `c` only the
terminals `rs` can compete with a token of `t` that starts with `d`.

    alone c t d rs,  t takes d :: x,  no r ∈ rs matches  →  Clear c t (d :: x) rest    (clear_of_alone)
-/

namespace RbsSynth.Signature

open Terminal

/-- Whether no terminal but `rs` can keep a token of `t` that starts with `d` from being read. -/
def alone (c : Context) (t : Terminal) (d : Char) (rs : List Terminal) : Bool :=
  t.covers.all (fun k => !(c.rivals t).contains k) && (c.rivals t).all fun r =>
    decide (t.number ≤ r.number) || rs.contains r || !r.begins d && !r.covers.contains t

/-- Whether nothing that is skipped starts with a character. -/
def solid (d : Char) : Bool := !blank.begins d && !comment.begins d

theorem match?_skipped {d : Char} (hd : solid d = true) (cs : List Char) (r : Terminal)
    (hr : r.isSkipped = true) : r.match? (d :: cs) = none := by
  rw [solid, Bool.and_eq_true, Bool.not_eq_true', Bool.not_eq_true'] at hd
  have hcases : r = blank ∨ r = comment := by
    revert hr
    cases r <;> decide
  rcases hcases with rfl | rfl
  · exact match?_eq_none hd.1 cs
  · exact match?_eq_none hd.2 cs

theorem clear_of_alone {c : Context} {t : Terminal} {d : Char} {x rest : List Char}
    {rs : List Terminal} (h : alone c t d rs = true) (ht : t.isSkipped = false)
    (hd : solid d = true) (hread : t.match? (d :: x ++ rest) = some (x.length + 1))
    (hrs : ∀ r ∈ rs, r.match? (d :: x ++ rest) = none ∧ t ∉ r.covers) :
    Clear c t (d :: x) rest where
  nonempty := List.cons_ne_nil d x
  read := hread
  kept := ht
  skipped := match?_skipped hd (x ++ rest)
  first := by
    intro r hr hlt
    rw [alone, Bool.and_eq_true, List.all_eq_true, List.all_eq_true] at h
    have hr := h.2 r hr
    rw [Bool.or_eq_true, Bool.or_eq_true, decide_eq_true_eq, Bool.and_eq_true, Bool.not_eq_true',
      Bool.not_eq_true', ← Bool.not_eq_true (r.covers.contains t), List.contains_iff_mem,
      List.contains_iff_mem] at hr
    rcases hr with (hle | hmem) | ⟨hbegins, hcov⟩
    · omega
    · rw [if_neg (hrs r hmem).2]
      exact (hrs r hmem).1
    · rw [if_neg hcov]
      exact match?_eq_none hbegins (x ++ rest)
  narrow := by
    intro k hk hkr
    rw [alone, Bool.and_eq_true, List.all_eq_true] at h
    have hk := h.1 k hk
    rw [Bool.not_eq_true', ← Bool.not_eq_true, List.contains_iff_mem] at hk
    exact absurd hkr hk

/-! ## Signs -/

theorem spelledAt?_self (s rest : List Char) : spelledAt? s (s ++ rest) = some s.length := by
  rw [spelledAt?, if_pos (List.isPrefixOf_iff_prefix.mpr (List.prefix_append s rest))]

theorem clear_sign_of {c : Context} {t : Terminal} {s : String} {d : Char} {x rest : List Char}
    {rs : List Terminal} (hs : t.spelling? = some s) (hx : s.toList = d :: x)
    (hd : solid d = true) (h : alone c t d rs = true)
    (hrs : ∀ r ∈ rs, r.match? (d :: x ++ rest) = none ∧ t ∉ r.covers) :
    Clear c t s.toList rest := by
  rw [hx]
  refine clear_of_alone h ?_ hd ?_ hrs
  · revert hs
    cases t <;> first | exact fun _ => rfl | (intro hs; cases hs)
  · rw [match?_of_spelling hs, hx, spelledAt?_self]
    rfl

/-- A sign with which nothing competes. -/
theorem clear_sign {c : Context} {t : Terminal} {s : String} (hs : t.spelling? = some s)
    (h : s.toList.head?.any (fun d => solid d && alone c t d []) = true) (rest : List Char) :
    Clear c t s.toList rest := by
  cases hx : s.toList with
  | nil => rw [hx] at h; cases h
  | cons d x =>
    rw [hx, List.head?_cons, Option.any_some, Bool.and_eq_true] at h
    rw [← hx]
    exact clear_sign_of hs hx h.1 h.2 fun r hr => nomatch hr

theorem namespaceAt?_colon {cs : List Char} (h : ∀ ds, cs ≠ ':' :: ds) :
    namespaceAt? (':' :: cs) = none := by
  rw [namespaceAt?.eq_2 _ fun ds he => h ds (List.cons.inj he).2]
  rfl

/-- A colon is clear before anything but a colon. -/
theorem clear_colon {c : Context} (h : alone c colon ':' [namespacePath] = true) {rest : List Char}
    (hr : ∀ cs, rest ≠ ':' :: cs) : Clear c colon [':'] rest := by
  refine clear_sign_of (s := ":") rfl rfl rfl h fun r hmem => ?_
  obtain rfl := List.mem_singleton.mp hmem
  exact ⟨namespaceAt?_colon hr, by decide⟩

/-- A star is clear before anything but a star. -/
theorem clear_star {c : Context} (h : alone c star '*' [doubleStar] = true) {rest : List Char}
    (hr : ∀ cs, rest ≠ '*' :: cs) : Clear c star ['*'] rest := by
  refine clear_sign_of (s := "*") rfl rfl rfl h fun r hmem => ?_
  obtain rfl := List.mem_singleton.mp hmem
  refine ⟨?_, by decide⟩
  show spelledAt? ['*', '*'] ('*' :: rest) = none
  rw [spelledAt?, if_neg]
  rw [List.isPrefixOf_iff_prefix, List.cons_prefix_cons]
  rintro ⟨_, cs, hcs⟩
  exact hr cs hcs.symm

/-! ## Names -/

theorem clear_namespacePath {c : Context} {x rest : List Char}
    (hx : ∃ d y, x = d :: y ∧ (d.isUpper || d == ':') = true)
    (hread : namespaceAt? (x ++ rest) = some x.length) : Clear c namespacePath x rest := by
  obtain ⟨d, y, rfl, hd⟩ := hx
  have hsolid : ∀ d ∈ ':' :: lettersFrom 65 26, solid d = true := by decide
  have hmem : d ∈ ':' :: lettersFrom 65 26 := by
    rcases Bool.or_eq_true_iff.mp hd with hd | hd
    · exact List.mem_cons_of_mem _ (mem_of_isUpper hd)
    · rw [beq_iff_eq.mp hd]
      exact List.mem_cons_self
  have halone : alone c namespacePath d [] = true := by
    rw [alone, Bool.and_eq_true]
    refine ⟨rfl, List.all_eq_true.mpr fun r _ => ?_⟩
    have hle : namespacePath.number ≤ r.number := Nat.zero_le r.number
    rw [decide_eq_true hle, Bool.true_or, Bool.true_or]
  exact clear_of_alone halone rfl (hsolid d hmem) hread fun r hr => nomatch hr

theorem solid_upper {d : Char} (h : d.isUpper = true) : solid d = true :=
  (by decide : ∀ d ∈ lettersFrom 65 26, solid d = true) d (mem_of_isUpper h)

/-- Before anything but two colons, or a suffix where a suffixed name may stand. -/
theorem clear_upperName {c : Context} {x rest : List Char} (hx : IsUpperName x)
    (hb : Boundary rest) (hn : NoColons rest) (hs : suffixedName ∈ c.may → NoSuffix rest) :
    Clear c upperName x rest where
  nonempty := by
    obtain ⟨d, y, rfl, _, _⟩ := hx
    exact List.cons_ne_nil d y
  read := nameAt?_eq hx hb
  kept := rfl
  skipped := by
    obtain ⟨d, y, rfl, hd, _⟩ := hx
    exact match?_skipped (solid_upper hd) _
  first := by
    intro r hr hlt
    have hcov : upperName ∉ r.covers :=
      (by decide : ∀ r ∈ Terminal.all, upperName ∉ r.covers) r r.mem_all
    rw [if_neg hcov]
    have hend := pathEnd_upper hx hb hn
    have hstart : IsName isNameStart x := by
      obtain ⟨d, y, rfl, hd, hy⟩ := hx
      refine ⟨d, y, rfl, ?_, hy⟩
      rw [isNameStart, isAlpha_eq, hd]
      rfl
    obtain ⟨d, y, rfl, hd, _⟩ := hx
    by_cases hbegins : r.begins d = true
    · rcases begins_upper d (mem_of_isUpper hd) r r.mem_all hbegins with rfl | rfl | rfl
      · exact namespaceAt?_none (by rintro rfl; exact absurd hd (by decide)) hend
      · exact suffixedAt?_none hstart hb (hs (List.mem_filter.mp hr).1)
      · exact absurd hlt (by decide)
    · exact match?_eq_none (Bool.not_eq_true _ ▸ hbegins) (y ++ rest)
  narrow := fun k hk => nomatch hk

theorem clear_interfaceName {c : Context}
    (h : alone c interfaceName '_' [lowerName, label] = true) {x rest : List Char}
    (hx : IsInterfaceName x) (hb : Boundary rest) : Clear c interfaceName x rest := by
  have hread := interfaceNameAt?_eq hx hb
  have hnone := lowerNameAt?_interface hx rest
  obtain ⟨y, rfl, _⟩ := hx
  refine clear_of_alone h rfl rfl hread fun r hr => ?_
  have hlabel : labelAt? ('_' :: y ++ rest) = none := by rw [labelAt?, hnone]
  rw [List.mem_cons, List.mem_singleton] at hr
  rcases hr with rfl | rfl
  · exact ⟨hnone, by decide⟩
  · exact ⟨hlabel, by decide⟩

/-! ## Words -/

/-- A word that starts with a lower-case letter. -/
def isWord : List Char → Bool
  | [] => false
  | c :: cs => c.isLower && cs.all isNameChar

theorem isLowerName_of_isWord {k : List Char} (h : isWord k = true) : IsLowerName k := by
  cases k with
  | nil => cases h
  | cons c cs =>
    rw [isWord, Bool.and_eq_true, List.all_eq_true] at h
    refine ⟨⟨c, cs, rfl, Bool.or_eq_true_iff.mpr (.inl h.1), h.2⟩, ?_⟩
    rintro ⟨y, he, _⟩
    rw [(List.cons.inj he).1] at h
    exact absurd h.1 (by decide)

/-- Whether the word `k` is read as `t` before the character `d`. -/
def wordAlone (c : Context) (t : Terminal) (k : List Char) (d : Char) : Bool :=
  t.covers.isEmpty && !t.isSkipped && t.plainBefore d && (t.matchWord? k == some k.length) &&
    (c.rivals t).all fun r => decide (t.number ≤ r.number) ||
      r.plainBefore d && r.matchWord? k == if r.covers.contains t then some k.length else none

theorem solid_lower {d : Char} (h : d ∈ '_' :: lettersFrom 97 26) : solid d = true :=
  (by decide : ∀ d ∈ '_' :: lettersFrom 97 26, solid d = true) d h

/-- A word with which only words compete that are others. -/
theorem clear_word {c : Context} {t : Terminal} {k : List Char} {d : Char} {rest : List Char}
    (hk : isWord k = true) (hd : isNameChar d = false) (h : wordAlone c t k d = true)
    (hl : label ∈ c.rivals t → NoLabel (d :: rest)) (ht : t ≠ label) :
    Clear c t k (d :: rest) := by
  have hk := isLowerName_of_isWord hk
  rw [wordAlone, Bool.and_eq_true, Bool.and_eq_true, Bool.and_eq_true, Bool.and_eq_true,
    List.isEmpty_iff, Bool.not_eq_true', beq_iff_eq, List.all_eq_true] at h
  obtain ⟨⟨⟨⟨hcov, hkept⟩, hplain⟩, hself⟩, hfirst⟩ := h
  have hhead := lower_first hk
  refine ⟨?_, ?_, hkept, ?_, ?_, ?_⟩
  · obtain ⟨a, as, rfl, _⟩ := hhead
    exact List.cons_ne_nil a as
  · rw [match?_word hk hd (fun he => absurd he ht) hplain, hself]
  · obtain ⟨a, as, rfl, ha, _⟩ := hhead
    exact match?_skipped (solid_lower ha) _
  · intro r hr hlt
    have hr' := hfirst r hr
    rw [Bool.or_eq_true, decide_eq_true_eq, Bool.and_eq_true, beq_iff_eq] at hr'
    rcases hr' with hle | ⟨hrp, hrm⟩
    · omega
    · rw [match?_word hk hd (fun he => hl (he ▸ hr)) hrp, hrm]
      simp only [List.contains_iff_mem]
  · intro a ha
    rw [hcov] at ha
    cases ha

/-- A spelling with a dot is not found in a text without one. -/
theorem match?_dotted {r : Terminal} (hr : r = selfDot ∨ r = selfOptionalDot) {x : List Char}
    {d : Char} (hx : '.' ∉ x) (hd : d = ' ' ∨ d = ':' ∨ d = '\n') (rest : List Char) :
    r.match? (x ++ d :: rest) = none := by
  have hnot : ∀ s : List Char, '.' ∈ s → d ∉ s → spelledAt? s (x ++ d :: rest) = none := by
    intro s hs hds
    rw [spelledAt?, if_neg]
    rw [isPrefixOf_append hds, List.isPrefixOf_iff_prefix]
    exact fun hpre => hx (hpre.subset hs)
  rcases hr with rfl | rfl
  · refine hnot "self.".toList (by decide) ?_
    rcases hd with rfl | rfl | rfl <;> decide
  · refine hnot "self?.".toList (by decide) ?_
    rcases hd with rfl | rfl | rfl <;> decide

theorem not_dot_of_nameChars {x : List Char} (hx : ∀ a ∈ x, isNameChar a = true) : '.' ∉ x :=
  fun h => absurd (hx '.' h) (by decide)

/-- The words that are no lower-case names in a context. -/
def Context.reserved (c : Context) : List String :=
  (c.rivals lowerName).flatMap fun r =>
    wordsOf r ++ if lowerName.covers.contains r then r.spelling?.toList else []

theorem reserved_of_mem {c : Context} {r : Terminal} {w : String} (hr : r ∈ c.rivals lowerName)
    (hw : w ∈ wordsOf r) : w ∈ c.reserved :=
  List.mem_flatMap.mpr ⟨r, hr, List.mem_append_left _ hw⟩

/-- A lower-case name that is no reserved word is read as such. -/
theorem clear_lowerName {c : Context} {x : List Char} {d : Char} {rest : List Char}
    (hx : IsLowerName x) (hd : isNameChar d = false)
    (hl : label ∈ c.rivals lowerName → NoLabel (d :: rest))
    (hp : ∀ r ∈ c.rivals lowerName, r.number < lowerName.number → r.plainBefore d = true)
    (hfree : ∀ w ∈ c.reserved, w.toList ≠ x) : Clear c lowerName x (d :: rest) := by
  have hhead := lower_first hx
  refine ⟨?_, ?_, rfl, ?_, ?_, ?_⟩
  · obtain ⟨a, as, rfl, _⟩ := hhead
    exact List.cons_ne_nil a as
  · exact lowerNameAt?_eq hx (.cons hd rest)
  · obtain ⟨a, as, rfl, ha, _⟩ := hhead
    exact match?_skipped (solid_lower ha) _
  · intro r hr hlt
    have hcov : ∀ r ∈ Terminal.all, r.number < lowerName.number →
        lowerName ∉ r.covers ∧ r ≠ lowerName ∧
          (r.spelling?.isSome = true → r = selfDot ∨ r = selfOptionalDot) := by
      decide
    obtain ⟨hnot, hne, hspelled⟩ := hcov r r.mem_all hlt
    rw [if_neg hnot, match?_word hx hd (fun he => hl (he ▸ hr)) (hp r hr hlt), matchWord?,
      if_neg hne, if_neg]
    · cases hs : r.spelling? with
      | none => rfl
      | some s =>
        have hdot : '.' ∈ s.toList := by
          rcases hspelled (by rw [hs]; rfl) with rfl | rfl
          · obtain rfl := Option.some.inj hs
            decide
          · obtain rfl := Option.some.inj hs
            decide
        show spelledAt? s.toList x = none
        rw [spelledAt?, if_neg]
        rw [List.isPrefixOf_iff_prefix]
        exact fun hpre => not_dot_of_nameChars hx.nameChars (hpre.subset hdot)
    · rw [List.any_eq_true]
      rintro ⟨w, hw, he⟩
      exact hfree w (reserved_of_mem hr hw) (beq_iff_eq.mp he)
  · intro k hk hkr
    rw [← Bool.not_eq_true, Option.any_eq_true]
    rintro ⟨s, hs, he⟩
    refine hfree s (List.mem_flatMap.mpr ⟨k, hkr, List.mem_append_right _ ?_⟩) (beq_iff_eq.mp he)
    rw [if_pos (List.contains_iff_mem.mpr hk), hs]
    exact List.mem_singleton_self s

/-! ## Labels, suffixed names and operators -/

theorem IsKey.not_dot {x : List Char} (hx : IsKey x) : '.' ∉ x := by
  obtain ⟨y, m, rfl, hy, hm⟩ := hx
  rw [List.mem_append, not_or]
  refine ⟨not_dot_of_nameChars hy.nameChars, ?_⟩
  rcases hm with rfl | rfl | rfl <;> decide

theorem clear_label {c : Context} {x : List Char} {rest : List Char} (hx : IsKey x)
    (h : ('_' :: lettersFrom 97 26).all (alone c label · [selfDot, selfOptionalDot]) = true)
    (hr : ∀ cs, rest ≠ ':' :: cs) : Clear c label (x ++ [':']) rest := by
  have hread := labelAt?_eq hx hr
  have hdot := hx.not_dot
  obtain ⟨y, m, rfl, hy, _⟩ := hx
  obtain ⟨d, ds, rfl, hd, _⟩ := lower_first hy
  have hone : (d :: ds ++ m ++ [':'] : List Char) = d :: (ds ++ m ++ [':']) := rfl
  have htext : d :: (ds ++ m ++ [':']) ++ rest = d :: ds ++ m ++ ':' :: rest := by
    rw [← hone, List.append_assoc _ [':'] rest]
    rfl
  rw [hone]
  refine clear_of_alone (List.all_eq_true.mp h d hd) rfl (solid_lower hd) ?_ fun r hmem => ?_
  · rw [htext]
    show labelAt? (d :: ds ++ m ++ ':' :: rest) = _
    rw [hread, List.length_append, List.length_append, List.length_append, List.length_cons,
      List.length_singleton]
    exact congrArg some (by omega)
  · rw [List.mem_cons, List.mem_singleton] at hmem
    rw [htext]
    refine ⟨match?_dotted hmem hdot (.inr (.inl rfl)) rest, ?_⟩
    rcases hmem with rfl | rfl <;> decide

/-- A name with a suffix. -/
def IsSuffixedName (x : List Char) : Prop :=
  ∃ y s, x = y ++ [s] ∧ IsName isNameStart y ∧ isSuffix s = true

theorem nameStart_cases {d : Char} (h : isNameStart d = true) :
    d.isUpper = true ∨ d ∈ '_' :: lettersFrom 97 26 := by
  rw [isNameStart, isAlpha_eq, Bool.or_eq_true, Bool.or_eq_true] at h
  rcases h with (h | h) | h
  · exact .inl h
  · exact .inr (List.mem_cons_of_mem _ (mem_of_isLower h))
  · rw [beq_iff_eq.mp h]
    exact .inr List.mem_cons_self

theorem IsSuffixedName.not_dot {x : List Char} (hx : IsSuffixedName x) : '.' ∉ x := by
  obtain ⟨y, s, rfl, hy, hs⟩ := hx
  rw [List.mem_append, not_or]
  refine ⟨not_dot_of_nameChars (hy.nameChars fun _ => isNameChar_of_isNameStart), ?_⟩
  rw [List.mem_singleton]
  rintro rfl
  exact absurd hs (by decide)

theorem namespaceAt?_suffixed {x : List Char} (hx : IsSuffixedName x) (rest : List Char) :
    namespaceAt? (x ++ rest) = none := by
  obtain ⟨y, s, rfl, ⟨d, ds, rfl, hd, hds⟩, hs⟩ := hx
  have hcolon : d ≠ ':' := by
    rintro rfl
    exact absurd hd (by decide)
  rw [List.append_assoc]
  refine namespaceAt?_none hcolon ?_
  cases hu : d.isUpper with
  | false => exact pathEnd_other hu _
  | true =>
    refine pathEnd_upper ⟨d, ds, rfl, hu, hds⟩ (.cons (not_isNameChar_of_isSuffix hs) _) fun cs he => ?_
    rw [(List.cons.inj he).1] at hs
    exact absurd hs (by decide)

theorem solid_nameStart {d : Char} (h : isNameStart d = true) : solid d = true := by
  rcases nameStart_cases h with h | h
  · exact solid_upper h
  · exact solid_lower h

/-- The contexts in which a method name may stand. -/
def nameOpens : List Context :=
  [.behind defWord, .behind aliasWord, .behind selfDot, .behind selfOptionalDot, .behind lowerName,
   .behind upperName, .behind suffixedName, .behind operator]

theorem alone_suffixedName : ∀ c ∈ nameOpens, ∀ d ∈ '_' :: (lettersFrom 97 26 ++ lettersFrom 65 26),
    alone c suffixedName d [namespacePath, selfDot, selfOptionalDot] = true := by
  decide

theorem clear_suffixedName {c : Context} {x : List Char} {d : Char} {rest : List Char}
    (hc : c ∈ nameOpens) (hx : IsSuffixedName x) (hd : d ∈ behindName) :
    Clear c suffixedName x (d :: rest) := by
  have hdot := hx.not_dot
  have hpath := namespaceAt?_suffixed hx (d :: rest)
  obtain ⟨y, s, rfl, hy, hs⟩ := hx
  have hread := suffixedAt?_eq hy hs (d :: rest)
  obtain ⟨a, as, rfl, ha, has⟩ := hy
  have hone : (a :: as ++ [s] : List Char) = a :: (as ++ [s]) := rfl
  have hmem : a ∈ '_' :: (lettersFrom 97 26 ++ lettersFrom 65 26) := by
    rcases nameStart_cases ha with h | h
    · exact List.mem_cons_of_mem _ (List.mem_append_right _ (mem_of_isUpper h))
    · rw [← List.cons_append]
      exact List.mem_append_left _ h
  have hbehind : d = ' ' ∨ d = ':' ∨ d = '\n' := by
    simp only [behindName, List.mem_cons, List.not_mem_nil, or_false] at hd
    rcases hd with rfl | rfl | rfl
    · exact .inl rfl
    · exact .inr (.inr rfl)
    · exact .inr (.inl rfl)
  rw [hone] at hdot hpath ⊢
  refine clear_of_alone (alone_suffixedName c hc a hmem) rfl (solid_nameStart ha) ?_ fun r hr => ?_
  · show suffixedAt? (a :: (as ++ [s]) ++ d :: rest) = _
    rw [← hone, List.append_assoc]
    show suffixedAt? (a :: as ++ s :: d :: rest) = _
    rw [hread, List.length_append, List.length_cons, List.length_singleton]
  · rw [List.mem_cons, List.mem_cons, List.mem_singleton] at hr
    rcases hr with rfl | rfl | rfl
    · exact ⟨hpath, by decide⟩
    · exact ⟨match?_dotted (.inl rfl) hdot hbehind rest, by decide⟩
    · exact ⟨match?_dotted (.inr rfl) hdot hbehind rest, by decide⟩

theorem operators_alone : ∀ c ∈ nameOpens, ∀ o ∈ operators,
    o.toList.head?.any (fun d => solid d && alone c operator d [ annotation]) = true := by
  decide

theorem annotationAt?_operator {o : String} (ho : o ∈ operators) {d : Char} (hd : d ∈ behindName)
    (rest : List Char) : annotationAt? (o.toList ++ d :: rest) = none := by
  have ho : o = "%" ∨ o.toList.head?.any (· != '%') = true :=
    (by decide : ∀ o ∈ operators, o = "%" ∨ o.toList.head?.any (· != '%') = true) o ho
  rcases ho with rfl | ho
  · simp only [behindName, List.mem_cons, List.not_mem_nil, or_false] at hd
    rcases hd with rfl | rfl | rfl <;> rfl
  · cases hx : o.toList with
    | nil => rw [hx] at ho; cases ho
    | cons a as =>
      rw [hx, List.head?_cons, Option.any_some, bne_iff_ne] at ho
      cases hm : annotationAt? (a :: as ++ d :: rest) with
      | none => rfl
      | some n => exact absurd (beq_iff_eq.mp (begins_of_annotationAt? hm)) ho

theorem clear_operator {c : Context} {o : String} {d : Char} {rest : List Char}
    (hc : c ∈ nameOpens) (ho : o ∈ operators) (hd : d ∈ behindName) :
    Clear c operator o.toList (d :: rest) := by
  have hread := operatorAt?_eq ho hd rest
  have hnone := annotationAt?_operator ho hd rest
  have halone := operators_alone c hc o ho
  cases hx : o.toList with
  | nil => rw [hx] at halone; cases halone
  | cons a as =>
    rw [hx, List.head?_cons, Option.any_some, Bool.and_eq_true] at halone
    rw [hx] at hread hnone
    refine clear_of_alone halone.2 rfl halone.1 hread fun r hr => ?_
    obtain rfl := List.mem_singleton.mp hr
    exact ⟨hnone, by decide⟩

/-! ## Literals -/

theorem clear_symbol {c : Context} (h : alone c symbol ':' [namespacePath] = true)
    {x rest : List Char} (hx : (IsBareSymbol x ∧ Boundary rest ∧ NoSuffix rest) ∨ IsClosedSymbol x) :
    Clear c symbol x rest := by
  have hread : symbolAt? (x ++ rest) = some x.length := by
    rcases hx with ⟨hx, hb, hs⟩ | hx
    · exact symbolAt?_bare hx hb hs
    · exact symbolAt?_closed hx rest
  have hshape : ∃ y, x = ':' :: y ∧ ∀ cs, y ++ rest ≠ ':' :: cs := by
    have hname : ∀ {y : List Char}, IsName isNameStart y → ∀ z cs, y ++ z ≠ ':' :: cs := by
      rintro y ⟨d, ds, rfl, hd, _⟩ z cs he
      rw [(List.cons.inj he).1] at hd
      exact absurd hd (by decide)
    rcases hx with ⟨⟨y, rfl, hy⟩, _⟩ | ⟨y, s, rfl, hy, _⟩ | ⟨y, rfl, _⟩
    · exact ⟨y, rfl, hname hy rest⟩
    · exact ⟨y ++ [s], rfl, by rw [List.append_assoc]; exact hname hy _⟩
    · exact ⟨'"' :: y, rfl, fun cs he => absurd (List.cons.inj he).1 (by decide)⟩
  obtain ⟨y, rfl, hy⟩ := hshape
  refine clear_of_alone h rfl rfl hread fun r hr => ?_
  obtain rfl := List.mem_singleton.mp hr
  exact ⟨namespaceAt?_colon hy, by decide⟩

theorem clear_string {c : Context}
    (h : ['"', '\''].all (alone c string · []) = true) {x : List Char} (hx : IsString x)
    (rest : List Char) : Clear c string x rest := by
  have hread := stringAt?_eq hx rest
  obtain ⟨q, y, hq, rfl, _⟩ := hx
  have hmem : q ∈ ['"', '\''] := by
    rcases hq with rfl | rfl <;> decide
  refine clear_of_alone (List.all_eq_true.mp h q hmem) rfl ?_ hread fun r hr => nomatch hr
  rcases hq with rfl | rfl <;> rfl

theorem clear_integer {c : Context}
    (h : ('-' :: lettersFrom 48 10).all (alone c integer · []) = true) {x rest : List Char}
    (hx : IsInteger x) (hb : Boundary rest) : Clear c integer x rest := by
  have hread := integerAt?_eq hx hb
  have hhead : ∃ d y, x = d :: y ∧ d ∈ '-' :: lettersFrom 48 10 := by
    rcases hx with ⟨d, y, rfl, hd, _⟩ | ⟨y, rfl, _⟩
    · exact ⟨d, y, rfl, List.mem_cons_of_mem _ (mem_of_isDigit hd)⟩
    · exact ⟨'-', y, rfl, List.mem_cons_self⟩
  obtain ⟨d, y, rfl, hd⟩ := hhead
  have hsolid : solid d = true :=
    (by decide : ∀ d ∈ '-' :: lettersFrom 48 10, solid d = true) d hd
  exact clear_of_alone (List.all_eq_true.mp h d hd) rfl hsolid hread fun r hr => nomatch hr

/-! ## Names behind a sign, and annotations -/

theorem clear_globalName {c : Context} (h : alone c globalName '$' [] = true) {x rest : List Char}
    (hx : IsName isNameStart x) (hb : Boundary rest) : Clear c globalName ('$' :: x) rest := by
  have hread : signedNameAt? '$' ('$' :: x ++ rest) = _ := signedNameAt?_eq hx hb
  exact clear_of_alone h rfl rfl hread fun _ hr => nomatch hr

theorem clear_instanceVariable {c : Context} (h : alone c instanceVariable '@' [] = true)
    {x rest : List Char} (hx : IsName isNameStart x) (hb : Boundary rest) :
    Clear c instanceVariable ('@' :: x) rest := by
  have hread : signedNameAt? '@' ('@' :: x ++ rest) = _ := signedNameAt?_eq hx hb
  exact clear_of_alone h rfl rfl hread fun _ hr => nomatch hr

theorem clear_annotation {c : Context} (h : alone c annotation '%' [] = true) {e : Char × Char}
    (he : e ∈ annotationDelimiters) {body : List Char} (hb : e.2 ∉ body) (rest : List Char) :
    Clear c annotation ('%' :: 'a' :: e.1 :: (body ++ [e.2])) rest := by
  refine clear_of_alone h rfl rfl ?_ fun _ hr => nomatch hr
  show annotationAt? ('%' :: 'a' :: e.1 :: (body ++ [e.2] ++ rest)) = _
  rw [List.append_assoc]
  show annotationAt? ('%' :: 'a' :: e.1 :: (body ++ e.2 :: rest)) = _
  rw [annotationAt?_eq he hb, List.length_cons, List.length_cons, List.length_append,
    List.length_singleton]

end RbsSynth.Signature
