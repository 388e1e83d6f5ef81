import RbsSynth.Proofs.Scanning.Scans
import RbsSynth.Proofs.Scanning.Tokens

/-!
# What a terminal takes

`t.Takes x` says what the texts of a terminal look like.

    t.match? cs = some n        →  cs starts with n characters that t takes           (takes_of_match?)
    lexicon.next? cs = some (t, n)  →  the same                                        (takes_of_next?)
-/

namespace RbsSynth.Signature

open Terminal

/-- A path of names with colons behind each, perhaps with colons before it. -/
def IsPath (x : List Char) : Prop :=
  x ≠ [] ∧ ∃ (absolute : Bool) (segments : List (List Char)),
    x = (if absolute then colons else []) ++ pathText segments ∧ ∀ s ∈ segments, IsUpperName s

def IsAnnotation (x : List Char) : Prop :=
  ∃ d ∈ annotationDelimiters, ∃ body, x = '%' :: 'a' :: d.1 :: (body ++ [d.2]) ∧ d.2 ∉ body

def Terminal.Takes (t : Terminal) (x : List Char) : Prop :=
  match t with
  | namespacePath => IsPath x
  | label => ∃ k, x = k ++ [':'] ∧ IsKey k
  | suffixedName => IsSuffixedName x
  | attributeWord | baseType | mixinWord | visibilityWord | uncheckedWord | varianceWord =>
    ∃ w ∈ wordsOf t, x = w.toList
  | annotation => IsAnnotation x
  | symbol => IsBareSymbol x ∨ IsClosedSymbol x
  | string => IsString x
  | lowerName => IsLowerName x
  | globalName => ∃ y, x = '$' :: y ∧ IsName isNameStart y
  | instanceVariable => ∃ y, x = '@' :: y ∧ IsName isNameStart y
  | interfaceName => IsInterfaceName x
  | upperName => IsUpperName x
  | integer => IsInteger x
  | blank => x ≠ [] ∧ ∀ a ∈ x, isBlankChar a = true
  | comment => ∃ y, x = '#' :: y ∧ '\n' ∉ y
  | operator => ∃ o ∈ operators, x = o.toList
  | t => ∃ s, t.spelling? = some s ∧ x = s.toList

/-- A text starts with `n` characters that satisfy `P`. -/
def StartsWith (P : List Char → Prop) (n : Nat) (cs : List Char) : Prop :=
  ∃ x rest, cs = x ++ rest ∧ x.length = n ∧ P x

variable {cs : List Char} {n : Nat} {P Q : List Char → Prop}

theorem StartsWith.imp (h : StartsWith P n cs) (hPQ : ∀ x, P x → Q x) : StartsWith Q n cs := by
  obtain ⟨x, rest, hcs, hn, hx⟩ := h
  exact ⟨x, rest, hcs, hn, hPQ x hx⟩

theorem StartsWith.cons (h : StartsWith P n cs) (c : Char) :
    StartsWith (fun x => ∃ y, x = c :: y ∧ P y) (n + 1) (c :: cs) := by
  obtain ⟨x, rest, rfl, rfl, hx⟩ := h
  exact ⟨c :: x, rest, rfl, rfl, x, rfl, hx⟩

theorem StartsWith.take (h : StartsWith P n cs) :
    P (cs.take n) ∧ (cs.take n).length = n ∧ n ≤ cs.length := by
  obtain ⟨x, rest, rfl, rfl, hx⟩ := h
  rw [List.take_left, List.length_append]
  exact ⟨hx, rfl, Nat.le_add_right _ _⟩

/-! ## Names -/

theorem startsWith_run (f : Char → Bool) (cs : List Char) :
    StartsWith (fun x => ∀ a ∈ x, f a = true) (runLength f cs) cs := by
  refine ⟨cs.takeWhile f, cs.dropWhile f, List.takeWhile_append_dropWhile.symm, (runLength_eq f cs).symm,
    fun a ha => ?_⟩
  exact List.all_eq_true.mp List.all_takeWhile a ha

/-- A character with the name characters behind it. -/
theorem startsWith_name (c : Char) (cs : List Char) :
    StartsWith (fun x => x = c :: cs.takeWhile isNameChar ∧ ∀ a ∈ cs.takeWhile isNameChar, isNameChar a = true)
      (runLength isNameChar cs + 1) (c :: cs) := by
  refine ⟨c :: cs.takeWhile isNameChar, cs.dropWhile isNameChar, ?_, ?_, rfl, fun a ha => ?_⟩
  · rw [List.cons_append, List.takeWhile_append_dropWhile]
  · rw [List.length_cons, runLength_eq]
  · exact List.all_eq_true.mp List.all_takeWhile a ha

theorem takes_of_nameAt? {first : Char → Bool} (h : nameAt? first cs = some n) :
    StartsWith (IsName first) n cs := by
  cases cs with
  | nil => cases h
  | cons c cs =>
    have hc := begins_of_nameAt? h
    rw [nameAt?, if_pos hc] at h
    obtain rfl := Option.some.inj h
    refine (startsWith_name c cs).imp ?_
    rintro x ⟨he, hy⟩
    exact ⟨c, _, he, hc, hy⟩

theorem not_isInterfaceName {c : Char} {x : List Char} (h : c = '_' → x.head?.all (!·.isUpper)) :
    ¬ IsInterfaceName (c :: x) := by
  rintro ⟨y, he, d, ds, rfl, hd, _⟩
  obtain ⟨rfl, rfl⟩ := List.cons.inj he
  have hnot := h rfl
  rw [List.head?_cons, Option.all_some, hd] at hnot
  cases hnot

theorem takes_of_lowerNameAt? (h : lowerNameAt? cs = some n) : StartsWith IsLowerName n cs := by
  rw [lowerNameAt?.eq_def] at h
  split at h
  · next c cs =>
    split at h
    · cases h
    · next hc =>
      obtain rfl := Option.some.inj h
      refine (startsWith_name '_' (c :: cs)).imp ?_
      rintro x ⟨rfl, hy⟩
      refine ⟨⟨'_', _, rfl, rfl, hy⟩, not_isInterfaceName fun _ => ?_⟩
      rw [List.takeWhile_cons]
      split
      · rw [List.head?_cons, Option.all_some, Bool.not_eq_true', ← Bool.not_eq_true]
        exact hc
      · rfl
  · next hnot =>
    cases cs with
    | nil => cases h
    | cons c cs =>
      have hc := begins_of_nameAt? h
      rw [nameAt?, if_pos hc] at h
      obtain rfl := Option.some.inj h
      refine (startsWith_name c cs).imp ?_
      rintro x ⟨rfl, hy⟩
      refine ⟨⟨c, _, rfl, hc, hy⟩, not_isInterfaceName fun hu => ?_⟩
      cases cs with
      | nil => rfl
      | cons d ds => exact absurd (by rw [hu]) (hnot d ds)

theorem takes_of_interfaceNameAt? (h : interfaceNameAt? cs = some n) :
    StartsWith IsInterfaceName n cs := by
  rw [interfaceNameAt?.eq_def] at h
  split at h
  · obtain ⟨m, hm, rfl⟩ := Option.map_eq_some_iff.mp h
    exact (takes_of_nameAt? hm).cons '_'
  · cases h

/-! ## Words and signs -/

theorem takes_of_wordAt? {words : List String} (h : wordAt? words cs = some n) :
    StartsWith (fun x => ∃ w ∈ words, x = w.toList) n cs := by
  simp only [wordAt?] at h
  split at h
  · next hany =>
    obtain rfl := Option.some.inj h
    obtain ⟨w, hw, he⟩ := List.any_eq_true.mp hany
    exact ⟨_, _, List.takeWhile_append_dropWhile.symm, rfl, w, hw, (beq_iff_eq.mp he).symm⟩
  · cases h

theorem takes_of_spelledAt? {s : List Char} (h : spelledAt? s cs = some n) :
    StartsWith (· = s) n cs := by
  rw [spelledAt?] at h
  split at h
  · next hpre =>
    obtain rfl := Option.some.inj h
    obtain ⟨rest, rfl⟩ := List.isPrefixOf_iff_prefix.mp hpre
    exact ⟨s, rest, rfl, rfl, rfl⟩
  · cases h

theorem takes_of_operatorAt? (h : operatorAt? cs = some n) :
    StartsWith (fun x => ∃ o ∈ operators, x = o.toList) n cs := by
  obtain ⟨o, ho, hs⟩ := List.exists_of_findSome?_eq_some h
  exact (takes_of_spelledAt? hs).imp fun x hx => ⟨o, ho, hx⟩

theorem takes_of_signedNameAt? {sign : Char} (h : signedNameAt? sign cs = some n) :
    StartsWith (fun x => ∃ y, x = sign :: y ∧ IsName isNameStart y) n cs := by
  cases cs with
  | nil => cases h
  | cons c cs =>
    rw [signedNameAt?] at h
    split at h
    · next hc =>
      obtain rfl := beq_iff_eq.mp hc
      obtain ⟨m, hm, rfl⟩ := Option.map_eq_some_iff.mp h
      exact (takes_of_nameAt? hm).cons c
    · cases h

/-! ## Labels and suffixed names -/

theorem takes_of_suffixedAt? (h : suffixedAt? cs = some n) : StartsWith IsSuffixedName n cs := by
  rw [suffixedAt?] at h
  split at h
  · cases h
  · next m hm =>
    obtain ⟨x, rest, rfl, rfl, hx⟩ := takes_of_nameAt? hm
    rw [drop_length_append] at h
    split at h
    · next c rest =>
      split at h
      · next hc =>
        obtain rfl := Option.some.inj h
        exact ⟨x ++ [c], rest, by rw [List.append_assoc]; rfl, by rw [List.length_append]; rfl, x, c,
          rfl, hx, hc⟩
      · cases h
    · cases h

theorem takes_of_colonAt? {m : Nat} (h : colonAt? m cs = some n) :
    n = m + 1 ∧ ∃ rest, cs = ':' :: rest := by
  rw [colonAt?.eq_def] at h
  split at h
  · cases h
  · next rest _ => exact ⟨(Option.some.inj h).symm, rest, rfl⟩
  · cases h

theorem takes_of_labelAt? (h : labelAt? cs = some n) :
    StartsWith (fun x => ∃ k, x = k ++ [':'] ∧ IsKey k) n cs := by
  cases hl : lowerNameAt? cs with
  | none => rw [labelAt?, hl] at h; cases h
  | some m =>
    obtain ⟨x, rest, rfl, rfl, hx⟩ := takes_of_lowerNameAt? hl
    rw [labelAt?_of_lowerNameAt? hl] at h
    have hlong : ∀ (y rest' : List Char), (y = [] ∨ y = ['?'] ∨ y = ['!']) → rest = y ++ ':' :: rest' →
        n = x.length + y.length + 1 →
        StartsWith (fun x => ∃ k, x = k ++ [':'] ∧ IsKey k) n (x ++ rest) := by
      intro y rest' hy hrest hn
      refine ⟨x ++ y ++ [':'], rest', ?_, ?_, x ++ y, rfl, x, y, rfl, hx, hy⟩
      · rw [hrest, List.append_assoc, List.append_assoc]
        rfl
      · rw [hn, List.length_append, List.length_append]
        rfl
    rw [labelFrom?.eq_def] at h
    split at h
    · next ds =>
      obtain ⟨rfl, rest', rfl⟩ := takes_of_colonAt? h
      exact hlong ['?'] rest' (.inr (.inl rfl)) rfl rfl
    · next ds =>
      obtain ⟨rfl, rest', rfl⟩ := takes_of_colonAt? h
      exact hlong ['!'] rest' (.inr (.inr rfl)) rfl rfl
    · obtain ⟨rfl, rest', rfl⟩ := takes_of_colonAt? h
      exact hlong [] rest' (.inl rfl) rfl rfl

/-! ## Paths -/

/-- How a path goes on from each of its stages. -/
theorem pathLength_spec (cs : List Char) :
    (∀ pos, ∃ segments rest, cs = pathText segments ++ rest ∧ (∀ s ∈ segments, IsUpperName s) ∧
      pathLength .start pos pos cs = pos + (pathText segments).length) ∧
    (∀ pos best, pathLength .name pos best cs = best ∨ ∃ y segments rest,
      cs = y ++ colons ++ pathText segments ++ rest ∧ (∀ a ∈ y, isNameChar a = true) ∧
      (∀ s ∈ segments, IsUpperName s) ∧
      pathLength .name pos best cs = pos + y.length + 2 + (pathText segments).length) ∧
    ∀ pos best, pathLength .colon pos best cs = best ∨ ∃ segments rest,
      cs = ':' :: pathText segments ++ rest ∧ (∀ s ∈ segments, IsUpperName s) ∧
      pathLength .colon pos best cs = pos + 1 + (pathText segments).length := by
  induction cs with
  | nil =>
    exact ⟨fun pos => ⟨[], [], rfl, List.forall_mem_nil _, by rw [pathLength]; rfl⟩,
      fun pos best => .inl (by rw [pathLength]), fun pos best => .inl (by rw [pathLength])⟩
  | cons c cs ih =>
    obtain ⟨hstart, hname, hcolon⟩ := ih
    refine ⟨fun pos => ?_, fun pos best => ?_, fun pos best => ?_⟩
    · rw [pathLength]
      split
      · next hc =>
        rcases hname (pos + 1) pos with h | ⟨y, segments, rest, rfl, hy, hs, h⟩
        · exact ⟨[], c :: cs, rfl, List.forall_mem_nil _, h⟩
        · have htext : pathText ((c :: y) :: segments) = c :: y ++ colons ++ pathText segments :=
            List.flatMap_cons
          refine ⟨(c :: y) :: segments, rest, by rw [htext]; rfl, ?_, ?_⟩
          · exact List.forall_mem_cons.mpr ⟨⟨c, y, rfl, hc, hy⟩, hs⟩
          · rw [h, htext, List.length_append, List.length_append, List.length_cons]
            show _ = pos + (y.length + 1 + 2 + _)
            omega
      · exact ⟨[], c :: cs, rfl, List.forall_mem_nil _, rfl⟩
    · rw [pathLength]
      split
      · next hc =>
        rcases hname (pos + 1) best with h | ⟨y, segments, rest, rfl, hy, hs, h⟩
        · exact .inl h
        · refine .inr ⟨c :: y, segments, rest, rfl, List.forall_mem_cons.mpr ⟨hc, hy⟩, hs, ?_⟩
          rw [h, List.length_cons]
          omega
      · split
        · next hc =>
          obtain rfl := beq_iff_eq.mp hc
          rcases hcolon (pos + 1) best with h | ⟨segments, rest, rfl, hs, h⟩
          · exact .inl h
          · refine .inr ⟨[], segments, rest, rfl, List.forall_mem_nil _, hs, ?_⟩
            rw [h]
            rfl
        · exact .inl rfl
    · rw [pathLength]
      split
      · next hc =>
        obtain rfl := beq_iff_eq.mp hc
        obtain ⟨segments, rest, rfl, hs, h⟩ := hstart (pos + 1)
        exact .inr ⟨segments, rest, rfl, hs, h⟩
      · exact .inl rfl

theorem takes_of_namespaceAt? (h : namespaceAt? cs = some n) : StartsWith IsPath n cs := by
  rw [namespaceAt?.eq_def] at h
  split at h
  · next cs =>
    obtain rfl := Option.some.inj h
    obtain ⟨segments, rest, hcs, hs, hlen⟩ := (pathLength_spec cs).1 0
    refine ⟨colons ++ pathText segments, rest, by rw [hcs]; rfl, ?_, List.cons_ne_nil _ _, true,
      segments, rfl, hs⟩
    rw [hlen, List.length_append, Nat.zero_add, Nat.add_comm]
    rfl
  · obtain ⟨segments, rest, hcs, hs, hlen⟩ := (pathLength_spec cs).1 0
    rw [hlen, Nat.zero_add] at h
    split at h
    · cases h
    · next hm =>
      obtain rfl := Option.some.inj h
      refine ⟨pathText segments, rest, hcs, hm, fun he => ?_, false, segments, rfl, hs⟩
      rw [he] at hm
      cases hm

/-! ## Quoted and delimited texts -/

theorem takes_of_quotedRest? {quote : Char} (h : quotedRest? quote cs = some n) :
    StartsWith (fun x => quotedRest? quote x = some x.length) n cs := by
  induction cs using quotedRest?.induct (quote) generalizing n with
  | case1 => cases h
  | case2 => cases h
  | case3 c cs hc => rw [quotedRest?, if_pos hc] at h; cases h
  | case4 c cs hc ih =>
    rw [quotedRest?, if_neg hc, Option.map_eq_some_iff] at h
    obtain ⟨m, hm, rfl⟩ := h
    obtain ⟨x, rest, rfl, rfl, hx⟩ := ih hm
    refine ⟨'\\' :: c :: x, rest, rfl, rfl, ?_⟩
    show quotedRest? quote ('\\' :: c :: x) = _
    rw [quotedRest?, if_neg hc, hx]
    rfl
  | case5 c cs h1 h2 hc =>
    have hne : c ≠ '\\' := fun he => by
      cases cs with
      | nil => exact h1 he rfl
      | cons d ds => exact h2 d ds he rfl
    rw [quotedRest?_cons hne, if_pos hc] at h
    obtain rfl := Option.some.inj h
    refine ⟨[c], cs, rfl, rfl, ?_⟩
    show quotedRest? quote [c] = _
    rw [quotedRest?_cons hne, if_pos hc]
    rfl
  | case6 c cs h1 h2 hc ih =>
    have hne : c ≠ '\\' := fun he => by
      cases cs with
      | nil => exact h1 he rfl
      | cons d ds => exact h2 d ds he rfl
    rw [quotedRest?_cons hne, if_neg hc, Option.map_eq_some_iff] at h
    obtain ⟨m, hm, rfl⟩ := h
    obtain ⟨x, rest, rfl, rfl, hx⟩ := ih hm
    refine ⟨c :: x, rest, rfl, rfl, ?_⟩
    show quotedRest? quote (c :: x) = _
    rw [quotedRest?_cons hne, if_neg hc, hx]
    rfl

theorem takes_of_stringAt? (h : stringAt? cs = some n) : StartsWith IsString n cs := by
  rw [stringAt?.eq_def] at h
  split at h
  · obtain ⟨m, hm, rfl⟩ := Option.map_eq_some_iff.mp h
    refine ((takes_of_quotedRest? hm).cons '"').imp ?_
    rintro x ⟨y, he, hy⟩
    exact ⟨'"', y, .inl rfl, he, hy⟩
  · obtain ⟨m, hm, rfl⟩ := Option.map_eq_some_iff.mp h
    refine ((takes_of_quotedRest? hm).cons '\'').imp ?_
    rintro x ⟨y, he, hy⟩
    exact ⟨'\'', y, .inr rfl, he, hy⟩
  · cases h

theorem takes_of_symbolAt? (h : symbolAt? cs = some n) :
    StartsWith (fun x => IsBareSymbol x ∨ IsClosedSymbol x) n cs := by
  rw [symbolAt?.eq_def] at h
  split at h
  · obtain ⟨m, hm, rfl⟩ := Option.map_eq_some_iff.mp h
    refine (((takes_of_quotedRest? hm).cons '"').cons ':').imp ?_
    rintro _ ⟨_, rfl, y, rfl, hy⟩
    exact .inr (.inr ⟨y, rfl, hy⟩)
  · next cs _ =>
    split at h
    · cases h
    · next m hm =>
      obtain ⟨x, rest, rfl, rfl, hx⟩ := takes_of_nameAt? hm
      have hbare : StartsWith (fun x => IsBareSymbol x ∨ IsClosedSymbol x) (x.length + 1)
          (':' :: (x ++ rest)) := ⟨':' :: x, rest, rfl, rfl, .inl ⟨x, rfl, hx⟩⟩
      rw [drop_length_append] at h
      split at h
      · next c rest _ =>
        split at h
        · next hc =>
          obtain rfl := Option.some.inj h
          refine ⟨':' :: (x ++ [c]), rest, ?_, ?_, .inr (.inl ⟨x, c, rfl, hx, hc⟩)⟩
          · rw [List.cons_append, List.append_assoc]
            rfl
          · rw [List.length_cons, List.length_append]
            rfl
        · obtain rfl := Option.some.inj h
          exact hbare
      · obtain rfl := Option.some.inj h
        exact hbare
  · cases h

theorem takes_of_delimitedRest? {closing : Char} (h : delimitedRest? closing cs = some n) :
    StartsWith (fun x => ∃ body, x = body ++ [closing] ∧ closing ∉ body) n cs := by
  induction cs generalizing n with
  | nil => cases h
  | cons c cs ih =>
    rw [delimitedRest?] at h
    split at h
    · next hc =>
      obtain rfl := beq_iff_eq.mp hc
      obtain rfl := Option.some.inj h
      exact ⟨[c], cs, rfl, rfl, [], rfl, List.not_mem_nil⟩
    · next hc =>
      obtain ⟨m, hm, rfl⟩ := Option.map_eq_some_iff.mp h
      refine ((ih hm).cons c).imp ?_
      rintro _ ⟨_, rfl, body, rfl, hbody⟩
      refine ⟨c :: body, rfl, fun hmem => ?_⟩
      rcases List.mem_cons.mp hmem with he | hmem
      · exact hc (beq_iff_eq.mpr he.symm)
      · exact hbody hmem

theorem takes_of_annotationAt? (h : annotationAt? cs = some n) : StartsWith IsAnnotation n cs := by
  rw [annotationAt?.eq_def] at h
  split at h
  · next c cs =>
    split at h
    · cases h
    · next first closing hfind =>
      obtain ⟨m, hm, rfl⟩ := Option.map_eq_some_iff.mp h
      have hc : first = c := eq_of_beq (List.find?_some (p := fun d : Char × Char => d.1 == c) hfind)
      subst hc
      refine ((((takes_of_delimitedRest? hm).cons first).cons 'a').cons '%').imp ?_
      rintro _ ⟨_, rfl, _, rfl, _, rfl, body, rfl, hbody⟩
      exact ⟨_, List.mem_of_find?_eq_some hfind, body, rfl, hbody⟩
  · cases h

/-! ## Numbers, blanks and comments -/

theorem takes_of_digitsAt? (h : digitsAt? cs = some n) : StartsWith IsDigits n cs := by
  cases cs with
  | nil => cases h
  | cons c cs =>
    rw [digitsAt?] at h
    split at h
    · next hc =>
      obtain rfl := Option.some.inj h
      refine ((startsWith_run (fun d => d.isDigit || d == '_') cs).cons c).imp ?_
      rintro _ ⟨y, rfl, hy⟩
      exact ⟨c, y, rfl, hc, hy⟩
    · cases h

theorem takes_of_integerAt? (h : integerAt? cs = some n) : StartsWith IsInteger n cs := by
  rw [integerAt?.eq_def] at h
  split at h
  · obtain ⟨m, hm, rfl⟩ := Option.map_eq_some_iff.mp h
    exact ((takes_of_digitsAt? hm).cons '-').imp fun x hx => .inr hx
  · exact (takes_of_digitsAt? h).imp fun x hx => .inl hx

theorem takes_of_blankAt? (h : blankAt? cs = some n) :
    StartsWith (fun x => x ≠ [] ∧ ∀ a ∈ x, isBlankChar a = true) n cs := by
  rw [blankAt?] at h
  split at h
  · cases h
  · next m hm =>
    obtain rfl := Option.some.inj h
    obtain ⟨x, rest, hcs, hlen, hx⟩ := startsWith_run isBlankChar cs
    rw [hm] at hlen
    refine ⟨x, rest, hcs, hlen, fun he => ?_, hx⟩
    rw [he] at hlen
    cases hlen

theorem takes_of_commentAt? (h : commentAt? cs = some n) :
    StartsWith (fun x => ∃ y, x = '#' :: y ∧ '\n' ∉ y) n cs := by
  rw [commentAt?.eq_def] at h
  split at h
  · next cs =>
    obtain rfl := Option.some.inj h
    refine ((startsWith_run (· != '\n') cs).cons '#').imp ?_
    rintro _ ⟨y, rfl, hy⟩
    exact ⟨y, rfl, fun hmem => absurd (hy '\n' hmem) (by decide)⟩
  · cases h

/-! ## All terminals -/

theorem takes_of_spelling {t : Terminal} {s : String} (hs : t.spelling? = some s)
    (h : t.match? cs = some n) :
    StartsWith (fun x => ∃ s, t.spelling? = some s ∧ x = s.toList) n cs := by
  rw [match?_of_spelling hs] at h
  exact (takes_of_spelledAt? h).imp fun x hx => ⟨s, hs, hx⟩

theorem takes_of_match? {t : Terminal} (h : t.match? cs = some n) : StartsWith t.Takes n cs := by
  cases t with
  | namespacePath => exact takes_of_namespaceAt? h
  | label => exact takes_of_labelAt? h
  | suffixedName => exact takes_of_suffixedAt? h
  | attributeWord => exact takes_of_wordAt? h
  | baseType => exact takes_of_wordAt? h
  | mixinWord => exact takes_of_wordAt? h
  | visibilityWord => exact takes_of_wordAt? h
  | annotation => exact takes_of_annotationAt? h
  | symbol => exact takes_of_symbolAt? h
  | string => exact takes_of_stringAt? h
  | lowerName => exact takes_of_lowerNameAt? h
  | globalName => exact takes_of_signedNameAt? h
  | instanceVariable => exact takes_of_signedNameAt? h
  | interfaceName => exact takes_of_interfaceNameAt? h
  | upperName => exact takes_of_nameAt? h
  | integer => exact takes_of_integerAt? h
  | blank => exact takes_of_blankAt? h
  | comment => exact takes_of_commentAt? h
  | uncheckedWord => exact takes_of_wordAt? h
  | operator => exact takes_of_operatorAt? h
  | varianceWord => exact takes_of_wordAt? h
  | endOfText => cases h
  | _ => exact takes_of_spelling rfl h

theorem matchFirst?_some {w : Terminal} {ts : List Terminal}
    (h : Lexicon.matchFirst? cs ts = some (w, n)) : w ∈ ts ∧ w.match? cs = some n := by
  induction ts with
  | nil => cases h
  | cons t ts ih =>
    rw [Lexicon.matchFirst?] at h
    split at h
    · next m hm =>
      obtain ⟨rfl, rfl⟩ := Prod.mk.inj (Option.some.inj h)
      exact ⟨List.mem_cons_self, hm⟩
    · exact ⟨List.mem_cons_of_mem t (ih h).1, (ih h).2⟩

/-- A match stands for its own terminal or for one that it covers, with the text as its spelling. -/
theorem resolve_cases (lexicon : Lexicon) (w : Terminal) (x : List Char) :
    lexicon.resolve w x = w ∨ lexicon.resolve w x ∈ w.covers ∧ lexicon.resolve w x ∈ lexicon.allowed ∧
      ∃ s, (lexicon.resolve w x).spelling? = some s ∧ s.toList = x := by
  rw [Lexicon.resolve]
  split
  · next k hk =>
    have hand := List.find?_some hk
    rw [Bool.and_eq_true, List.contains_iff_mem, Option.any_eq_true] at hand
    obtain ⟨ha, s, hs, he⟩ := hand
    exact .inr ⟨List.mem_of_find?_eq_some hk, ha, s, hs, beq_iff_eq.mp he⟩
  · exact .inl rfl

theorem takes_of_spelled {t : Terminal} {s : String} (h : t.spelling? = some s) : t.Takes s.toList := by
  cases t <;> first | (cases h; done) | exact ⟨s, h, rfl⟩

/-- **What a lexer takes for a terminal.** -/
theorem takes_of_next? {lexicon : Lexicon} {t : Terminal} (h : lexicon.next? cs = some (t, n)) :
    StartsWith t.Takes n cs := by
  rw [Lexicon.next?] at h
  split at h
  · next w m hw =>
    obtain ⟨rfl, rfl⟩ := Prod.mk.inj (Option.some.inj h)
    obtain ⟨x, rest, rfl, rfl, hx⟩ := takes_of_match? (matchFirst?_some hw).2
    rw [List.take_left]
    rcases resolve_cases lexicon w x with he | ⟨_, _, s, hs, rfl⟩
    · exact ⟨x, rest, rfl, rfl, he.symm ▸ hx⟩
    · exact ⟨s.toList, rest, rfl, rfl, takes_of_spelled hs⟩
  · cases h

/-! ## Tokens are not empty -/

theorem IsName.ne_nil {first : Char → Bool} {x : List Char} (h : IsName first x) : x ≠ [] := by
  obtain ⟨c, y, rfl, _⟩ := h
  exact List.cons_ne_nil c y

theorem Terminal.Takes.ne_nil {t : Terminal} {x : List Char} (h : t.Takes x) : x ≠ [] := by
  rintro rfl
  have hwords : ∀ t, ∀ w ∈ wordsOf t, [] ≠ w.toList := by
    intro t
    cases t <;> decide
  have hspelled : ∀ t : Terminal, ∀ s, t.spelling? = some s → [] ≠ s.toList := by
    intro t s hs
    cases t <;> first | (cases hs; done) | (obtain rfl := Option.some.inj hs; decide)
  cases t with
  | namespacePath => exact h.1 rfl
  | label =>
    obtain ⟨k, he, _⟩ := h
    exact List.append_ne_nil_of_right_ne_nil k (List.cons_ne_nil _ _) he.symm
  | suffixedName =>
    obtain ⟨y, s, he, _⟩ := h
    exact List.append_ne_nil_of_right_ne_nil y (List.cons_ne_nil _ _) he.symm
  | attributeWord => obtain ⟨w, hw, he⟩ := h; exact hwords _ w hw he
  | baseType => obtain ⟨w, hw, he⟩ := h; exact hwords _ w hw he
  | mixinWord => obtain ⟨w, hw, he⟩ := h; exact hwords _ w hw he
  | visibilityWord => obtain ⟨w, hw, he⟩ := h; exact hwords _ w hw he
  | uncheckedWord => obtain ⟨w, hw, he⟩ := h; exact hwords _ w hw he
  | varianceWord => obtain ⟨w, hw, he⟩ := h; exact hwords _ w hw he
  | annotation => obtain ⟨_, _, _, he, _⟩ := h; cases he
  | symbol => rcases h with ⟨_, he, _⟩ | ⟨_, _, he, _⟩ | ⟨_, he, _⟩ <;> cases he
  | string => obtain ⟨_, _, _, he, _⟩ := h; cases he
  | lowerName => exact h.1.ne_nil rfl
  | globalName => obtain ⟨_, he, _⟩ := h; cases he
  | instanceVariable => obtain ⟨_, he, _⟩ := h; cases he
  | interfaceName => obtain ⟨_, he, _⟩ := h; cases he
  | upperName => exact IsName.ne_nil h rfl
  | integer => rcases h with ⟨_, _, he, _⟩ | ⟨_, he, _⟩ <;> cases he
  | blank => exact h.1 rfl
  | comment => obtain ⟨_, he, _⟩ := h; cases he
  | operator =>
    obtain ⟨o, ho, he⟩ := h
    exact (by decide : ∀ o ∈ operators, [] ≠ o.toList) o ho he
  | _ => obtain ⟨s, hs, he⟩ := h; exact hspelled _ s hs he

end RbsSynth.Signature
