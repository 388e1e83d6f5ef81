import RbsSynth.Signature.Lexeme

/-!
# First characters

`t.begins c` is false where no text that starts with `c` matches the terminal `t`.

    t.match? (c :: cs) = some n  →  t.begins c                                     (begins_of_match?)
-/

namespace RbsSynth.Signature

theorem Terminal.mem_all (t : Terminal) : t ∈ Terminal.all := by cases t <;> decide

/-- What is said of the letters of a list is decided letter by letter, not over all characters. -/
instance decidableLetters (P : Char → Prop) [DecidablePred P] (letters : List Char) :
    Decidable (∀ c ∈ letters, P c) :=
  List.decidableBAll P letters

/-- Whether a text of the terminal may start with a character. -/
def Terminal.begins (t : Terminal) (c : Char) : Bool :=
  match t with
  | namespacePath => c.isUpper || c == ':'
  | label | lowerName => c.isLower || c == '_'
  | suffixedName => isNameStart c
  | attributeWord | baseType | mixinWord | visibilityWord | uncheckedWord | varianceWord => c.isLower
  | annotation => c == '%'
  | symbol => c == ':'
  | string => c == '"' || c == '\''
  | globalName => c == '$'
  | instanceVariable => c == '@'
  | interfaceName => c == '_'
  | upperName => c.isUpper
  | integer => c == '-' || c.isDigit
  | blank => isBlankChar c
  | comment => c == '#'
  | operator => operators.any (·.toList.head? == some c)
  | t => t.spelling?.any (·.toList.head? == some c)

variable {c : Char} {cs : List Char} {n : Nat}

theorem begins_of_nameAt? {first : Char → Bool} (h : nameAt? first (c :: cs) = some n) :
    first c = true := by
  rw [nameAt?] at h
  split at h
  · next hc => exact hc
  · cases h

theorem begins_of_lowerNameAt? (h : lowerNameAt? (c :: cs) = some n) :
    (c.isLower || c == '_') = true := by
  rw [lowerNameAt?.eq_def] at h
  split at h
  · next he => rw [(List.cons.inj he).1]; rfl
  · exact begins_of_nameAt? h

theorem begins_of_wordAt? {w : List String} (h : wordAt? w (c :: cs) = some n)
    (hwords : w.all (·.toList.head?.any Char.isLower) = true) : c.isLower = true := by
  simp only [wordAt?] at h
  split at h
  · next hany =>
    obtain ⟨s, hs, he⟩ := List.any_eq_true.mp hany
    have hhead := List.all_eq_true.mp hwords s hs
    rw [beq_iff_eq.mp he, List.takeWhile_cons] at hhead
    split at hhead
    · exact hhead
    · cases hhead
  · cases h

theorem begins_of_spelledAt? {s : List Char} (hs : s ≠ []) (h : spelledAt? s (c :: cs) = some n) :
    s.head? = some c := by
  rw [spelledAt?] at h
  split at h
  · next hpre =>
    obtain ⟨d, ds, rfl⟩ := List.exists_cons_of_ne_nil hs
    have := List.isPrefixOf_iff_prefix.mp hpre
    rw [List.cons_prefix_cons] at this
    rw [List.head?_cons, this.1]
  · cases h

theorem begins_of_operatorAt? (h : operatorAt? (c :: cs) = some n) :
    Terminal.operator.begins c = true := by
  rw [operatorAt?, List.findSome?_eq_some_iff] at h
  obtain ⟨before, o, after, ho, h, _⟩ := h
  have hmem : o ∈ operators := ho ▸ List.mem_append_right _ List.mem_cons_self
  have hne : o.toList ≠ [] := by
    intro he
    have := List.all_eq_true.mp (show operators.all (fun o => !o.toList.isEmpty) = true by decide)
      o hmem
    rw [he] at this
    cases this
  exact List.any_eq_true.mpr ⟨o, hmem, beq_iff_eq.mpr (begins_of_spelledAt? hne h)⟩

theorem spelling?_ne_nil {t : Terminal} {s : String} (h : t.spelling? = some s) : s.toList ≠ [] := by
  cases t <;> first | (cases h; done) | (obtain rfl := Option.some.inj h; decide)

theorem begins_of_namespaceAt? (h : namespaceAt? (c :: cs) = some n) :
    (c.isUpper || c == ':') = true := by
  rw [namespaceAt?.eq_def] at h
  split at h
  · next he => rw [(List.cons.inj he).1]; rfl
  · rw [pathLength] at h
    split at h
    · cases h
    · next hlen =>
      split at hlen
      · next hc => rw [hc]; rfl
      · cases hlen

theorem begins_of_labelAt? (h : labelAt? (c :: cs) = some n) : (c.isLower || c == '_') = true := by
  rw [labelAt?] at h
  split at h
  · cases h
  · next hn => exact begins_of_lowerNameAt? hn

theorem begins_of_suffixedAt? (h : suffixedAt? (c :: cs) = some n) : isNameStart c = true := by
  rw [suffixedAt?] at h
  split at h
  · cases h
  · next hn => exact begins_of_nameAt? hn

theorem begins_of_annotationAt? (h : annotationAt? (c :: cs) = some n) : (c == '%') = true := by
  rw [annotationAt?.eq_def] at h
  split at h
  · next he => rw [(List.cons.inj he).1]; rfl
  · cases h

theorem begins_of_symbolAt? (h : symbolAt? (c :: cs) = some n) : (c == ':') = true := by
  rw [symbolAt?.eq_def] at h
  split at h
  · next he => rw [(List.cons.inj he).1]; rfl
  · next he => rw [(List.cons.inj he).1]; rfl
  · cases h

theorem begins_of_stringAt? (h : stringAt? (c :: cs) = some n) :
    (c == '"' || c == '\'') = true := by
  rw [stringAt?.eq_def] at h
  split at h
  · next he => rw [(List.cons.inj he).1]; rfl
  · next he => rw [(List.cons.inj he).1]; rfl
  · cases h

theorem begins_of_signedNameAt? {sign : Char} (h : signedNameAt? sign (c :: cs) = some n) :
    (c == sign) = true := by
  rw [signedNameAt?] at h
  split at h
  · next hc => exact hc
  · cases h

theorem begins_of_interfaceNameAt? (h : interfaceNameAt? (c :: cs) = some n) :
    (c == '_') = true := by
  rw [interfaceNameAt?.eq_def] at h
  split at h
  · next he => rw [(List.cons.inj he).1]; rfl
  · cases h

theorem begins_of_integerAt? (h : integerAt? (c :: cs) = some n) :
    (c == '-' || c.isDigit) = true := by
  rw [integerAt?.eq_def] at h
  split at h
  · next he => rw [(List.cons.inj he).1]; rfl
  · rw [digitsAt?] at h
    split at h
    · next hc => rw [hc, Bool.or_true]
    · cases h

theorem begins_of_blankAt? (h : blankAt? (c :: cs) = some n) : isBlankChar c = true := by
  rw [blankAt?, runLength] at h
  split at h
  · cases h
  · next hlen =>
    split at hlen
    · next hc => exact hc
    · cases hlen

theorem begins_of_commentAt? (h : commentAt? (c :: cs) = some n) : (c == '#') = true := by
  rw [commentAt?.eq_def] at h
  split at h
  · next he => rw [(List.cons.inj he).1]; rfl
  · cases h

/-- The words of the terminals that end at a word boundary. -/
def wordsOf : Terminal → List String
  | .attributeWord => ["attr_reader", "attr_writer", "attr_accessor"]
  | .baseType => baseTypeWords
  | .mixinWord => ["include", "extend", "prepend"]
  | .visibilityWord => ["public", "private"]
  | .uncheckedWord => ["unchecked"]
  | .varianceWord => ["in", "out"]
  | _ => []

theorem match?_of_spelling {t : Terminal} {s : String} (h : t.spelling? = some s) (cs : List Char) :
    t.match? cs = spelledAt? s.toList cs := by
  cases t <;> first | (cases h; done) | (obtain rfl := Option.some.inj h; rfl)

theorem begins_of_spelling {t : Terminal} {s : String} (hs : t.spelling? = some s)
    (h : t.match? (c :: cs) = some n) : t.begins c = true := by
  have hbegins : t.begins c = t.spelling?.any (·.toList.head? == some c) := by
    cases t <;> first | (cases hs; done) | rfl
  rw [match?_of_spelling hs] at h
  rw [hbegins, hs, Option.any_some, begins_of_spelledAt? (spelling?_ne_nil hs) h]
  exact beq_self_eq_true _

theorem begins_of_match? {t : Terminal} (h : t.match? (c :: cs) = some n) : t.begins c = true := by
  cases t with
  | namespacePath => exact begins_of_namespaceAt? h
  | label => exact begins_of_labelAt? h
  | suffixedName => exact begins_of_suffixedAt? h
  | attributeWord => exact begins_of_wordAt? (w := wordsOf .attributeWord) h (by decide)
  | baseType => exact begins_of_wordAt? (w := wordsOf .baseType) h (by decide)
  | mixinWord => exact begins_of_wordAt? (w := wordsOf .mixinWord) h (by decide)
  | visibilityWord => exact begins_of_wordAt? (w := wordsOf .visibilityWord) h (by decide)
  | annotation => exact begins_of_annotationAt? h
  | symbol => exact begins_of_symbolAt? h
  | string => exact begins_of_stringAt? h
  | lowerName => exact begins_of_lowerNameAt? h
  | globalName => exact begins_of_signedNameAt? h
  | instanceVariable => exact begins_of_signedNameAt? h
  | interfaceName => exact begins_of_interfaceNameAt? h
  | upperName => exact begins_of_nameAt? h
  | integer => exact begins_of_integerAt? h
  | blank => exact begins_of_blankAt? h
  | comment => exact begins_of_commentAt? h
  | uncheckedWord => exact begins_of_wordAt? (w := wordsOf .uncheckedWord) h (by decide)
  | operator => exact begins_of_operatorAt? h
  | varianceWord => exact begins_of_wordAt? (w := wordsOf .varianceWord) h (by decide)
  | endOfText => cases h
  | _ => exact begins_of_spelling rfl h

theorem match?_eq_none {t : Terminal} (h : t.begins c = false) (cs : List Char) :
    t.match? (c :: cs) = none := by
  cases hm : t.match? (c :: cs) with
  | none => rfl
  | some n => rw [begins_of_match? hm] at h; cases h

end RbsSynth.Signature
