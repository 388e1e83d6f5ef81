import RbsSynth.Proofs.Scanning.Literals

/-!
# Words among their rivals

What every terminal makes of a lower-case or upper-case name before other text.

    IsLowerName k, …  →  r.match? (k ++ d :: rest) = r.matchWord? k                   (match?_word)
-/

namespace RbsSynth.Signature

open Terminal

/-! ## Letters -/

def lettersFrom (n count : Nat) : List Char := (List.range count).map fun i => Char.ofNat (n + i)

theorem mem_lettersFrom {c : Char} {n count : Nat} (h : n ≤ c.toNat) (h' : c.toNat < n + count) :
    c ∈ lettersFrom n count := by
  refine List.mem_map.mpr ⟨c.toNat - n, List.mem_range.mpr (by omega), ?_⟩
  rw [show n + (c.toNat - n) = c.toNat by omega]
  exact Char.ofNat_toNat c

theorem mem_of_isLower {c : Char} (h : c.isLower = true) : c ∈ lettersFrom 97 26 := by
  have hrange : (decide (97 ≤ c.toNat) && decide (c.toNat ≤ 122)) = true := h
  rw [Bool.and_eq_true, decide_eq_true_eq, decide_eq_true_eq] at hrange
  obtain ⟨h1, h2⟩ := hrange
  exact mem_lettersFrom h1 (by omega)

theorem mem_of_isUpper {c : Char} (h : c.isUpper = true) : c ∈ lettersFrom 65 26 := by
  have hrange : 65 ≤ c.toNat ∧ c.toNat ≤ 90 := of_decide_eq_true h
  obtain ⟨h1, h2⟩ := hrange
  exact mem_lettersFrom h1 (by omega)

theorem mem_of_isDigit {c : Char} (h : c.isDigit = true) : c ∈ lettersFrom 48 10 := by
  simp only [Char.isDigit, Bool.and_eq_true, decide_eq_true_eq] at h
  have h1 : 48 ≤ c.toNat := h.1
  have h2 : c.toNat ≤ 57 := h.2
  exact mem_lettersFrom h1 (by omega)

theorem begins_lower : ∀ c ∈ '_' :: lettersFrom 97 26, ∀ r ∈ [ annotation, symbol, string, globalName,
    instanceVariable, upperName, integer, blank, comment, operator], r.begins c = false := by
  decide

/-- The terminals that may start with an upper-case letter. -/
theorem begins_upper : ∀ c ∈ lettersFrom 65 26, ∀ r ∈ Terminal.all, r.begins c = true →
    r = namespacePath ∨ r = suffixedName ∨ r = upperName := by
  decide

/-! ## Lower-case words -/

theorem lower_first {k : List Char} (hk : IsLowerName k) :
    ∃ c cs, k = c :: cs ∧ c ∈ '_' :: lettersFrom 97 26 ∧ (c.isLower || c == '_') = true := by
  obtain ⟨⟨c, cs, rfl, hc, _⟩, _⟩ := hk
  refine ⟨c, cs, rfl, ?_, hc⟩
  rcases Bool.or_eq_true_iff.mp hc with h | h
  · exact List.mem_cons_of_mem _ (mem_of_isLower h)
  · rw [beq_iff_eq.mp h]
    exact List.mem_cons_self

theorem IsLowerName.isName {k : List Char} (hk : IsLowerName k) : IsName isNameStart k := by
  obtain ⟨⟨c, cs, rfl, hc, hcs⟩, _⟩ := hk
  refine ⟨c, cs, rfl, ?_, hcs⟩
  rcases Bool.or_eq_true_iff.mp hc with h | h
  · rw [isNameStart, isAlpha_eq, h, Bool.or_true, Bool.true_or]
  · rw [isNameStart, h, Bool.or_true]

theorem interfaceNameAt?_none {k rest : List Char} (hk : IsLowerName k) (hb : Boundary rest) :
    interfaceNameAt? (k ++ rest) = none := by
  obtain ⟨⟨c, cs, rfl, _, hcs⟩, hnot⟩ := hk
  cases hm : interfaceNameAt? (c :: cs ++ rest) with
  | none => rfl
  | some n =>
    obtain rfl := beq_iff_eq.mp (begins_of_interfaceNameAt? hm)
    have hm : (nameAt? Char.isUpper (cs ++ rest)).map (· + 1) = some n := hm
    cases hcr : cs ++ rest with
    | nil => rw [hcr] at hm; cases hm
    | cons a as =>
      rw [hcr] at hm
      obtain ⟨m, hm, _⟩ := Option.map_eq_some_iff.mp hm
      have ha := begins_of_nameAt? hm
      cases cs with
      | nil =>
        rw [List.nil_append] at hcr
        exact absurd ((hb a as hcr).symm.trans (isNameChar_of_isUpper ha)) (by decide)
      | cons b bs =>
        rw [← (List.cons.inj hcr).1] at ha
        exact absurd ⟨b :: bs, rfl, b, bs, rfl, ha, fun x hx => hcs x (List.mem_cons_of_mem b hx)⟩
          hnot

/-- Whether a terminal sees nothing more in a word when the character `d` stands behind it. -/
def Terminal.plainBefore (r : Terminal) (d : Char) : Bool :=
  (r != suffixedName || !isSuffix d) && r.spelling?.all fun s => !s.toList.contains d

/-- What a terminal takes of a word. -/
def Terminal.matchWord? (r : Terminal) (k : List Char) : Option Nat :=
  if r = lowerName then some k.length
  else if (wordsOf r).any (·.toList == k) then some k.length
  else
    match r.spelling? with
    | some s => spelledAt? s.toList k
    | none => none

theorem match?_of_wordsOf {r : Terminal} (h : wordsOf r ≠ []) (cs : List Char) :
    r.match? cs = wordAt? (wordsOf r) cs := by
  cases r <;> first | exact absurd rfl h | rfl

/-- The terminals that are neither spelled nor words. -/
theorem shapeless : ∀ r ∈ Terminal.all, r.spelling? = none → wordsOf r = [] →
    r ∈ [ annotation, symbol, string, globalName, instanceVariable, upperName, integer, blank, comment,
      operator] ∨ r ∈ [namespacePath, label, suffixedName, lowerName, interfaceName, endOfText] := by
  decide

theorem spelled_plain : ∀ r ∈ Terminal.all, r.spelling?.isSome = true →
    r ≠ lowerName ∧ wordsOf r = [] := by
  decide

theorem matchWord?_spelled {r : Terminal} {s : String} (hs : r.spelling? = some s) (k : List Char) :
    r.matchWord? k = spelledAt? s.toList k := by
  obtain ⟨hne, hw⟩ := spelled_plain r r.mem_all (by rw [hs]; rfl)
  rw [matchWord?, if_neg hne, hw, hs]
  rfl

theorem matchWord?_none {r : Terminal} (hne : r ≠ lowerName) (hw : wordsOf r = [])
    (hs : r.spelling? = none) (k : List Char) : r.matchWord? k = none := by
  rw [matchWord?, if_neg hne, hw, hs]
  rfl

theorem match?_word {r : Terminal} {k rest : List Char} {d : Char} (hk : IsLowerName k)
    (hd : isNameChar d = false) (hl : r = label → NoLabel (d :: rest)) (hp : r.plainBefore d = true) :
    r.match? (k ++ d :: rest) = r.matchWord? k := by
  have hb : Boundary (d :: rest) := .cons hd rest
  obtain ⟨c, cs, rfl, hc, hlow⟩ := lower_first hk
  rw [plainBefore, Bool.and_eq_true] at hp
  cases hs : r.spelling? with
  | some s =>
    rw [hs, Option.all_some, Bool.not_eq_true', ← Bool.not_eq_true, List.contains_iff_mem] at hp
    rw [matchWord?_spelled hs, match?_of_spelling hs, spelledAt?, spelledAt?,
      isPrefixOf_append hp.2]
  | none =>
    by_cases hw : wordsOf r = []
    · rcases shapeless r r.mem_all hs hw with hmem | hmem
      · have hne : r ≠ lowerName := by rintro rfl; exact absurd hmem (by decide)
        rw [matchWord?_none hne hw hs]
        exact match?_eq_none (begins_lower c hc r hmem) _
      · simp only [List.mem_cons, List.not_mem_nil, or_false] at hmem
        rcases hmem with rfl | rfl | rfl | rfl | rfl | rfl
        · have hcolon : c ≠ ':' := by rintro rfl; exact absurd hlow (by decide)
          have hupper : c.isUpper = false := by
            rw [← Bool.not_eq_true]
            intro hu
            rcases List.mem_cons.mp hc with rfl | hc
            · exact absurd hu (by decide)
            · exact absurd hu ((by decide :
                ∀ c ∈ lettersFrom 97 26, ¬ c.isUpper = true) c hc)
          exact namespaceAt?_none hcolon (pathEnd_other hupper _)
        · exact labelAt?_none hk hb (hl rfl)
        · exact suffixedAt?_none hk.isName hb fun a as he => by
            rw [bne_self_eq_false, Bool.false_or, Bool.not_eq_true'] at hp
            rw [← (List.cons.inj he).1]
            exact hp.1
        · exact lowerNameAt?_eq hk hb
        · exact interfaceNameAt?_none hk hb
        · rfl
    · have hne : r ≠ lowerName := by rintro rfl; exact hw rfl
      rw [match?_of_wordsOf hw, wordAt?_eq hk.nameChars hb, matchWord?, if_neg hne, hs]

end RbsSynth.Signature
