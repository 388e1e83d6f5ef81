import RbsSynth.Proofs.Scanning.Begins
import RbsSynth.Proofs.Table.Context

/-!
# The next token

`Clear c t x rest` says that in the context `c` nothing competes with the token `x` of the terminal
`t` before `rest`: what is tried before `t` does not match, but for a wider terminal that `t` is
covered by and that takes just `x`.

    Clear c t x rest,  Stands c q,  Accepts q t  →  the lexicon of q reads x as t       (Clear.next?)
-/

namespace RbsSynth.Signature

open Terminal

/-! ## Order and covers -/

theorem Terminal.mem_scanOrder {t : Terminal} (h : t ≠ endOfText) : t ∈ scanOrder := by
  rcases List.mem_append.mp t.mem_all with h' | h'
  · exact h'
  · exact absurd (List.mem_singleton.mp h') h

theorem scanOrder_sorted : scanOrder.Pairwise fun a b => a.number < b.number := by decide

/-- What is known of a terminal that covers others. -/
theorem covers_spec : ∀ w ∈ Terminal.all, ∀ t ∈ w.covers,
    w.number < t.number ∧ w.isSkipped = false ∧ t.isSkipped = false ∧ t.spelling?.isSome = true ∧
      (∀ v ∈ Terminal.all, w ∉ v.covers) ∧ (∀ v ∈ Terminal.all, t ∈ v.covers → v = w) ∧
      ∀ k ∈ w.covers, k.spelling? = t.spelling? → k = t := by
  decide

theorem eq_of_spelledAt? {s x rest : List Char} (h : spelledAt? s (x ++ rest) = some x.length) :
    s = x := by
  rw [spelledAt?] at h
  split at h
  · next hpre =>
    have hlen : s.length = x.length := Option.some.inj h
    have hx := List.prefix_of_prefix_length_le (List.isPrefixOf_iff_prefix.mp hpre)
      (List.prefix_append x rest) (Nat.le_of_eq hlen)
    exact hx.eq_of_length hlen
  · cases h

/-! ## Lexicons -/

theorem lexicons_getD (q : Nat) :
    lexicons.getD q Lexicon.full = ((row? q).map Lexicon.ofRow).getD Lexicon.full := by
  rw [lexicons, Array.getD_eq_getD_getElem?, List.getElem?_toArray, List.getElem?_map,
    Array.getElem?_toList, row?_eq]

section

variable {f : Terminal → Bool} {t : Terminal}

theorem mem_allowed : t ∈ (Lexicon.ofAllowed f).allowed ↔
    t ≠ endOfText ∧ (t.isSkipped = true ∨ f t = true) := by
  have hallowed : (Lexicon.ofAllowed f).allowed = scanOrder.filter fun t => t.isSkipped || f t := rfl
  rw [hallowed, List.mem_filter, Bool.or_eq_true]
  refine and_congr_left fun _ => ⟨?_, Terminal.mem_scanOrder⟩
  rintro h rfl
  exact absurd h (by decide)

theorem mem_tried : t ∈ (Lexicon.ofAllowed f).tried ↔ t ∈ (Lexicon.ofAllowed f).allowed ∧
    ∀ w ∈ (Lexicon.ofAllowed f).allowed, t ∉ w.covers := by
  have htried : (Lexicon.ofAllowed f).tried = (Lexicon.ofAllowed f).allowed.filter fun t =>
      !(Lexicon.ofAllowed f).allowed.any (·.covers.contains t) := rfl
  rw [htried, List.mem_filter]
  simp only [Bool.not_eq_true', List.any_eq_false, List.contains_iff_mem]

theorem tried_sorted (f : Terminal → Bool) :
    (Lexicon.ofAllowed f).tried.Pairwise fun a b => a.number < b.number :=
  (scanOrder_sorted.filter _).filter _

end

/-- The first of some terminals that matches. -/
theorem matchFirst?_eq {cs : List Char} {n : Nat} {w : Terminal} {ts : List Terminal}
    (hs : ts.Pairwise fun a b => a.number < b.number) (hw : w ∈ ts) (hn : w.match? cs = some n)
    (hbefore : ∀ r ∈ ts, r.number < w.number → r.match? cs = none) :
    Lexicon.matchFirst? cs ts = some (w, n) := by
  induction ts with
  | nil => cases hw
  | cons t ts ih =>
    rw [Lexicon.matchFirst?]
    rcases List.mem_cons.mp hw with rfl | hw
    · rw [hn]
    · have hlt := (List.pairwise_cons.mp hs).1 w hw
      rw [hbefore t List.mem_cons_self hlt]
      exact ih (List.pairwise_cons.mp hs).2 hw fun r hr => hbefore r (List.mem_cons_of_mem t hr)

theorem resolve_eq_self {lexicon : Lexicon} {t : Terminal} {x : List Char}
    (h : ∀ k ∈ t.covers, k ∈ lexicon.allowed → k.spelling?.any (·.toList == x) = false) :
    lexicon.resolve t x = t := by
  rw [Lexicon.resolve]
  have hnone : (t.covers.find? fun k =>
      lexicon.allowed.contains k && k.spelling?.any (·.toList == x)) = none := by
    rw [List.find?_eq_none]
    intro k hk hand
    rw [Bool.and_eq_true, List.contains_iff_mem] at hand
    rw [h k hk hand.1] at hand
    exact absurd hand.2 (by decide)
  rw [hnone]

theorem resolve_eq_of_mem {lexicon : Lexicon} {w t : Terminal} {s : String} {x : List Char}
    (ht : t ∈ w.covers) (hallowed : t ∈ lexicon.allowed) (hs : t.spelling? = some s)
    (hx : s.toList = x) (huniq : ∀ k ∈ w.covers, k.spelling? = some s → k = t) :
    lexicon.resolve w x = t := by
  rw [Lexicon.resolve]
  cases hf : w.covers.find? fun k =>
      lexicon.allowed.contains k && k.spelling?.any (·.toList == x) with
  | none =>
    have hnot := List.find?_eq_none.mp hf t ht
    rw [hs, Option.any_some, hx, beq_self_eq_true, Bool.and_true, List.contains_iff_mem] at hnot
    exact absurd hallowed hnot
  | some k =>
    have hk := List.find?_some hf
    rw [Bool.and_eq_true] at hk
    obtain ⟨r, hr, he⟩ := (Option.any_eq_true _ _).mp hk.2
    have hrs : r = s := String.ext_iff.mpr ((beq_iff_eq.mp he).trans hx.symm)
    exact huniq k (List.mem_of_find?_eq_some hf) (hrs ▸ hr)

/-! ## Clear tokens -/

/-- Nothing competes with the token `x` of the terminal `t` before `rest`. -/
structure Clear (c : Context) (t : Terminal) (x rest : List Char) : Prop where
  nonempty : x ≠ []
  read : t.match? (x ++ rest) = some x.length
  kept : t.isSkipped = false
  skipped : ∀ r : Terminal, r.isSkipped = true → r.match? (x ++ rest) = none
  first : ∀ r ∈ c.rivals t, r.number < t.number →
    r.match? (x ++ rest) = if t ∈ r.covers then some x.length else none
  narrow : ∀ k ∈ t.covers, k ∈ c.rivals t → k.spelling?.any (·.toList == x) = false

theorem Clear.next? {c : Context} {t : Terminal} {x rest : List Char} {q : Nat}
    (h : Clear c t x rest) (hc : Stands c q) (ht : Accepts q t) :
    (lexicons.getD q Lexicon.full).next? (x ++ rest) = some (t, x.length) := by
  have hend : t ≠ endOfText := by
    rintro rfl
    cases h.read
  obtain ⟨row, hrow, hm⟩ := accepts_iff.mp ht
  have hacc : ∀ r : Terminal, row.accepts r.number = true → Accepts q r := by
    intro r hr
    rw [Accepts, action?, hrow]
    exact hr
  have htrow : row.accepts t.number = true := by
    rw [mem_acceptSet] at hm
    exact hm
  have hrival : ∀ r ∈ (Lexicon.ofRow row).allowed, r.isSkipped = true ∨ r ∈ c.rivals t := by
    intro r hr
    obtain ⟨hne, hs | ha⟩ := mem_allowed.mp hr
    · exact .inl hs
    · exact .inr (mem_rivals hc ht (hacc r ha) hne)
  have hsorted : (Lexicon.ofRow row).tried.Pairwise fun a b => a.number < b.number :=
    tried_sorted _
  have htall : t ∈ (Lexicon.ofRow row).allowed := mem_allowed.mpr ⟨hend, .inr htrow⟩
  rw [lexicons_getD, hrow, Option.map_some, Option.getD_some, Lexicon.next?]
  by_cases hcov : ∃ w ∈ (Lexicon.ofRow row).allowed, t ∈ w.covers
  · obtain ⟨w, hw, htw⟩ := hcov
    obtain ⟨hlt, hws, _, hspelled, hwtop, huniq, hspell⟩ := covers_spec w w.mem_all t htw
    have hwr : w ∈ c.rivals t := by
      rcases hrival w hw with hs | hr
      · exact absurd (hs.symm.trans hws) (by decide)
      · exact hr
    have hwtried : w ∈ (Lexicon.ofRow row).tried :=
      mem_tried.mpr ⟨hw, fun v _ => hwtop v v.mem_all⟩
    have hmatch : w.match? (x ++ rest) = some x.length := by
      rw [h.first w hwr hlt, if_pos htw]
    have hbefore : ∀ r ∈ (Lexicon.ofRow row).tried, r.number < w.number →
        r.match? (x ++ rest) = none := by
      intro r hr hrw
      rcases hrival r (mem_tried.mp hr).1 with hs | hrr
      · exact h.skipped r hs
      · rw [h.first r hrr (Nat.lt_trans hrw hlt), if_neg]
        intro htr
        rw [huniq r r.mem_all htr] at hrw
        exact Nat.lt_irrefl _ hrw
    obtain ⟨s, hs⟩ := Option.isSome_iff_exists.mp hspelled
    have hsx : s.toList = x := eq_of_spelledAt? (match?_of_spelling hs _ ▸ h.read)
    rw [matchFirst?_eq hsorted hwtried hmatch hbefore]
    simp only [List.take_left, Option.some.injEq, Prod.mk.injEq, and_true]
    refine resolve_eq_of_mem htw htall hs hsx fun k hk he => hspell k hk (he.trans hs.symm)
  · have httried : t ∈ (Lexicon.ofRow row).tried :=
      mem_tried.mpr ⟨htall, fun w hw htw => hcov ⟨w, hw, htw⟩⟩
    have hbefore : ∀ r ∈ (Lexicon.ofRow row).tried, r.number < t.number →
        r.match? (x ++ rest) = none := by
      intro r hr hrt
      have hrall := (mem_tried.mp hr).1
      rcases hrival r hrall with hs | hrr
      · exact h.skipped r hs
      · rw [h.first r hrr hrt, if_neg fun htr => hcov ⟨r, hrall, htr⟩]
    rw [matchFirst?_eq hsorted httried h.read hbefore]
    simp only [List.take_left, Option.some.injEq, Prod.mk.injEq, and_true]
    refine resolve_eq_self fun k hk hka => ?_
    rcases hrival k hka with hks | hkr
    · rw [(covers_spec t t.mem_all k hk).2.2.1] at hks
      cases hks
    · exact h.narrow k hk hkr

end RbsSynth.Signature
