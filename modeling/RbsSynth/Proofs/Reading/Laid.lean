import RbsSynth.Proofs.Reading.Above
import RbsSynth.Proofs.Reading.Heads

/-!
# Lines with comments among them are read

`Laid` says that lines of which only the last ones have comments are read as a nonterminal, with a value
of which something holds by the blocks of all comments of the text.

    the body behind its notes  →  notes and body together are an item                        (Laid.item)
    each of some lines is an item  →  all together are a list of items                         (laidAll)
    the first line of a declaration, its members, an `end`  →  the declaration             (Opens.laid)
-/

namespace RbsSynth.Signature

open Terminal Text Value

variable {name : String} {cs : List Context} {α β : Type}

/-- What a line starts with: neither a blank nor the sign of a comment. -/
def IsHead (x : List Char) : Prop := ∃ d y, x = d :: y ∧ isBlankChar d = false ∧ d ≠ '#'

theorem IsHead.append {x : List Char} (h : IsHead x) (y : List Char) : IsHead (x ++ y) := by
  obtain ⟨d, z, rfl, hd⟩ := h
  exact ⟨d, z ++ y, rfl, hd⟩

/-- The lines `head ++ tail` are read as `X`; no comment is in `head`. -/
def Laid (name : String) (cs : List Context) (X : Nonterminal) (head tail : List Char) (val : α → Value)
    (Q : α → List CommentBlock → Prop) : Prop :=
  ∀ c ∈ cs, ∀ p rest, ∃ w n k c' a, Derives name (.nonterminal X) false w n ∧ n.value = val a ∧
    Scans c p (head ++ tail ++ rest) w k c' (p.advance (head ++ tail)) rest ∧ c' ∈ lineEnds ∧
    Noted (p.advance head) (p.advance (head ++ tail)) k (Q a)

section

variable {X Y : Nonterminal} {x head tail : List Char} {val : α → Value}
  {Q Q' : α → List CommentBlock → Prop}

theorem Laid.imp (h : Laid name cs X head tail val Q) (himp : ∀ a bs, Q a bs → Q' a bs) :
    Laid name cs X head tail val Q' := by
  intro c hc p rest
  obtain ⟨w, n, k, c', a, hw, hn, hscan, hc', hnoted⟩ := h c hc p rest
  exact ⟨w, n, k, c', a, hw, hn, hscan, hc', hnoted.imp (himp a)⟩

theorem Laid.within {cs' : List Context} (h : Laid name cs X head tail val Q) (hsub : cs' ⊆ cs) :
    Laid name cs' X head tail val Q := fun c hc => h c (hsub hc)

theorem scans_break {c : Context} {p : Position} {rest : List Char} :
    Scans c p ('\n' :: rest) [] [] c (p.advance ['\n']) rest := by
  refine .blank (b := ['\n']) (fun a ha => ?_) (.refl _ _ _)
  rw [List.mem_singleton.mp ha]
  rfl

/-- What is read up to the end of a line. -/
theorem Reads.laid {a : α} (h : ∀ y, Reads name cs x ('\n' :: y) (.nonterminal X) false (.value (val a))
    lineEnds) : Laid name cs X (x ++ ['\n']) [] val fun a' _ => a' = a := by
  intro c hc p rest
  obtain ⟨w, n, c', b', hw, hb, hn, hscan, hc'⟩ := h rest c hc p
  obtain rfl : b' = false := Bool.eq_false_iff.mpr fun ht => by cases hb ht
  have hvalue : n.value = val a := by
    generalize n.value = v at hn
    cases hn
    rfl
  refine ⟨w, n, [], c', a, hw, hvalue, ?_, hc', noted_nil fun _ => rfl⟩
  have hall := hscan.trans scans_break
  rw [List.append_nil, List.append_nil] at hall
  rwa [List.append_nil, List.append_assoc, Position.advance_append]

/-- The value of a part that is all of a rule. -/
theorem Laid.promote (r : Rule) (hr : r.shape = (Y, [.one X])) (hroot : r ≠ .root ∧ r.isOpen = false)
    (hbuild : ∀ v sp, r.build name sp [v] = some v) (h : Laid name cs X head tail val Q) :
    Laid name cs Y head tail val Q := by
  intro c hc p rest
  obtain ⟨w, n, k, c', a, hw, hn, hscan, hc', hnoted⟩ := h c hc p rest
  have hrule := Derives.rule hroot (by rw [hr]; exact List.mem_singleton_self _) hw.singleton
    (hbuild n.value _)
  rw [hr] at hrule
  exact ⟨w, _, k, c', a, hrule, hn, hscan, hc', hnoted⟩

/-- **What stands behind its notes.** -/
theorem Laid.item {item : Nonterminal} {val' : β → Value} {Q' : β → List CommentBlock → Prop}
    (h : Laid name cs X (head ++ ['\n']) tail val Q) (r : Rule) (out : α → Notes → β)
    (hr : r.shape = (item, [.one .annotations, .one X])) (hroot : r ≠ .root ∧ r.isOpen = false)
    (hbuild : ∀ a as sp,
      r.build name sp [.annotations as, val a] = some (val' (out a (notesFor name as sp))))
    (hcs : lineEnds ⊆ cs) (hcs' : cs ⊆ declarationOpens) {n : Notes} (hn : ∀ a ∈ n.annotations, a.Fits)
    (hcomment : ∀ c ∈ n.comment, c.Fits) {pad : String} (hpad : IsIndent pad.toList) {lines : List String}
    (hlines : Writer.noteLines pad n = .ok lines) (hhead : IsHead head)
    (hQ : ∀ a N bs, Q a bs → (Notes.attach name bs N).erase = n.erase → Q' (out a N) bs) :
    Laid name cs item [] (lineText lines ++ (pad.toList ++ (head ++ ['\n'] ++ tail))) val' Q' := by
  intro c hc p rest
  obtain ⟨w, raw, k, c₁, habove, hscan, hc₁⟩ := scans_above name hn hcomment hpad hlines (hcs' hc) p
    (pad.toList ++ (head ++ ['\n'] ++ tail) ++ rest)
  have hc₁ : c₁ ∈ cs := by
    rcases hc₁ with rfl | rfl
    · exact hc
    · exact hcs (by decide)
  obtain ⟨w', nb, k', c₂, a, hbody, hval, hscans, hc₂, hnoted⟩ :=
    h c₁ hc₁ ((p.advance (lineText lines)).advance pad.toList) rest
  obtain ⟨na, hna, hraw⟩ := habove.annotated.derives
  obtain ⟨t, u, rfl, ht⟩ : ∃ t u, w' = t :: u ∧
      t.span.start = (p.advance (lineText lines)).advance pad.toList := by
    obtain ⟨d, y, rfl, hd, hd'⟩ := hhead
    exact Scans.first (x := y ++ ['\n'] ++ tail) hscans hd hd'
  have hall : DerivesAll name [.nonterminal .annotations, .nonterminal X] false (w ++ t :: u) [na, nb] := by
    have hcons := DerivesAll.cons hna hbody.singleton fun hb => by cases hb
    rwa [Bool.or_false] at hcons
  -- the place of the notes starts on the line below the comment
  obtain ⟨s, hs, hline⟩ : ∃ s, hull [na, nb] = some s ∧ s.start.line = p.line + k.length := by
    have hstart := (hull_start [na, nb]).trans hall.start
    cases w with
    | nil =>
      obtain ⟨s, hs, hstart⟩ := Option.map_eq_some_iff.mp hstart
      refine ⟨s, hs, ?_⟩
      rw [show s.start = t.span.start from hstart, ht, hpad.line, habove.ends rfl]
    | cons t' w =>
      obtain ⟨s, hs, hstart⟩ := Option.map_eq_some_iff.mp hstart
      refine ⟨s, hs, ?_⟩
      rw [show s.start = t'.span.start from hstart]
      exact habove.starts t' rfl
  have hvalue : r.build name (hull [na, nb]) ([na, nb].map (·.value))
      = some (val' (out a (notesFor name raw (hull [na, nb])))) := by
    rw [List.map_cons, List.map_singleton, hraw, hval]
    exact hbuild a raw _
  have hrule := Derives.rule hroot (by rw [hr]; exact List.mem_singleton_self _) hall hvalue
  rw [hr] at hrule
  have hend : p.advance ([] ++ (lineText lines ++ (pad.toList ++ (head ++ ['\n'] ++ tail))))
      = ((p.advance (lineText lines)).advance pad.toList).advance (head ++ ['\n'] ++ tail) := by
    rw [List.nil_append, Position.advance_append, Position.advance_append]
  refine ⟨w ++ t :: u, _, k ++ k', c₂, _, hrule, rfl, ?_, hc₂, ?_⟩
  · rw [hend, List.nil_append, List.append_assoc]
    refine hscan.trans ?_
    rw [List.append_assoc]
    exact .blank hpad.blank hscans
  · have hbelow : (p.advance (lineText lines)).line
        < (((p.advance (lineText lines)).advance pad.toList).advance (head ++ ['\n'])).line := by
      have hsame := hpad.line (p.advance (lineText lines))
      have hle := Position.line_le ((p.advance (lineText lines)).advance pad.toList) head
      rw [Position.advance_append, Position.line_advance _ ['\n'], List.count_singleton_self]
      omega
    rw [hend, hs]
    refine ((habove.noted hline hbelow).append hnoted ?_ ?_).imp fun bs hbs => hQ a _ bs hbs.2 hbs.1
    · have := Position.line_le p (lineText lines)
      show p.line ≤ _
      omega
    · rw [Position.advance_append _ (head ++ ['\n']) tail]
      exact Position.line_le _ _

end

/-! ## Lists of items -/

/-- Lines that are read as a list that may be left out. -/
def LaidAll (name : String) (cs : List Context) (m : Nonterminal) (x : List Char) (wrap : List α → Value)
    (Q : List α → List CommentBlock → Prop) : Prop :=
  ∀ c ∈ cs, ∀ p rest, ∃ w as k c', Listed name m wrap w as ∧
    Scans c p (x ++ rest) w k c' (p.advance x) rest ∧ c' ∈ cs ∧ Noted p (p.advance x) k (Q as)

/-- Items one below the other, behind others. -/
theorem laidAll {m item : Nonterminal} (one more : Rule) (hone : one.shape = (m, [.one item]))
    (hmore : more.shape = (m, [.one m, .one item]))
    (hroot : (one ≠ .root ∧ one.isOpen = false) ∧ more ≠ .root ∧ more.isOpen = false)
    {wrap : List α → Value} {val : α → Value} (hbuild : ∀ a sp, one.build name sp [val a] = some (wrap [a]))
    (hbuilds : ∀ as a sp, more.build name sp [wrap as, val a] = some (wrap (as ++ [a])))
    (hcs : lineEnds ⊆ cs) {Q : β → α → List CommentBlock → Prop} {items : List (List Char × β)}
    (hitems : ∀ i ∈ items, Laid name cs item [] i.1 val (Q i.2)) :
    LaidAll name cs m (items.flatMap (·.1)) wrap fun as bs =>
      List.Forall₂ (fun b a => Q b a bs) (items.map (·.2)) as := by
  suffices h : ∀ w₀ as₀, Listed name m wrap w₀ as₀ → ∀ c ∈ cs, ∀ p rest, ∃ w as k c',
      Listed name m wrap (w₀ ++ w) (as₀ ++ as) ∧
      Scans c p (items.flatMap (·.1) ++ rest) w k c' (p.advance (items.flatMap (·.1))) rest ∧ c' ∈ cs ∧
      Noted p (p.advance (items.flatMap (·.1))) k fun bs =>
        List.Forall₂ (fun b a => Q b a bs) (items.map (·.2)) as from h [] [] .nil
  induction items with
  | nil =>
    intro w₀ as₀ h₀ c hc p rest
    refine ⟨[], [], [], c, ?_, .refl c p rest, hc, noted_nil fun _ => .nil⟩
    rwa [List.append_nil, List.append_nil]
  | cons i items ih =>
    obtain ⟨hi, hitems⟩ := List.forall_mem_cons.mp hitems
    intro w₀ as₀ h₀ c hc p rest
    obtain ⟨w, n, k, c', a, hw, hn, hscan, hc', hnoted⟩ := hi c hc p (items.flatMap (·.1) ++ rest)
    have hfirst : Listed name m wrap (w₀ ++ w) (as₀ ++ [a]) :=
      h₀.concat one more hone hmore hroot hw (fun sp => by rw [hn]; exact hbuild a sp)
        fun sp => by rw [hn]; exact hbuilds as₀ a sp
    obtain ⟨w', as, k', c'', hlisted, hscans, hc'', hnoteds⟩ :=
      ih hitems _ _ hfirst c' (hcs hc') (p.advance i.1) rest
    rw [List.append_assoc, List.append_assoc] at hlisted
    refine ⟨w ++ w', a :: as, k ++ k', c'', hlisted, ?_, hc'', ?_⟩
    · rw [List.flatMap_cons, List.append_assoc, Position.advance_append]
      exact hscan.trans hscans
    · rw [List.flatMap_cons, Position.advance_append]
      exact (hnoted.append hnoteds (Position.line_le _ _) (Position.line_le _ _)).imp
        fun bs hbs => .cons hbs.1 hbs.2

/-! ## Declarations with members -/

theorem Opens.laid {r : Rule} {head body : List Char} {f : List Member → Nestable} {pad : String}
    {Q : List Member → List CommentBlock → Prop} (h : Opens name r head f)
    (hroot : r ≠ .root ∧ r.isOpen = false) (hpad : IsIndent pad.toList)
    (hbody : LaidAll name lineEnds .members body .members Q) :
    Laid name declarationOpens r.shape.1 (head ++ ['\n']) (body ++ (pad.toList ++ "end\n".toList))
      .nestable fun a bs => ∃ raw, a = f raw ∧ Q raw bs := by
  intro c hc p rest
  obtain ⟨xs, parts, hhead, hrest⟩ := h
  obtain ⟨w, ns, c₁, b, hw, hb, hns, hscan, hc₁⟩ :=
    hhead (body ++ (pad.toList ++ ("end".toList ++ '\n' :: rest))) c hc p
  obtain rfl : b = false := Bool.eq_false_iff.mpr fun ht => by cases hb ht
  obtain ⟨w', raw, k, c₂, ⟨ns', hw', hns'⟩, hscans, hc₂, hnoted⟩ := hbody c₁ hc₁
    ((p.advance head).advance ['\n']) (pad.toList ++ ("end".toList ++ '\n' :: rest))
  have hend : Reads name lineEnds "end".toList ('\n' :: rest) (.terminal endWord) false
      (.token endWord "end".toList) [.behind endWord] :=
    .keyword (by decide) (by decide) (noLabel_of (by decide) rest)
  obtain ⟨w'', n, c₃, b, hw'', hb, hn, hscanEnd, hc₃⟩ := hend c₂ hc₂
    ((((p.advance head).advance ['\n']).advance body).advance pad.toList)
  obtain rfl : b = false := Bool.eq_false_iff.mpr fun ht => by cases hb ht
  have hall := hw.append (hw'.append hw''.singleton)
  obtain ⟨hxs, hbuild⟩ := hrest raw
  have hvalues : List.Forall₂ Part.Is (parts ++ (partsOf .members raw ++ [.token endWord "end".toList]))
      ((ns ++ (ns' ++ [n])).map (·.value)) := by
    rw [List.map_append, List.map_append]
    exact List.rel_append hns (List.rel_append hns' (.cons hn .nil))
  have hvalue := (hbuild (hull (ns ++ (ns' ++ [n])))).eq hvalues
  have hpos : p.advance (head ++ ['\n'] ++ (body ++ (pad.toList ++ "end\n".toList)))
      = (((((p.advance head).advance ['\n']).advance body).advance pad.toList).advance
          "end".toList).advance ['\n'] := by
    rw [show "end\n".toList = "end".toList ++ ['\n'] from rfl]
    simp only [Position.advance_append]
  refine ⟨_, _, k, c₃, f raw, .rule hroot hxs hall hvalue, rfl, ?_, ?_, ?_⟩
  · rw [hpos]
    have hall := (hscan.trans scans_break).trans
      (hscans.trans (.blank hpad.blank (hscanEnd.trans scans_break)))
    simp only [List.append_nil, List.nil_append] at hall
    rw [show "end\n".toList = "end".toList ++ ['\n'] from rfl]
    simpa only [List.append_assoc, List.cons_append, List.nil_append] using hall
  · rw [List.mem_singleton.mp hc₃]
    decide
  · rw [hpos, Position.advance_append]
    refine (hnoted.behind ?_).imp fun bs hbs => ⟨raw, rfl, hbs⟩
    simpa only [Position.advance_append] using Position.line_le
      (((p.advance head).advance ['\n']).advance body) (pad.toList ++ ("end".toList ++ ['\n']))

end RbsSynth.Signature
