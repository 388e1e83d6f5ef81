import RbsSynth.Proofs.Reading.Lines
import RbsSynth.Proofs.Writing.Total

/-!
# What stands above is read

Above a declaration or a member stand its comment and its annotations.  What is read of them are notes
whose place starts with the first token, and the comment is looked for on the line above that place:

    the lines of n, then a token behind them  →  the notes that are read are n, but for places   (Above.noted)
-/

namespace RbsSynth.Signature

open Terminal Text

variable {name : String}

/-! ## Where a derivation starts -/

theorem hull_start (ns : List Node) :
    (hull ns).map (·.start) = ns.findSome? fun n => n.span.map (·.start) := by
  have hspans : (ns.filterMap (·.span)).head?.map (·.start)
      = ns.findSome? fun n => n.span.map (·.start) := by
    induction ns with
    | nil => rfl
    | cons n ns ih =>
      rw [List.findSome?_cons]
      cases hn : n.span with
      | none => rw [List.filterMap_cons_none hn, ih]; rfl
      | some s => rw [List.filterMap_cons_some hn]; rfl
  rw [← hspans, hull]
  cases hs : ns.filterMap (·.span) with
  | nil => rfl
  | cons s ss =>
    cases hlast : (s :: ss).getLast? with
    | none => simp at hlast
    | some l => rfl

mutual

/-- What is read starts with its first token. -/
theorem Derives.start {x : Symbol} {b : Bool} {w : List Token} {n : Node} (h : Derives name x b w n) :
    n.span.map (·.start) = w.head?.map (·.span.start) := by
  match h with
  | .token t => rfl
  | .node _ _ h _ => exact (hull_start _).trans h.start

theorem DerivesAll.start {xs : List Symbol} {b : Bool} {w : List Token} {ns : List Node}
    (h : DerivesAll name xs b w ns) :
    (ns.findSome? fun n => n.span.map (·.start)) = w.head?.map (·.span.start) := by
  match h with
  | .nil => rfl
  | @DerivesAll.cons _ _ _ _ _ w ws n ns h hs _ =>
    rw [List.findSome?_cons, h.start, hs.start]
    cases w <;> rfl

end

/-- What is scanned of a text that starts with neither a blank nor a comment starts with a token. -/
theorem Scans.first {c c' : Context} {p p' : Position} {d : Char} {x rest : List Char} {w : List Token}
    {k : List CommentLine} (h : Scans c p (d :: x ++ rest) w k c' p' rest) (hd : isBlankChar d = false)
    (hd' : d ≠ '#') : ∃ t w', w = t :: w' ∧ t.span.start = p := by
  generalize hcs : d :: x ++ rest = cs at h
  induction h with
  | refl =>
    have hlen := congrArg List.length hcs
    simp only [List.length_append, List.length_cons] at hlen
    omega
  | @blank _ _ _ _ b _ _ _ _ hb _ ih =>
    cases b with
    | nil => exact ih hcs
    | cons e b =>
      obtain ⟨rfl, -⟩ := List.cons.inj hcs
      rw [hb d List.mem_cons_self] at hd
      cases hd
  | comment => exact absurd (List.cons.inj hcs).1 hd'
  | token => exact ⟨_, _, rfl, rfl⟩

/-! ## Lists that grow at their end -/

theorem Derives.rule {r : Rule} {xs : List Symbol} {b : Bool} {w : List Token} {ns : List Node} {v : Value}
    (hr : r ≠ .root ∧ r.isOpen = false) (hxs : xs ∈ RulePart.bodies r.shape.2)
    (h : DerivesAll name xs b w ns) (hv : r.build name (hull ns) (ns.map (·.value)) = some v) :
    Derives name (.nonterminal r.shape.1) false w ⟨v, hull ns⟩ := by
  have hnode := Derives.node (p := ⟨r, xs⟩) (mem_productions hxs) hr.1 h hv
  have hclosed : r.opens b = false := Bool.eq_false_iff.mpr fun ho => by
    rw [Rule.isOpen_of_opens ho] at hr
    cases hr.2
  rwa [hclosed] at hnode

section

variable {α : Type} {m : Nonterminal} {wrap : List α → Value} {w w' : List Token} {as : List α} {a : α}

/-- The items so far of a list that is left out without any. -/
def Listed (name : String) (m : Nonterminal) (wrap : List α → Value) (w : List Token) (as : List α) : Prop :=
  ∃ ns, DerivesAll name (symbolsOf m as) false w ns ∧
    List.Forall₂ Part.Is (partsOf wrap as) (ns.map (·.value))

theorem Listed.nil : Listed name m wrap [] [] := ⟨[], .nil, .nil⟩

/-- One more item. -/
theorem Listed.concat {item : Symbol} {n : Node} (h : Listed name m wrap w as) (one more : Rule)
    (hone : one.shape = (m, [.must item])) (hmore : more.shape = (m, [.one m, .must item]))
    (hroot : (one ≠ .root ∧ one.isOpen = false) ∧ more ≠ .root ∧ more.isOpen = false)
    (hitem : Derives name item false w' n) (hbuild : ∀ sp, one.build name sp [n.value] = some (wrap [a]))
    (hbuilds : ∀ sp, more.build name sp [wrap as, n.value] = some (wrap (as ++ [a]))) :
    Listed name m wrap (w ++ w') (as ++ [a]) := by
  obtain ⟨ns, hns, hvs⟩ := h
  suffices h : ∃ n', Derives name (.nonterminal m) false (w ++ w') n' ∧ n'.value = wrap (as ++ [a]) by
    obtain ⟨n', hn', hv⟩ := h
    have hlisted : Part.Is (.value (wrap (as ++ [a]))) n'.value := by rw [hv]; exact .value _
    cases as with
    | nil => exact ⟨[n'], hn'.singleton, .cons hlisted .nil⟩
    | cons => exact ⟨[n'], hn'.singleton, .cons hlisted .nil⟩
  cases as with
  | nil =>
    obtain ⟨-, rfl, rfl⟩ := hns.of_nil
    have hrule := Derives.rule hroot.1 (by rw [hone]; exact List.mem_singleton_self _) hitem.singleton
      (hbuild _)
    rw [hone] at hrule
    exact ⟨_, hrule, rfl⟩
  | cons b bs =>
    have hall := hns.append hitem.singleton
    have hvalue : (ns ++ [n]).map (·.value) = [wrap (b :: bs), n.value] := by
      rw [List.map_append]
      generalize ns.map (·.value) = vs at hvs
      obtain _ | ⟨hv, ⟨⟩⟩ := hvs
      cases hv
      rfl
    have hrule := Derives.rule hroot.2 (by rw [hmore]; exact List.mem_singleton_self _) hall
      (by rw [hvalue]; exact hbuilds _)
    rw [hmore] at hrule
    exact ⟨_, hrule, rfl⟩

end

/-! ## Annotations -/

/-- The annotations so far. -/
abbrev Annotated (name : String) (w : List Token) (as : List Annotation) : Prop :=
  Listed name .annotationTokens .annotations w as

theorem Annotated.derives {w : List Token} {as : List Annotation} (h : Annotated name w as) :
    ∃ n, Derives name (.nonterminal .annotations) false w n ∧ n.value = .annotations as := by
  obtain ⟨ns, hns, hvs⟩ := h
  have hxs : symbolsOf .annotationTokens as ∈ RulePart.bodies Rule.annotations.shape.2 := by
    have hmem := mem_bodies_maybe (m := .annotationTokens) as mem_bodies_nil
    rwa [List.append_nil] at hmem
  have hbuild : ∀ sp, Builds (Rule.annotations.build name sp) (.annotations as) (partsOf .annotations as) :=
    fun sp => by cases as <;> rfl
  exact ⟨_, Derives.rule (by decide) hxs hns ((hbuild _).eq hvs), rfl⟩

theorem annotationLines_cons {pad : String} {a : Annotation} {as : List Annotation} {lines : List String}
    (h : Writer.annotationLines pad (a :: as) = .ok lines) :
    ∃ s more, Writer.annotationText a.body = .ok s ∧ Writer.annotationLines pad as = .ok more ∧
      lines = (pad ++ s) :: more := by
  obtain ⟨s, hs, h⟩ := exists_of_bind h
  obtain ⟨more, hmore, h⟩ := exists_of_bind h
  exact ⟨s, more, hs, hmore, (Except.ok.inj h).symm⟩

/-- Annotations one below the other, behind others. -/
theorem scans_annotations {pad : String} (hpad : IsIndent pad.toList) {as : List Annotation}
    (has : ∀ a ∈ as, a.Fits) {lines : List String} (hlines : Writer.annotationLines pad as = .ok lines)
    {w₀ : List Token} {raw₀ : List Annotation} (h₀ : Annotated name w₀ raw₀) {c : Context}
    (hc : c ∈ declarationOpens) (p : Position) (rest : List Char) :
    ∃ w raw c', Annotated name (w₀ ++ w) (raw₀ ++ raw) ∧
      raw.map Annotation.erase = as.map Annotation.erase ∧
      Scans c p (lineText lines ++ rest) w [] c' (p.advance (lineText lines)) rest ∧
      (c' = c ∨ c' = .behind annotation) ∧ (∀ t ∈ w.head?, t.span.start.line = p.line) ∧
      (w = [] → (p.advance (lineText lines)).line = p.line) := by
  induction as generalizing lines w₀ raw₀ c p with
  | nil =>
    obtain rfl : lines = [] := (Except.ok.inj hlines).symm
    refine ⟨[], [], c, ?_, rfl, .refl c p rest, .inl rfl, fun t ht => ?_, fun _ => rfl⟩
    swap
    · cases ht
    rwa [List.append_nil, List.append_nil]
  | cons a as ih =>
    obtain ⟨ha, has⟩ := List.forall_mem_cons.mp has
    obtain ⟨s, more, hs, hmore, rfl⟩ := annotationLines_cons hlines
    obtain ⟨d, hd, hbody, s', hs', hchars⟩ := Writer.annotationText_eq ha
    obtain rfl : s' = s := Except.ok.inj (hs'.symm.trans hs)
    obtain ⟨halone, hnext⟩ := (by decide : ∀ c ∈ declarationOpens, alone c annotation '%' [] = true ∧
      c.next annotation = .behind annotation) c hc
    have hclear : ∀ r, Clear c annotation s'.toList r := fun r => by
      rw [hchars]
      exact clear_annotation halone hd hbody r
    -- the first one is a token of the list
    have hfirst : ∀ span : Span, Annotated name (w₀ ++ [⟨ annotation, .ofList s'.toList, span⟩])
        (raw₀ ++ [⟨a.body, some (span.location name)⟩]) := by
      intro span
      have htoken : Derives name _ false _ _ := .token ⟨ annotation, .ofList s'.toList, span⟩
      refine h₀.concat .annotationTokens .annotationTokensMore rfl rfl (by decide) htoken (fun sp => ?_)
        fun sp => ?_
      · show some (Value.annotations [_]) = _
        rw [String.ofList_toList, annotation_of_delimited hchars]
      · show some (Value.annotations (raw₀ ++ [_])) = _
        rw [String.ofList_toList, annotation_of_delimited hchars]
    obtain ⟨w, raw, c', hlisted, herase, hscan, hc', -, -⟩ := ih has hmore (hfirst
      ⟨p.advance pad.toList, (p.advance pad.toList).advance s'.toList⟩)
      (by decide : Context.behind annotation ∈ declarationOpens)
      (((p.advance pad.toList).advance s'.toList).advance ['\n'])
    have htext : lineText ((pad ++ s') :: more) ++ rest
        = pad.toList ++ (s'.toList ++ (['\n'] ++ (lineText more ++ rest))) := by
      rw [lineText, List.flatMap_cons, String.toList_append]
      simp only [List.append_assoc, lineText]
    have hend : p.advance (lineText ((pad ++ s') :: more))
        = (((p.advance pad.toList).advance s'.toList).advance ['\n']).advance (lineText more) := by
      rw [lineText, List.flatMap_cons, String.toList_append]
      simp only [Position.advance_append, lineText]
    rw [List.append_assoc, List.append_assoc] at hlisted
    refine ⟨_, _, c', hlisted, ?_, ?_, ?_, ?_, fun h => by cases h⟩
    · rw [List.singleton_append, List.map_cons, List.map_cons, herase]
      rfl
    · rw [htext, hend]
      refine .blank hpad.blank (.token (hclear _) (.blank (b := ['\n']) (fun a ha => ?_) ?_))
      · rw [List.mem_singleton.mp ha]
        rfl
      · rwa [hnext]
    · exact .inr (hc'.elim id id)
    · intro t ht
      obtain rfl := Option.some.inj ht
      exact hpad.line p

/-! ## Notes -/

/-- What is read above something between two line starts: tokens of annotations and commented lines. -/
structure Above (name : String) (n : Notes) (p p' : Position) (w : List Token) (raw : List Annotation)
    (k : List CommentLine) : Prop where
  annotated : Annotated name w raw
  annotations : raw.map Annotation.erase = n.annotations.map Annotation.erase
  run : IsRun p.line k
  comment : n.comment.map (·.text) = if k.isEmpty then none else some (join "\n" (k.map (·.content)))
  starts : ∀ t ∈ w.head?, t.span.start.line = p.line + k.length
  ends : w = [] → p'.line = p.line + k.length
  le : p.line + k.length ≤ p'.line

theorem scans_above (name : String) {n : Notes} (hn : ∀ a ∈ n.annotations, a.Fits)
    (hcomment : ∀ c ∈ n.comment, c.Fits) {pad : String} (hpad : IsIndent pad.toList)
    {lines : List String} (hlines : Writer.noteLines pad n = .ok lines) {c : Context}
    (hc : c ∈ declarationOpens) (p : Position) (rest : List Char) :
    ∃ w raw k c', Above name n p (p.advance (lineText lines)) w raw k ∧
      Scans c p (lineText lines ++ rest) w k c' (p.advance (lineText lines)) rest ∧
      (c' = c ∨ c' = .behind annotation) := by
  obtain ⟨more, has, hlines⟩ := exists_of_bind hlines
  obtain rfl := Except.ok.inj hlines
  obtain ⟨k, hscan, hrun, htext, hend⟩ : ∃ k,
      Scans c p (lineText (Writer.commentLines pad n.comment) ++ (lineText more ++ rest)) [] k c
        (p.advance (lineText (Writer.commentLines pad n.comment))) (lineText more ++ rest) ∧
      IsRun p.line k ∧
      n.comment.map (·.text) = (if k.isEmpty then none else some (join "\n" (k.map (·.content)))) ∧
      (p.advance (lineText (Writer.commentLines pad n.comment))).line = p.line + k.length := by
    cases hc : n.comment with
    | none => exact ⟨[], .refl _ _ _, rfl, rfl, rfl⟩
    | some comment =>
      obtain ⟨ls, hne, htext, hls⟩ := hcomment comment hc
      obtain ⟨k, hscan, hrun, hcontents, hend⟩ := scans_comments hpad hls c p (lineText more ++ rest)
      rw [commentLines_join pad hne htext fun l hl => (hls l hl).1]
      refine ⟨k, hscan, hrun, ?_, hend⟩
      have hk : k ≠ [] := fun he => hne (by rw [← hcontents, he]; rfl)
      rw [Option.map_some, htext, hcontents, List.isEmpty_eq_false_iff.mpr hk]
      rfl
  obtain ⟨w, raw, c', hlisted, herase, hscans, hc', hstart, hnone⟩ := scans_annotations hpad hn has
    (.nil : Annotated name [] []) hc (p.advance (lineText (Writer.commentLines pad n.comment))) rest
  refine ⟨w, raw, k, c', ⟨hlisted, herase, hrun, htext, ?_, ?_, ?_⟩, ?_, hc'⟩
  · rwa [hend] at hstart
  · rwa [lineText_append, Position.advance_append, ← hend]
  · rw [lineText_append, Position.advance_append, ← hend]
    exact Position.line_le _ _
  · rw [lineText_append, Position.advance_append, List.append_assoc]
    have hboth := hscan.trans hscans
    rwa [List.nil_append, List.append_nil] at hboth

theorem Comment.erase_eq {c d : Option Comment} (h : c.map (·.text) = d.map (·.text)) :
    c.map Comment.erase = d.map Comment.erase := by
  cases c <;> cases d <;> simp_all [Comment.erase]

/-- **Notes are read as they were.** -/
theorem Above.noted {n : Notes} {p p₁ p' : Position} {w : List Token} {raw : List Annotation}
    {k : List CommentLine} (h : Above name n p p₁ w raw k) {s : Span}
    (hs : s.start.line = p.line + k.length) (hlt : p₁.line < p'.line) :
    Noted p p' k fun bs => (Notes.attach name bs (notesFor name raw (some s))).erase = n.erase := by
  refine (noted_comment name h.run (Nat.lt_of_le_of_lt h.le hlt)).imp fun bs hbs => ?_
  rw [← hs, ← h.comment] at hbs
  have hcomment := Comment.erase_eq hbs
  show Notes.mk (raw.map Annotation.erase) _ none = Notes.mk _ _ none
  rw [h.annotations]
  exact congrArg (Notes.mk _ · none) hcomment

end RbsSynth.Signature
