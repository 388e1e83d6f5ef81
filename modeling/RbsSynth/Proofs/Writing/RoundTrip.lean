import RbsSynth.Proofs.Reading.CommentRuns
import RbsSynth.Proofs.Reading.Reread

/-!
# Reading, writing and reading again

A text is read as the declarations that its own reading, written, is read as:

    parse text = .ok ds,  write ds indent = .ok written  →  parse written = .ok ds, but for places

Two kinds of texts are left out.  A writer leaves out the blanks at the end of a comment, and the question
mark of an optional would be read as the end of a symbol without one.
-/

namespace RbsSynth.Signature

open Terminal Text

/-! ## Comments of a text -/

/-- The comments of a text, in order, if it is read to its end. -/
def commentsOf (name text : String) : List CommentLine :=
  match Progress.run name 0 {} text.toList with
  | .ok st => st.comments.reverse
  | .error _ => []

theorem Progress.comments_of_feed {name : String} {st st' : Progress} {k : Token}
    (h : st.feed name k = .ok st') : st'.comments = st.comments := by
  unfold feed at h
  split at h
  · cases h
    rfl
  · cases h
  · cases h

/-- A comment that was read starts with its sign and ends with its line. -/
theorem Finds.comments {name : String} {st st' : Progress} {cs cs' : List Char} {w : List Token}
    (h : Finds name st cs w st' cs') {P : CommentLine → Prop} (hst : ∀ c ∈ st.comments, P c)
    (hP : ∀ y line column, '\n' ∉ y → P ⟨'#' :: y, line, column⟩) : ∀ c ∈ st'.comments, P c := by
  induction h with
  | refl => exact hst
  | blank _ _ ih => exact ih hst
  | comment _ hn _ ih =>
    refine ih (List.forall_mem_cons.mpr ⟨?_, hst⟩)
    obtain ⟨y, hy, hline⟩ := (takes_of_next? hn).take.1
    rw [hy]
    exact hP y _ _ hline
  | token _ _ _ hf _ ih => exact ih (by rw [Progress.comments_of_feed hf]; exact hst)

/-- A block has the texts of some of the lines. -/
theorem texts_of_mem_ofLines {b : CommentBlock} {cs : List CommentLine}
    (h : b ∈ CommentBlock.ofLines cs) :
    b.texts ≠ [] ∧ ∀ t ∈ b.texts, ∃ c ∈ cs, t = c.content := by
  have hfrom : ∀ {ds : List CommentLine} {d : CommentBlock}, b ∈ CommentBlock.blocksFrom d ds →
      (d.texts ≠ [] ∧ ∀ t ∈ d.texts, ∃ c ∈ cs, t = c.content) → (∀ c ∈ ds, c ∈ cs) →
      b.texts ≠ [] ∧ ∀ t ∈ b.texts, ∃ c ∈ cs, t = c.content := by
    intro ds
    induction ds with
    | nil =>
      intro d hb hd _
      rw [List.mem_singleton.mp hb]
      exact hd
    | cons e ds ih =>
      intro d hb hd hds
      obtain ⟨he, hds⟩ := List.forall_mem_cons.mp hds
      rw [CommentBlock.blocksFrom] at hb
      split at hb
      · exact ih hb ⟨by simp, forall_mem_snoc hd.2 ⟨e, he, rfl⟩⟩ hds
      · rcases List.mem_cons.mp hb with rfl | hb
        · exact hd
        · exact ih hb ⟨List.cons_ne_nil _ _, List.forall_mem_singleton.mpr ⟨e, he, rfl⟩⟩ hds
  rw [CommentBlock.ofLines] at h
  cases hs : CommentLine.sort cs with
  | nil => rw [hs] at h; cases h
  | cons c rest =>
    rw [hs] at h
    have hmem : ∀ d ∈ c :: rest, d ∈ cs := fun d hd =>
      (CommentLine.perm_sort cs).mem_iff.mp (hs ▸ hd)
    obtain ⟨hc, hrest⟩ := List.forall_mem_cons.mp hmem
    exact hfrom h ⟨List.cons_ne_nil _ _, List.forall_mem_singleton.mpr ⟨c, hc, rfl⟩⟩ hrest

theorem trimEnd_of_append {x y : List Char} (h : trimEnd (x ++ y) = x ++ y) : trimEnd y = y := by
  have htrim : ∀ x, trimEnd x = x.rdropWhile isBlank := fun _ => rfl
  rw [htrim, List.rdropWhile_eq_self_iff] at h ⊢
  intro hy
  have hlast := h (List.append_ne_nil_of_right_ne_nil x hy)
  rwa [List.getLast_append_of_ne_nil _ hy] at hlast

/-- The content of a comment without blanks at its end is a line without blanks at its end. -/
theorem content_trimmed {c : CommentLine} {y : List Char} (hc : c.text = '#' :: y) (hline : '\n' ∉ y)
    (htrim : trimEnd c.text = c.text) :
    '\n' ∉ c.content.toList ∧ trimEnd c.content.toList = c.content.toList := by
  rw [hc] at htrim
  rw [CommentLine.content, hc, List.drop_succ_cons, List.drop_zero]
  split
  · next z =>
    rw [String.toList_ofList]
    exact ⟨fun h => hline (List.mem_cons_of_mem _ h), trimEnd_of_append (x := ['#', ' ']) htrim⟩
  · rw [String.toList_ofList]
    exact ⟨hline, trimEnd_of_append (x := ['#']) htrim⟩

theorem toComment_fits {name : String} {b : CommentBlock} {cs : List CommentLine}
    (h : b ∈ CommentBlock.ofLines cs) (hcs : ∀ c ∈ cs, (∃ y, c.text = '#' :: y ∧ '\n' ∉ y))
    (htrim : ∀ c ∈ cs, trimEnd c.text = c.text) : (CommentBlock.toComment name b).Fits := by
  obtain ⟨hne, htexts⟩ := texts_of_mem_ofLines h
  refine ⟨b.texts, hne, rfl, fun t ht => ?_⟩
  obtain ⟨c, hc, rfl⟩ := htexts t ht
  obtain ⟨y, hy, hline⟩ := hcs c hc
  exact content_trimmed hy hline (htrim c hc)

theorem attach_comment_fits {name : String} {bs : List CommentBlock} {n : Notes} (hn : n.Fits)
    (hbs : ∀ b ∈ bs, (CommentBlock.toComment name b).Fits) : ∀ c ∈ (n.attach name bs).comment, c.Fits := by
  intro c hc
  rw [Notes.attach] at hc
  split at hc
  · next hplace =>
    rw [hn.placed hplace] at hc
    cases hc
  · obtain ⟨b, hb, rfl⟩ := Option.map_eq_some_iff.mp hc
    exact hbs b (List.mem_of_find?_eq_some hb)

/-- Throughout what is read the comments are lines without blanks at their ends, if those of the text are. -/
theorem parse_comments_fit {text source : String} {ds : List Declaration} (h : parse text source = .ok ds)
    (htrim : ∀ c ∈ commentsOf source text, trimEnd c.text = c.text) :
    ∀ d ∈ ds, d.Throughout (fun d => ∀ c ∈ d.notes.comment, c.Fits) fun m => ∀ c ∈ m.notes.comment, c.Fits := by
  obtain ⟨st, raw, sp, hrun, hraw, rfl⟩ := (kept_fitted source).parsed h
  rw [commentsOf, hrun] at htrim
  obtain ⟨w, hfinds⟩ := run_finds source {} text.toList st hrun
  have hlines : ∀ c ∈ st.comments.reverse, ∃ y, c.text = '#' :: y ∧ '\n' ∉ y := fun c hc =>
    hfinds.comments (P := fun c => ∃ y, c.text = '#' :: y ∧ '\n' ∉ y) (List.forall_mem_nil _)
      (fun y _ _ hy => ⟨y, rfl, hy⟩) c (List.mem_reverse.mp hc)
  have hblocks : ∀ b ∈ CommentBlock.ofLines st.comments.reverse, (CommentBlock.toComment source b).Fits :=
    fun b hb => toComment_fits hb hlines htrim
  refine List.forall_mem_map.mpr fun d hd => ?_
  refine Declaration.Throughout.mapNotes (hraw.fits d hd) _ (fun d hd => ?_) fun m hm => ?_
  · match d with
    | .globalDecl _ | .nestable (.classDecl ⟨_, _, _, _, _⟩) | .nestable (.moduleDecl ⟨_, _, _, _, _⟩)
    | .nestable (.interfaceDecl ⟨_, _, _, _⟩) | .nestable (.aliasDecl _) | .nestable (.constantDecl _) =>
      exact attach_comment_fits hd.notes hblocks
  · cases m with
    | visibility | nested => exact fun c hc => by cases hc
    | _ => exact attach_comment_fits hm.notes hblocks

/-! ## Optional symbols -/

/-- Whether no type in a type is an optional applied to a symbol without a mark at its end. -/
def TypeExpr.Unmarked (t : TypeExpr) : Prop := t.All fun u => ¬ u.IsMarkedSymbol

def Declaration.Unmarked (d : Declaration) : Prop :=
  d.Throughout (fun d => ∀ t ∈ d.types, t.Unmarked) fun m => ∀ t ∈ m.types, t.Unmarked

theorem TypeExpr.Unmarked.isRead {t : TypeExpr} (h : t.Unmarked) (hfits : t.AllFit) (name : String) :
    t.IsReadBack name := ⟨hfits.isRead name, reading_of_unmarked h⟩

/-! ## Top theorem -/

/-- **A text that was read can be written, and what was written is read as the same declarations.** -/
theorem parse_write_parse {text source : String} {ds : List Declaration} (h : parse text source = .ok ds)
    (htrim : ∀ c ∈ commentsOf source text, trimEnd c.text = c.text) (hmark : ∀ d ∈ ds, d.Unmarked)
    {indent : String} (hindent : IsIndent indent.toList) (name : String) :
    ∃ written, write ds indent = .ok written ∧
      ∃ ds', parse written name = .ok ds' ∧ sameDeclarations ds' ds = true := by
  have hfits := parse_fits h
  obtain ⟨written, hwritten⟩ := write_ok (fun d hd => (hfits d hd).allWritable) indent
  have hlegible : ∀ d ∈ ds, d.Throughout (Declaration.Legible name) (Member.Legible name) := fun d hd =>
    (((hfits d hd).and (hmark d hd)).and (parse_comments_fit h htrim d hd)).imp
      (fun _ h => ⟨h.1.1, fun t ht => (h.1.2 t ht).isRead (h.1.1.types t ht) name, h.2⟩)
      fun _ h => ⟨h.1.1, fun t ht => (h.1.2 t ht).isRead (h.1.1.types t ht) name, h.2⟩
  obtain ⟨ds', hparse, hsame⟩ := parse_write hlegible hindent hwritten
  exact ⟨written, hwritten, ds', hparse, decide_eq_true hsame⟩

def queueText : String := "# A queue.\n%a(pure)\nclass A\n  def m: (:a | Integer?) -> void\nend\n"

def queueType : TypeExpr :=
  .union [.literal ":a", .optional (.classInstance ⟨"Integer", [], false⟩ [])]

/-- What the text is read as. -/
def queueClass : Declaration :=
  .nestable (.classDecl ⟨⟨"A", [], false⟩, [], none,
    [.method ⟨"m", .ofInstance, [⟨⟨[⟨queueType, none⟩], [], none, [], [], [], none, .base .void⟩, none, []⟩],
      false, ⟨[], none, some ⟨"a.rbs", 4, 3, 4, 33⟩⟩⟩],
    ⟨[⟨"pure", some ⟨"a.rbs", 2, 1, 2, 9⟩⟩], some ⟨"A queue.", some ⟨"a.rbs", 1, 1, 1, 0⟩⟩,
      some ⟨"a.rbs", 2, 1, 5, 4⟩⟩⟩)

/-- A class with a comment, an annotation and a method. -/
theorem parse_write_parse_class : parse queueText "a.rbs" = .ok [queueClass] ∧
    ∃ written, write [queueClass] "\t" = .ok written ∧
      ∃ ds', parse written "b.rbs" = .ok ds' ∧ sameDeclarations ds' [queueClass] = true := by
  have hparse : parse queueText "a.rbs" = .ok [queueClass] := by decide +kernel
  have hinteger : (TypeExpr.classInstance ⟨"Integer", [], false⟩ []).Unmarked :=
    .mk id (List.forall_mem_nil _)
  have hunion : queueType.Unmarked :=
    .mk id (List.forall_mem_cons.mpr ⟨.mk id (List.forall_mem_nil _),
      List.forall_mem_singleton.mpr (.mk id (List.forall_mem_singleton.mpr hinteger))⟩)
  have hvoid : (TypeExpr.base .void).Unmarked := .mk id (List.forall_mem_nil _)
  have hmark : queueClass.Unmarked :=
    .mk (List.forall_mem_nil _)
      (List.forall_mem_singleton.mpr
        (List.forall_mem_cons.mpr ⟨hunion, List.forall_mem_singleton.mpr hvoid⟩))
      (List.forall_mem_nil _)
  have hindent : IsIndent "\t".toList := fun _ ha => .inr (List.mem_singleton.mp ha)
  exact ⟨hparse, parse_write_parse hparse (by decide +kernel) (List.forall_mem_singleton.mpr hmark)
    hindent "b.rbs"⟩

end RbsSynth.Signature
