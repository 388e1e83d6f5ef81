import RbsSynth.Proofs.Merge.Groups
import RbsSynth.Proofs.Reading.Fits
import RbsSynth.Signature.Writer

/-!
# What was read and merged can be written

A writer fails on annotations that cannot be delimited and on methods without any type.  What is read has
neither (`parse_fits`), and merging keeps that:

    d fits throughout  →  d can be written                                          (AllFit.allWritable)
    all of ds can be written  →  all of merge ds can                                 (merge_allWritable)
    all of ds can be written  →  write ds indent = .ok text                                  (write_ok)
-/

namespace RbsSynth.Signature

/-! ## Annotations that are read again -/

theorem Writer.annotationText_eq {a : Annotation} (h : a.Fits) :
    ∃ d ∈ annotationDelimiters, d.2 ∉ a.body.toList ∧ ∃ s, Writer.annotationText a.body = .ok s ∧
      s.toList = '%' :: 'a' :: d.1 :: (a.body.toList ++ [d.2]) := by
  obtain ⟨d, hd, hbody⟩ := h
  have hsome : (annotationDelimiters.find? fun d => !a.body.toList.contains d.2).isSome = true :=
    List.find?_isSome.mpr ⟨d, hd, by simpa using hbody⟩
  obtain ⟨e, he⟩ := Option.isSome_iff_exists.mp hsome
  have hnot : e.2 ∉ a.body.toList := by simpa using List.find?_some he
  refine ⟨e, List.mem_of_find?_eq_some he, hnot, _, by rw [Writer.annotationText, he], ?_⟩
  simp only [String.toList_append, String.toList_singleton]
  rfl

/-- An annotation that can be delimited, whose text is read as it wherever an annotation may come. -/
def Annotation.IsReread (a : Annotation) : Prop :=
  ∃ s, Writer.annotationText a.body = .ok s ∧
    (∀ q, Accepts q Terminal.annotation → ∀ rest,
      (lexicons.getD q Lexicon.full).next? (s.toList ++ rest) = some (Terminal.annotation, s.length)) ∧
    ∀ name span, Token.annotation name ⟨Terminal.annotation, s, span⟩ = ⟨a.body, some (span.location name)⟩

/-- Nothing that is tried before an annotation starts with its sign. -/
theorem next?_delimited {q : Nat} (hq : Accepts q Terminal.annotation) {d : Char × Char}
    (hd : d ∈ annotationDelimiters) {body : List Char} (hbody : d.2 ∉ body) (rest : List Char) :
    (lexicons.getD q Lexicon.full).next? ('%' :: 'a' :: d.1 :: (body ++ d.2 :: rest))
      = some (Terminal.annotation, body.length + 4) := by
  obtain ⟨f, hf, hallowed⟩ := allowed_of_accepts hq (by decide)
  have htried : Terminal.annotation ∈ (Lexicon.ofAllowed f).tried :=
    mem_tried.mpr ⟨hallowed, fun w _ =>
      (by decide : ∀ w ∈ Terminal.all, Terminal.annotation ∉ w.covers) w w.mem_all⟩
  have hread : Terminal.annotation.match? ('%' :: 'a' :: d.1 :: (body ++ d.2 :: rest))
      = some (body.length + 4) := annotationAt?_eq hd hbody rest
  have hfirst := matchFirst?_eq (tried_sorted f) htried hread fun r _ hlt => match?_eq_none
    ((by decide : ∀ r ∈ Terminal.all, r.number < Terminal.annotation.number → r.begins '%' = false)
      r r.mem_all hlt) _
  rw [hf, Lexicon.next?, hfirst]
  simp only [resolve_eq_self (show ∀ k ∈ Terminal.annotation.covers, _ from List.forall_mem_nil _)]

/-- What stands between the delimiters is the body. -/
theorem annotation_of_delimited {s body : String} {o c : Char}
    (h : s.toList = '%' :: 'a' :: o :: (body.toList ++ [c])) (name : String) (span : Span) :
    Token.annotation name ⟨Terminal.annotation, s, span⟩ = ⟨body, some (span.location name)⟩ := by
  rw [Token.annotation, h]
  simp only [List.drop_succ_cons, List.drop_zero, List.dropLast_concat, String.ofList_toList]

theorem Annotation.Fits.isReread {a : Annotation} (h : a.Fits) : a.IsReread := by
  obtain ⟨d, hd, hbody, s, htext, hchars⟩ := Writer.annotationText_eq h
  refine ⟨s, htext, fun q hq rest => ?_, annotation_of_delimited hchars⟩
  rw [← String.length_toList, hchars]
  simp only [List.cons_append, List.append_assoc, List.nil_append, List.length_cons, List.length_append,
    List.length_nil]
  exact next?_delimited hq hd hbody rest

/-! ## What a writer asks for -/

structure Declaration.IsWritable (d : Declaration) : Prop where
  annotations : ∀ a ∈ d.notes.annotations, a.IsReread

structure Member.IsWritable (m : Member) : Prop where
  annotations : ∀ a ∈ m.notes.annotations, a.IsReread
  typed : ∀ f, m = .method f → f.overloads ≠ [] ∨ f.overloading = true

abbrev Declaration.AllWritable (d : Declaration) : Prop :=
  d.Throughout Declaration.IsWritable Member.IsWritable

theorem Declaration.AllFit.allWritable {d : Declaration} (h : d.AllFit) : d.AllWritable := by
  refine h.imp (fun d h => ⟨fun a ha => (h.notes.annotations a ha).isReread⟩) fun m h =>
    ⟨fun a ha => (h.notes.annotations a ha).isReread, ?_⟩
  rintro f rfl
  exact h.names.2.1

/-! ## Merging -/

theorem Notes.Gathers.forall_annotations {all : List Notes} {n : Notes} {P : Annotation → Prop}
    (h : n.Gathers all) (hall : ∀ m ∈ all, ∀ a ∈ m.annotations, P a) : ∀ a ∈ n.annotations, P a := by
  intro a ha
  rw [h.annotations] at ha
  obtain ⟨m, hm, ha⟩ := List.mem_flatMap.mp (mem_of_mem_firstOf ha)
  exact hall m hm a ha

/-- What stands for a group can be written if all in the group can. -/
theorem Gathers.allWritable {group : List Declaration} {d : Declaration} (h : Gathers group d)
    (hall : ∀ e ∈ group, e.AllWritable) : d.AllWritable := by
  cases h with
  | alone => exact hall _ List.mem_cons_self
  | @classes group m _ h =>
    have hall : ∀ c ∈ group, _ := fun c hc =>
      Declaration.throughout_iff.mp (hall _ (List.mem_map_of_mem hc))
    refine Declaration.throughout_iff.mpr ⟨⟨h.notes.forall_annotations ?_⟩, ?_⟩
    · exact List.forall_mem_map.mpr fun c hc => (hall c hc).1.annotations
    · show ∀ e ∈ m.members, _
      rw [h.members]
      exact List.forall_mem_flatMap.mpr fun c hc => (hall c hc).2
  | @modules group m _ h =>
    have hall : ∀ c ∈ group, _ := fun c hc =>
      Declaration.throughout_iff.mp (hall _ (List.mem_map_of_mem hc))
    refine Declaration.throughout_iff.mpr ⟨⟨h.notes.forall_annotations ?_⟩, ?_⟩
    · exact List.forall_mem_map.mpr fun c hc => (hall c hc).1.annotations
    · show ∀ e ∈ m.members, _
      rw [h.members]
      exact List.forall_mem_flatMap.mpr fun c hc => (hall c hc).2

theorem mem_of_mem_groupOf {α κ : Type} [DecidableEq κ] {key? : α → Option κ} {xs : List α} {x y : α}
    (hx : x ∈ xs) (h : y ∈ groupOf key? xs x) : y ∈ xs := by
  rw [groupOf] at h
  split at h
  · exact (List.mem_filter.mp h).1
  · exact List.mem_singleton.mp h ▸ hx

theorem merge_allWritable {ds : List Declaration} (h : ∀ d ∈ ds, d.AllWritable) :
    ∀ d ∈ merge ds, d.AllWritable := by
  intro m hm
  rw [merge, groupBy_eq, List.filterMap_map] at hm
  obtain ⟨first, hfirst, hgroup⟩ := List.mem_filterMap.mp hm
  have hfirst := mem_of_mem_firstOf hfirst
  obtain ⟨m', hm', hgathers⟩ := gathers_mergeGroup (uniform_groupOf hfirst)
  obtain rfl : m' = m := Option.some.inj (hm'.symm.trans hgroup)
  exact hgathers.allWritable fun e he => h e (mem_of_mem_groupOf hfirst he)

/-! ## Writing -/

namespace Writer

variable {indent pad : String}

theorem annotationLines_ok (pad : String) {as : List Annotation} (h : ∀ a ∈ as, a.IsReread) :
    ∃ lines, annotationLines pad as = .ok lines := by
  induction as with
  | nil => exact ⟨_, rfl⟩
  | cons a as ih =>
    obtain ⟨ha, has⟩ := List.forall_mem_cons.mp h
    obtain ⟨_, htext, -⟩ := ha
    obtain ⟨lines, hlines⟩ := ih has
    rw [annotationLines, htext, hlines]
    exact ⟨_, rfl⟩

theorem noteLines_ok (pad : String) {n : Notes} (h : ∀ a ∈ n.annotations, a.IsReread) :
    ∃ lines, noteLines pad n = .ok lines := by
  obtain ⟨lines, hlines⟩ := annotationLines_ok pad h
  rw [noteLines, hlines]
  exact ⟨_, rfl⟩

/-- A method has a type or dots. -/
theorem methodLines_ok (pad : String) {m : MethodDefinition} (h : m.overloads ≠ [] ∨ m.overloading = true) :
    ∃ lines, methodLines pad m = .ok lines := by
  rw [methodLines]
  split
  · next hnone =>
    obtain ⟨hmap, hdots⟩ := List.append_eq_nil_iff.mp hnone
    rcases h with h | h
    · exact absurd (List.map_eq_nil_iff.mp hmap) h
    · rw [if_pos h] at hdots
      cases hdots
  · exact ⟨_, rfl⟩

theorem memberLines_ok {level : Nat} {ms : List Member}
    (h : ∀ m ∈ ms, ∃ lines, oneMemberLines indent level m = .ok lines) :
    ∃ lines, memberLines indent level ms = .ok lines := by
  induction ms with
  | nil => exact ⟨_, rfl⟩
  | cons m ms ih =>
    obtain ⟨hm, hms⟩ := List.forall_mem_cons.mp h
    obtain ⟨first, hfirst⟩ := hm
    obtain ⟨more, hmore⟩ := ih hms
    rw [memberLines, hfirst, hmore]
    exact ⟨_, rfl⟩

/-- What stands on the line of a declaration behind its indentation. -/
def headText : Nestable → String
  | .classDecl d => "class " ++ d.name.render ++ renderTypeParams d.typeParams ++
    match d.superclass with
    | none => ""
    | some a => " < " ++ applicationText a
  | .moduleDecl d => "module " ++ d.name.render ++ renderTypeParams d.typeParams ++
    match d.selfTypes with
    | [] => ""
    | as => " : " ++ Text.join ", " (as.map applicationText)
  | .interfaceDecl d => "interface " ++ d.name.render ++ renderTypeParams d.typeParams
  | .aliasDecl d => aliasLine d
  | .constantDecl d => d.name.render ++ ": " ++ d.type.render

theorem nestableLines_of_some {level : Nat} {e : Nestable} (h : e.kind?.isSome = true) :
    nestableLines indent level e = do
      let above ← noteLines (padding indent level) e.notes
      let body ← memberLines indent (level + 1) e.members
      return above ++ (padding indent level ++ headText e) :: body ++ [padding indent level ++ "end"] := by
  match e with
  | .classDecl ⟨_, _, superclass, _, _⟩ =>
    cases superclass <;>
    simp only [nestableLines, classLines, headText, Nestable.notes, Nestable.members, String.append_assoc]
  | .moduleDecl ⟨_, _, selfTypes, _, _⟩ =>
    cases selfTypes <;>
    simp only [nestableLines, moduleLines, headText, Nestable.notes, Nestable.members, String.append_assoc]
  | .interfaceDecl ⟨_, _, _, _⟩ =>
    simp only [nestableLines, interfaceLines, headText, Nestable.notes, Nestable.members,
      String.append_assoc]
  | .aliasDecl _ | .constantDecl _ => cases h

theorem nestableLines_of_none {level : Nat} {e : Nestable} (h : e.kind? = none) :
    nestableLines indent level e = do
      let above ← noteLines (padding indent level) e.notes
      return above ++ [padding indent level ++ headText e] := by
  match e with
  | .aliasDecl _ => rfl
  | .constantDecl _ =>
    simp only [nestableLines, headText, Nestable.notes, String.append_assoc]
  | .classDecl _ | .moduleDecl _ | .interfaceDecl _ => cases h

theorem oneMemberLines_ok {level : Nat} {m : Member} (h : m.IsWritable)
    (hn : ∀ e ∈ m.nested?, ∃ lines, nestableLines indent level e = .ok lines) :
    ∃ lines, oneMemberLines indent level m = .ok lines := by
  obtain ⟨above, habove⟩ := noteLines_ok (padding indent level) h.annotations
  cases m with
  | nested e => exact hn e rfl
  | visibility => exact ⟨_, rfl⟩
  | method m =>
    obtain ⟨lines, hlines⟩ := methodLines_ok (padding indent level) (h.typed m rfl)
    simp only [Member.notes] at habove
    rw [oneMemberLines, habove]
    simp only [hlines]
    exact ⟨_, rfl⟩
  | _ =>
    simp only [Member.notes] at habove
    rw [oneMemberLines, habove]
    exact ⟨_, rfl⟩

/-- Throughout a declaration that can be written nothing fails. -/
theorem nestableLines_ok {d : Declaration} (h : d.AllWritable) :
    ∀ e, d = .nestable e → ∀ level, ∃ lines, nestableLines indent level e = .ok lines := by
  induction h with
  | @mk d hown hm _ ih =>
    rintro e rfl level
    obtain ⟨above, habove⟩ := noteLines_ok (padding indent level) hown.annotations
    simp only [Declaration.notes] at habove
    obtain ⟨body, hbody⟩ : ∃ body, memberLines indent (level + 1) e.members = .ok body := by
      refine memberLines_ok fun m hmem => oneMemberLines_ok (hm m hmem) fun e he => ?_
      exact ih e (List.mem_filterMap.mpr ⟨m, hmem, he⟩) e rfl (level + 1)
    cases hk : e.kind? with
    | none =>
      rw [nestableLines_of_none hk, habove]
      exact ⟨_, rfl⟩
    | some kind =>
      rw [nestableLines_of_some (by rw [hk]; rfl), habove, hbody]
      exact ⟨_, rfl⟩

theorem declarationLines_ok (indent : String) {d : Declaration} (h : d.AllWritable) :
    ∃ lines, declarationLines indent d = .ok lines := by
  cases d with
  | nestable e => exact nestableLines_ok h e rfl 0
  | globalDecl g =>
    obtain ⟨above, habove⟩ := noteLines_ok "" (Declaration.throughout_iff.mp h).1.annotations
    simp only [Declaration.notes] at habove
    rw [declarationLines, habove]
    exact ⟨_, rfl⟩

theorem chunks_ok (indent : String) {ds : List Declaration} (h : ∀ d ∈ ds, d.AllWritable) :
    ∃ cs, chunks indent ds = .ok cs := by
  induction ds with
  | nil => exact ⟨_, rfl⟩
  | cons d ds ih =>
    obtain ⟨hd, hds⟩ := List.forall_mem_cons.mp h
    obtain ⟨lines, hlines⟩ := declarationLines_ok indent hd
    obtain ⟨more, hmore⟩ := ih hds
    rw [chunks, hlines, hmore]
    exact ⟨_, rfl⟩

end Writer

theorem write_ok {ds : List Declaration} (h : ∀ d ∈ ds, d.AllWritable) (indent : String) :
    ∃ text, write ds indent = .ok text := by
  obtain ⟨cs, hcs⟩ := Writer.chunks_ok indent h
  rw [write, hcs]
  cases cs with
  | nil => exact ⟨_, rfl⟩
  | cons => exact ⟨_, rfl⟩

/-! ## Top theorem -/

/-- **What was read can be written, merged or not.**  Every annotation in it can be delimited and is read
again as it was, and every method has a type or dots. -/
theorem write_merge_ok {files : List (String × String)} {dss : List (List Declaration)}
    (h : List.Forall₂ (fun f ds => parse f.1 f.2 = .ok ds) files dss) (indent : String) :
    ∀ ds ∈ [dss.flatten, merge dss.flatten], (∃ text, write ds indent = .ok text) ∧
      ∀ d ∈ ds, d.Throughout Declaration.IsWritable Member.IsWritable := by
  have hread : ∀ d ∈ dss.flatten, d.AllWritable := by
    induction h with
    | nil => exact List.forall_mem_nil _
    | cons hparse _ ih =>
      exact List.forall_mem_append.mpr ⟨fun d hd => (parse_fits hparse d hd).allWritable, ih⟩
  have hall : ∀ ds ∈ [dss.flatten, merge dss.flatten], ∀ d ∈ ds, d.AllWritable :=
    List.forall_mem_cons.mpr ⟨hread, List.forall_mem_singleton.mpr (merge_allWritable hread)⟩
  exact fun ds hds => ⟨write_ok (hall ds hds) indent, hall ds hds⟩

/-- A class whose annotation holds one closing delimiter. -/
def markedText : String := "%a(a]b)\nclass A\n  def m: ...\nend\n"

def plainText : String := "class A\n  def n: () -> void\n       | ...\nend\n"

/-- The two texts merged. -/
theorem write_merge_ok_classes : ∃ ds es, parse markedText "a.rbs" = .ok ds ∧
    parse plainText "b.rbs" = .ok es ∧ ∃ text, write (merge (ds ++ es)) = .ok text := by
  have hmarked : (parse markedText "a.rbs").toOption.isSome = true := by decide +kernel
  have hplain : (parse plainText "b.rbs").toOption.isSome = true := by decide +kernel
  cases h : parse markedText "a.rbs" with
  | error f => rw [h] at hmarked; cases hmarked
  | ok ds =>
    cases h' : parse plainText "b.rbs" with
    | error f => rw [h'] at hplain; cases hplain
    | ok es =>
      have hboth : List.Forall₂ (fun f ds => parse f.1 f.2 = .ok ds)
          [(markedText, "a.rbs"), (plainText, "b.rbs")] [ds, es] := .cons h (.cons h' .nil)
      obtain ⟨htext, -⟩ := write_merge_ok hboth "  " _ (List.mem_cons_of_mem _ List.mem_cons_self)
      rw [List.flatten_cons, List.flatten_cons, List.flatten_nil, List.append_nil] at htext
      exact ⟨ds, es, rfl, rfl, htext⟩

end RbsSynth.Signature
