import RbsSynth.Proofs.Reading.Laid

/-!
# What is readable is read

A declaration or a member is readable if it fits and its comment consists of lines without blanks at their
ends.

    m is readable and no declaration  →  its lines are read as m with the readings of its types, but for
      places                                                                          (isLaid_of_plain)
-/

namespace RbsSynth.Signature

open Terminal Text Value

variable {name : String} {bs : List CommentBlock}

/-! ## Readability -/

structure Declaration.Readable (d : Declaration) : Prop where
  fits : d.OwnFit
  comment : ∀ c ∈ d.notes.comment, c.Fits

structure Member.Readable (m : Member) : Prop where
  fits : m.OwnFit
  comment : ∀ c ∈ m.notes.comment, c.Fits

theorem Declaration.Readable.types {d : Declaration} (h : d.Readable) (name : String) :
    ∀ t ∈ d.types, t.IsRead name := fun t ht => (h.fits.types t ht).isRead name

theorem Member.Readable.types {m : Member} (h : m.Readable) (name : String) :
    ∀ t ∈ m.types, t.IsRead name := fun t ht => (h.fits.types t ht).isRead name

theorem MethodType.isRead {m : MethodType} (h : m.Fits) (ht : ∀ t ∈ m.types, t.IsRead name) :
    m.IsRead name := by
  obtain ⟨ht, hparams⟩ := List.forall_mem_append.mp ht
  obtain ⟨hfunction, hblock⟩ := List.forall_mem_append.mp ht
  refine ⟨⟨h.1, hfunction⟩, fun b hb => ?_, fun p hp => ⟨h.2.2 p hp, fun t ht => ?_⟩⟩
  · obtain ⟨hf, hself⟩ := List.forall_mem_append.mp (List.forall_mem_flatMap.mp hblock b
      (Option.mem_toList.mpr hb))
    exact ⟨⟨h.2.1 b hb, hf⟩, fun t ht => hself t (Option.mem_toList.mpr ht)⟩
  · exact List.forall_mem_flatMap.mp hparams p hp t (Option.mem_toList.mpr ht)

theorem TypeParam.isRead {ps : List TypeParam} (h : ∀ p ∈ ps, p.Fits)
    (ht : ∀ t ∈ ps.flatMap TypeParam.types, t.IsRead name) : ∀ p ∈ ps, p.IsRead name :=
  fun p hp => ⟨h p hp, fun t hbound => List.forall_mem_flatMap.mp ht p hp t (Option.mem_toList.mpr hbound)⟩

/-! ## But for places -/

/-- What is known of a member that was read, with the comments of the whole text. -/
def Member.kept (name : String) (bs : List CommentBlock) (m : Member) : Member :=
  (m.mapNotes (Notes.attach name bs)).mapNotes Notes.erase

def Nestable.kept (name : String) (bs : List CommentBlock) (e : Nestable) : Nestable :=
  (e.mapNotes (Notes.attach name bs)).mapNotes Notes.erase

def Declaration.kept (name : String) (bs : List CommentBlock) (d : Declaration) : Declaration :=
  (d.mapNotes (Notes.attach name bs)).erase

section

variable {N : Notes}

theorem Member.kept_withNotes {m : Member} (hm : m.nested? = none)
    (h : (Notes.attach name bs N).erase = m.notes.erase) :
    ((m.withNotes {}).withNotes N).kept name bs = m.mapNotes Notes.erase := by
  match m with
  | .nested _ => cases hm
  | .visibility _ => rfl
  | .method m => exact congrArg (fun n => Member.method { m with notes := n }) h
  | .attribute m => exact congrArg (fun n => Member.attribute { m with notes := n }) h
  | .mixin m => exact congrArg (fun n => Member.mixin { m with notes := n }) h
  | .variable m => exact congrArg (fun n => Member.variable { m with notes := n }) h
  | .aliasMember m => exact congrArg (fun n => Member.aliasMember { m with notes := n }) h

theorem Nestable.kept_withNotes {e : Nestable} (he : e.kind? = none)
    (h : (Notes.attach name bs N).erase = e.notes.erase) :
    ((e.withNotes {}).withNotes N).kept name bs = e.mapNotes Notes.erase := by
  match e with
  | .aliasDecl d => exact congrArg (fun n => Nestable.aliasDecl { d with notes := n }) h
  | .constantDecl d => exact congrArg (fun n => Nestable.constantDecl { d with notes := n }) h
  | .classDecl _ | .moduleDecl _ | .interfaceDecl _ => cases he

/-- The members that were read, with the others parts of a declaration. -/
def Nestable.withMembers (ms : List Member) : Nestable → Nestable
  | .classDecl d => .classDecl ⟨d.name, d.typeParams, d.superclass, ms, {}⟩
  | .moduleDecl d => .moduleDecl ⟨d.name, d.typeParams, d.selfTypes, ms, {}⟩
  | .interfaceDecl d => .interfaceDecl ⟨d.name, d.typeParams, ms, {}⟩
  | e => e

theorem Nestable.kept_withMembers {e : Nestable} {raw : List Member} (he : e.kind?.isSome = true)
    (hraw : raw.map (Member.kept name bs) = e.members.map (Member.mapNotes Notes.erase))
    (h : (Notes.attach name bs N).erase = e.notes.erase) :
    ((e.withMembers raw).withNotes N).kept name bs = e.mapNotes Notes.erase := by
  match e with
  | .classDecl ⟨n, ps, a, ms, notes⟩ =>
    show Nestable.classDecl ⟨n, ps, a, Member.mapNotesList _ (Member.mapNotesList _ raw), _⟩
      = .classDecl ⟨n, ps, a, Member.mapNotesList _ ms, notes.erase⟩
    rw [h, Member.mapNotesList_eq, Member.mapNotesList_eq, Member.mapNotesList_eq, List.map_map]
    exact congrArg (fun ms => Nestable.classDecl ⟨n, ps, a, ms, _⟩) hraw
  | .moduleDecl ⟨n, ps, as, ms, notes⟩ =>
    show Nestable.moduleDecl ⟨n, ps, as, Member.mapNotesList _ (Member.mapNotesList _ raw), _⟩
      = .moduleDecl ⟨n, ps, as, Member.mapNotesList _ ms, notes.erase⟩
    rw [h, Member.mapNotesList_eq, Member.mapNotesList_eq, Member.mapNotesList_eq, List.map_map]
    exact congrArg (fun ms => Nestable.moduleDecl ⟨n, ps, as, ms, _⟩) hraw
  | .interfaceDecl ⟨n, ps, ms, notes⟩ =>
    show Nestable.interfaceDecl ⟨n, ps, Member.mapNotesList _ (Member.mapNotesList _ raw), _⟩
      = .interfaceDecl ⟨n, ps, Member.mapNotesList _ ms, notes.erase⟩
    rw [h, Member.mapNotesList_eq, Member.mapNotesList_eq, Member.mapNotesList_eq, List.map_map]
    exact congrArg (fun ms => Nestable.interfaceDecl ⟨n, ps, ms, _⟩) hraw
  | .aliasDecl _ | .constantDecl _ => cases he

end

/-! ## Members -/

/-- Whether the lines of a member are read as it, with the readings of its types. -/
def Member.IsLaid (name : String) (m : Member) (lines : List String) : Prop :=
  Laid name lineEnds .member [] (lineText lines) .member fun a bs =>
    a.kept name bs = (m.mapTypes TypeExpr.reading).mapNotes Notes.erase

theorem isHead_of_nameChar {d : Char} (hd : isNameChar d = true ∨ d = ':') (y : List Char) :
    IsHead (d :: y) := by
  refine ⟨d, y, rfl, Bool.eq_false_iff.mpr fun hblank => ?_, ?_⟩
  · have hcases : d = ' ' ∨ d = '\t' ∨ d = '\x0c' ∨ d = '\r' ∨ d = '\n' := by
      simpa [isBlankChar, or_assoc] using hblank
    rcases hcases with rfl | rfl | rfl | rfl | rfl <;> revert hd <;> decide
  · rintro rfl
    revert hd
    decide

section

variable {m : Member} {indent pad : String} {lines : List String}

/-- A member that is no declaration. -/
theorem Member.Readable.isLaid (hm : m.Readable) (hn : m.nested? = none) {X : Nonterminal} {x : List Char}
    (r : Rule) (hr : r.shape = (.memberBody, [.one X])) (hroot : r ≠ .root ∧ r.isOpen = false)
    (hbuild : ∀ v sp, r.build name sp [v] = some v)
    (hx : ∀ y, Reads name lineEnds x ('\n' :: y) (.nonterminal X) false
      (.value (.member ((m.mapTypes TypeExpr.reading).withNotes {}))) lineEnds)
    (hpad : IsIndent pad.toList) {above : List String} (habove : Writer.noteLines pad m.notes = .ok above)
    (hhead : IsHead x) (hlines : lineText lines = lineText above ++ (pad.toList ++ (x ++ ['\n']))) :
    m.IsLaid name lines := by
  rw [Member.IsLaid, hlines, ← List.append_nil (x ++ ['\n'])]
  refine ((Reads.laid hx).promote r hr hroot hbuild).item .member (fun a N => a.withNotes N) rfl
    (by decide) (fun _ _ _ => rfl) (fun _ h => h) (List.subset_cons_self _ _) hm.fits.notes.annotations
    hm.comment hpad
    habove hhead ?_
  rintro _ N bs rfl hN
  have hplain : (m.mapTypes TypeExpr.reading).nested? = none := by
    cases m with
    | nested => cases hn
    | _ => rfl
  exact Member.kept_withNotes hplain (by rw [Member.notes_mapTypes]; exact hN)

/-- The overloads of a method are told one by one. -/
theorem overloadsText_eq {f : MethodDefinition} {first : String} {more : List String}
    (h : Writer.overloadTexts f = first :: more) (gap : List Char) :
    overloadsText gap f = first.toList ++ behindEach (gap ++ ['|', ' ']) String.toList more := by
  rw [Writer.overloadTexts] at h
  rw [overloadsText]
  cases hos : f.overloads with
  | nil =>
    rw [hos] at h
    cases hmore : f.overloading with
    | false => rw [hmore] at h; cases h
    | true =>
      rw [hmore] at h
      obtain ⟨rfl, rfl⟩ := List.cons.inj h
      exact (List.append_nil _).symm
  | cons o os =>
    rw [hos] at h
    obtain ⟨rfl, rfl⟩ := List.cons.inj h
    rw [List.append_eq, behindEach_append, behindEach_map]
    cases f.overloading with
    | false => rfl
    | true =>
      rw [if_pos rfl, if_pos rfl, behindEach_singleton, List.append_assoc gap]
      rfl

/-- The lines of a method, behind the indentation of the first one. -/
theorem lineText_methodLines {f : MethodDefinition} (h : Writer.methodLines pad f = .ok lines) :
    ∃ gap, IsIndent gap ∧ lineText lines
      = pad.toList ++ (methodText ('\n' :: (pad.toList ++ gap)) f ++ ['\n']) := by
  cases htexts : Writer.overloadTexts f with
  | nil =>
    simp only [Writer.methodLines, htexts] at h
    cases h
  | cons first more =>
    simp only [Writer.methodLines, htexts] at h
    generalize hk : ("def " ++ Writer.kindPrefix f.kind ++ f.name ++ ":").length - 1 = k at h
    obtain rfl := Except.ok.inj h
    refine ⟨(String.ofList (List.replicate k ' ')).toList, fun a ha => ?_, ?_⟩
    · rw [String.toList_ofList] at ha
      exact .inl (List.eq_of_mem_replicate ha)
    · rw [lineText_cons, lineText_behindEach, methodText, overloadsText_eq htexts]
      simp only [String.toList_append, List.append_assoc, List.cons_append]
      rfl

theorem IsIndent.padding (h : IsIndent indent.toList) (level : Nat) :
    IsIndent (Writer.padding indent level).toList := by
  induction level with
  | zero => exact List.forall_mem_nil _
  | succ level ih =>
    rw [Writer.padding, String.toList_append]
    exact List.forall_mem_append.mpr ⟨ih, h⟩

theorem Member.Readable.isLaid_of_plain (hm : m.Readable) (hn : m.nested? = none)
    (hindent : IsIndent indent.toList) {level : Nat}
    (h : Writer.oneMemberLines indent level m = .ok lines) : m.IsLaid name lines := by
  have hpad := hindent.padding level
  match m with
  | .nested _ => cases hn
  | .method f =>
    obtain ⟨above, habove, h⟩ := exists_of_bind h
    obtain ⟨more, hmore, h⟩ := exists_of_bind h
    obtain rfl := Except.ok.inj h
    obtain ⟨gap, hgap, htext⟩ := lineText_methodLines hmore
    have hbreak : IsBreak ('\n' :: ((Writer.padding indent level).toList ++ gap)) :=
      ⟨_, rfl, List.forall_mem_append.mpr ⟨hpad.blank, hgap.blank⟩⟩
    have hread : f.IsRead name := ⟨hm.fits.names.1, hm.fits.names.2.1, fun o ho =>
      MethodType.isRead (hm.fits.names.2.2 o ho) (List.forall_mem_flatMap.mp (hm.types name) o ho)⟩
    refine hm.isLaid rfl .methodBody rfl (by decide) (fun _ _ => rfl)
      (fun y => reads_method hbreak hread (.cons (by decide) y)) hpad habove ?_ ?_
    · exact isHead_of_nameChar (.inl rfl) _
    · rw [lineText_append, htext]
  | .attribute f =>
    obtain ⟨above, habove, h⟩ := exists_of_bind h
    obtain rfl := Except.ok.inj h
    refine hm.isLaid rfl .attributeBody rfl (by decide) (fun _ _ => rfl)
      (fun y => reads_attribute hm.fits.names (hm.types name f.type List.mem_cons_self) (.cons (by decide) y))
      hpad habove ?_ ?_
    · cases f.kind <;> exact isHead_of_nameChar (.inl rfl) _
    · rw [lineText_append, lineText_singleton]
      simp only [String.toList_append, List.append_assoc, List.cons_append]
      rfl
  | .mixin f =>
    obtain ⟨above, habove, h⟩ := exists_of_bind h
    obtain rfl := Except.ok.inj h
    refine hm.isLaid rfl .mixinBody rfl (by decide) (fun _ _ => rfl)
      (fun y => reads_mixin hm.fits.names (hm.types name) (.cons (by decide) y)) hpad habove ?_ ?_
    · cases f.kind <;> exact isHead_of_nameChar (.inl rfl) _
    · rw [lineText_append, lineText_singleton]
      simp only [String.toList_append, List.append_assoc, List.cons_append]
      rfl
  | .variable f =>
    obtain ⟨above, habove, h⟩ := exists_of_bind h
    obtain rfl := Except.ok.inj h
    obtain ⟨x, hx, -⟩ : IsSigned '@' f.name := hm.fits.names
    refine hm.isLaid rfl .variableBody rfl (by decide) (fun _ _ => rfl)
      (fun y => reads_variable hm.fits.names (hm.types name f.type List.mem_cons_self) (.cons (by decide) y))
      hpad habove ?_ ?_
    · have hhead : IsHead f.name.toList := ⟨'@', x, hx, by decide⟩
      exact hhead.append _
    · rw [lineText_append, lineText_singleton]
      simp only [String.toList_append, List.append_assoc, List.cons_append]
      rfl
  | .aliasMember f =>
    obtain ⟨above, habove, h⟩ := exists_of_bind h
    obtain rfl := Except.ok.inj h
    refine hm.isLaid rfl .aliasMemberBody rfl (by decide) (fun _ _ => rfl)
      (fun y => reads_aliasMember hm.fits.names.1 hm.fits.names.2.1 hm.fits.names.2.2) hpad habove ?_ ?_
    · exact isHead_of_nameChar (.inl rfl) _
    · rw [lineText_append, lineText_singleton]
      simp only [String.toList_append, List.append_assoc, List.cons_append]
      rfl
  | .visibility f =>
    obtain rfl := Except.ok.inj h
    refine hm.isLaid rfl .visibilityBody rfl (by decide) (fun _ _ => rfl)
      (fun y => reads_visibility f.visibility y) hpad rfl ?_ ?_
    · cases f.visibility <;> exact isHead_of_nameChar (.inl rfl) _
    · rw [lineText_singleton, String.toList_append, List.append_assoc]
      rfl

end

end RbsSynth.Signature
