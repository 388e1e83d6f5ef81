import RbsSynth.Proofs.Writing.RoundTrip

/-!
# Where a word is a name

Inside a class every name in small letters can be the name of a method and the first name of an alias.
Behind the first name of an alias and behind the type of a parameter the table looks ahead for a further
member, so that the words that start or end a member are no names there:

    def w: () -> void       is read   for every w
    alias w x               is read   for every w
    alias x w               is read   if and only if w ∉ memberWords
    def x: (T w) -> void    is read   if and only if w ∉ memberWords                  (reads_names)

A member that can be written is read from its line; what was read has names that can be written.
-/

namespace RbsSynth.Signature

open Text

/-! ## A class with one member -/

/-- The text of a class with one member on a line of its own. -/
def textAround (line : String) : String := "class A\n  " ++ line ++ "\nend\n"

def classAround (m : Member) : Declaration :=
  .nestable (.classDecl ⟨⟨"A", [], false⟩, [], none, [m], {}⟩)

/-- Whether a line inside a class is read as a member. -/
def IsReadAs (name line : String) (m : Member) : Prop :=
  ∃ ds, parse (textAround line) name = .ok ds ∧ sameDeclarations ds [classAround m] = true

variable {name line : String} {m : Member}

theorem Member.Fits.mapNotes (h : m.Fits) (f : Notes → Notes) : (m.mapNotes f).Fits := by
  cases m <;> exact h

/-- The names of what is read can be written. -/
theorem IsReadAs.fits (h : IsReadAs name line m) : (m.mapNotes Notes.erase).Fits := by
  obtain ⟨ds, hparse, hsame⟩ := h
  have hmap : ds.map Declaration.erase = [(classAround m).erase] := of_decide_eq_true hsame
  obtain ⟨d, rfl, hd⟩ := List.map_eq_singleton_iff.mp hmap
  have hall : (classAround m).erase.Throughout (fun _ => True) Member.Fits :=
    hd ▸ (parse_fits hparse d List.mem_cons_self).mapNotes Notes.erase (fun _ _ => trivial)
      fun _ hm => hm.names.mapNotes Notes.erase
  exact ((Declaration.throughout_iff.mp hall).2 _ List.mem_cons_self).1

theorem write_classAround (h : Writer.oneMemberLines "  " 1 m = .ok ["  " ++ line]) :
    write [classAround m] = .ok (textAround line) := by
  have hbody : Writer.memberLines "  " 1 [m] = .ok ["  " ++ line] := by
    rw [Writer.memberLines, h]
    rfl
  have hlines : Writer.declarationLines "  " (classAround m) = .ok ["class A", "  " ++ line, "end"] := by
    rw [classAround, Writer.declarationLines, Writer.nestableLines, Writer.classLines, hbody]
    rfl
  rw [write, Writer.chunks, hlines]
  show Except.ok (join "\n\n" [join "\n" ["class A", "  " ++ line, "end"]] ++ "\n") = _
  simp only [join, textAround, String.append_assoc]
  rfl

theorem Member.Legible.isReadAs (hm : m.Legible name) (hn : m.nested? = none)
    (hline : Writer.oneMemberLines "  " 1 m = .ok ["  " ++ line]) : IsReadAs name line m := by
  have hname : TypeName.IsClass ⟨"A", [], false⟩ :=
    ⟨List.forall_mem_nil _, 'A', [], rfl, rfl, List.forall_mem_nil _⟩
  have hclass : (classAround m).Legible name :=
    ⟨⟨⟨hname, List.forall_mem_nil _, fun _ h => by cases h⟩, List.forall_mem_nil _, Notes.fits_empty⟩,
      List.forall_mem_nil _, fun _ h => by cases h⟩
  have hall : (classAround m).Throughout (Declaration.Legible name) (Member.Legible name) := by
    refine Declaration.throughout_iff.mpr ⟨hclass, List.forall_mem_singleton.mpr ⟨hm, fun e he => ?_⟩⟩
    rw [hn] at he
    cases he
  have hindent : IsIndent "  ".toList := fun a ha => .inl (List.eq_of_mem_replicate (n := 2) ha)
  obtain ⟨ds, hparse, hsame⟩ :=
    parse_write (List.forall_mem_singleton.mpr hall) hindent (write_classAround hline)
  exact ⟨ds, hparse, decide_eq_true hsame⟩

/-! ## Aliases -/

theorem aliasMember_line (new old : String) :
    Writer.oneMemberLines "  " 1 (.aliasMember { newName := new, oldName := old })
      = .ok ["  " ++ ("alias " ++ new ++ " " ++ old)] := by
  rw [Writer.oneMemberLines]
  show Except.ok ["  " ++ "alias " ++ "" ++ new ++ " " ++ "" ++ old] = _
  simp only [String.append_assoc, String.empty_append]

/-- An alias is read if and only if its second name is no word of members. -/
theorem aliasMember_isReadAs_iff {new old : String} (hnew : IsMethodName new) (hold : IsMethodName old) :
    IsReadAs name ("alias " ++ new ++ " " ++ old) (.aliasMember { newName := new, oldName := old }) ↔
      old ∉ memberWords := by
  refine ⟨fun h => h.fits.2.2 rfl, fun h => Member.Legible.isReadAs ?_ rfl (aliasMember_line new old)⟩
  exact ⟨⟨⟨hnew, hold, fun _ => h⟩, List.forall_mem_nil _, Notes.fits_empty⟩, List.forall_mem_nil _,
    fun _ h => by cases h⟩

/-! ## Methods -/

/-- A method with required parameters only that returns nothing. -/
def procedure (name : String) (params : List Param) : Member :=
  .method { name := name, overloads := [⟨⟨params, [], none, [], [], [], none, .base .void⟩, none, []⟩] }

theorem procedure_line (name : String) (ps : List Param) :
    Writer.oneMemberLines "  " 1 (procedure name ps)
      = .ok ["  " ++ ("def " ++ name ++ (": (" ++ (join ", " (Param.renderList "" ps) ++ ") -> void")))] := by
  have hparams : FunctionType.renderParams ⟨ps, [], none, [], [], [], none, .base .void⟩
      = join ", " (Param.renderList "" ps) := by
    rw [FunctionType.renderParams]
    simp only [Param.renderList, Param.renderOption, KeywordParam.renderList, List.append_nil]
  have hoverload : MethodType.render ⟨⟨ps, [], none, [], [], [], none, .base .void⟩, none, []⟩
      = "(" ++ join ", " (Param.renderList "" ps) ++ ") -> void" := by
    rw [MethodType.render, hparams]
    simp only [FunctionType.renderReturn, TypeExpr.looseInReturn, Block.renderBehind,
      TypeExpr.render_base, String.append_assoc]
    rfl
  rw [procedure, Writer.oneMemberLines]
  show Except.ok ["  " ++ ("def " ++ "" ++ name ++ ":") ++ " " ++ MethodType.render _] = _
  rw [hoverload]
  simp only [String.append_assoc]
  rfl

theorem procedure_legible {w : String} (hw : IsMethodName w) {ps : List Param}
    (hps : ∀ p ∈ ps, (∀ s ∈ p.name, IsParamName s) ∧ p.type.AllFit ∧ p.type.Unmarked) :
    (procedure w ps).Legible name := by
  have hparams : FunctionType.params ⟨ps, [], none, [], [], [], none, .base .void⟩ = ps := by
    simp only [FunctionType.params, Option.toList_none, List.map_nil, List.append_nil]
  have htypes : (procedure w ps).types = ps.map (·.type) ++ [.base .void] := by
    show FunctionType.types _ ++ [] ++ [] ++ [] = _
    rw [FunctionType.types, hparams]
    simp only [List.append_nil]
  have hall : ∀ t ∈ (procedure w ps).types, t.AllFit ∧ t.Unmarked := by
    rw [htypes]
    exact List.forall_mem_append.mpr ⟨List.forall_mem_map.mpr fun p hp => (hps p hp).2,
      List.forall_mem_singleton.mpr
        ⟨.mk trivial (List.forall_mem_nil _), .mk id (List.forall_mem_nil _)⟩⟩
  have hoverload : MethodType.Fits ⟨⟨ps, [], none, [], [], [], none, .base .void⟩, none, []⟩ := by
    refine ⟨⟨?_, List.forall_mem_nil _, fun h => absurd rfl h⟩, fun _ h => (by cases h),
      List.forall_mem_nil _⟩
    rw [hparams]
    exact fun p hp => (hps p hp).1
  exact ⟨⟨⟨hw, .inl (List.cons_ne_nil _ _), List.forall_mem_singleton.mpr hoverload⟩,
    fun t ht => (hall t ht).1, Notes.fits_empty⟩,
    fun t ht => (hall t ht).2.isRead (hall t ht).1 name, fun _ h => by cases h⟩

/-- A method with a named parameter is read if and only if the name is no word of members. -/
theorem param_isReadAs_iff {w x : String} (hw : IsLowerName w.toList) (hx : IsMethodName x) {t : TypeExpr}
    (ht : t.AllFit) (hmark : t.Unmarked) :
    IsReadAs name ("def " ++ x ++ ": (" ++ t.render ++ " " ++ w ++ ") -> void")
      (procedure x [⟨t, some w⟩]) ↔ w ∉ memberWords := by
  constructor
  · intro h
    have hparams := (h.fits.2.2 _ List.mem_cons_self).1.1
    exact (hparams ⟨t, some w⟩ List.mem_cons_self w rfl).2
  · intro h
    have hlegible : (procedure x [⟨t, some w⟩]).Legible name := by
      refine procedure_legible hx (List.forall_mem_singleton.mpr ⟨fun s hs => ?_, ht, hmark⟩)
      obtain rfl : w = s := Option.some.inj hs
      exact ⟨hw, h⟩
    have hrender : Param.render ⟨t, some w⟩ = t.render ++ " " ++ w := by
      have hne : ¬ w.isEmpty = true := by
        rw [String.isEmpty_iff]
        rintro rfl
        exact hw.segment.1 rfl
      rw [Param.render, if_neg hne]
    refine hlegible.isReadAs rfl ?_
    rw [procedure_line, Param.renderList, Param.renderList, join, hrender]
    simp only [String.append_assoc, String.empty_append]

/-! ## Top theorem -/

/-- **Every word can be the name of a method and the first name of an alias; it can be the second one and
the name of a parameter if and only if it is no word of members.** -/
theorem reads_names {w x : String} (hw : IsLowerName w.toList) (hx : IsMethodName x)
    (hfree : x ∉ memberWords) {t : TypeExpr} (ht : t.AllFit) (hmark : t.Unmarked) (name : String) :
    IsReadAs name ("def " ++ w ++ ": () -> void") (procedure w []) ∧
    IsReadAs name ("alias " ++ w ++ " " ++ x) (.aliasMember { newName := w, oldName := x }) ∧
    (IsReadAs name ("alias " ++ x ++ " " ++ w) (.aliasMember { newName := x, oldName := w }) ↔
      w ∉ memberWords) ∧
    (IsReadAs name ("def " ++ x ++ ": (" ++ t.render ++ " " ++ w ++ ") -> void")
      (procedure x [⟨t, some w⟩]) ↔ w ∉ memberWords) :=
  ⟨(procedure_legible (.inl hw) (List.forall_mem_nil _)).isReadAs rfl (procedure_line w []),
    (aliasMember_isReadAs_iff (.inl hw) hx).mpr hfree, aliasMember_isReadAs_iff hx (.inl hw),
    param_isReadAs_iff hw hx ht hmark⟩

theorem isLowerName_class : IsLowerName "class".toList :=
  ⟨⟨'c', _, rfl, rfl, by decide⟩, fun ⟨_, h, _⟩ => absurd (List.cons.inj h).1 (by decide)⟩

theorem isMethodName_x : IsMethodName "x" :=
  .inl ⟨⟨'x', [], rfl, rfl, by decide⟩, fun ⟨_, h, _⟩ => absurd (List.cons.inj h).1 (by decide)⟩

/-- The word `class` is the first name of an alias, and neither the second one nor a parameter. -/
theorem reads_names_class :
    IsReadAs "a.rbs" "alias class x" (.aliasMember { newName := "class", oldName := "x" }) ∧
    ¬ IsReadAs "a.rbs" "alias x class" (.aliasMember { newName := "x", oldName := "class" }) ∧
    ¬ IsReadAs "a.rbs" "def x: (untyped class) -> void"
      (procedure "x" [⟨.base .untyped, some "class"⟩]) := by
  obtain ⟨-, hfirst, hsecond, hparam⟩ := reads_names isLowerName_class isMethodName_x (by decide)
    (t := .base .untyped) (.mk trivial (List.forall_mem_nil _)) (.mk id (List.forall_mem_nil _)) "a.rbs"
  have hword : "class" ∈ memberWords := by decide
  exact ⟨hfirst, fun h => hsecond.mp h hword, fun h => hparam.mp h hword⟩

/-- Every word can stand at each place. -/
def WordsAreNames : Prop :=
  ∀ (w name : String) (t : TypeExpr), IsLowerName w.toList → t.AllFit → t.Unmarked →
    IsReadAs name ("def " ++ w ++ ": () -> void") (procedure w []) ∧
    IsReadAs name ("alias " ++ w ++ " x") (.aliasMember { newName := w, oldName := "x" }) ∧
    IsReadAs name ("alias x " ++ w) (.aliasMember { newName := "x", oldName := w }) ∧
    IsReadAs name ("def m: (" ++ t.render ++ " " ++ w ++ ") -> void") (procedure "m" [⟨t, some w⟩])

/-- An alias of a method that is named `class` is not read. -/
theorem not_wordsAreNames : ¬ WordsAreNames := by
  intro h
  obtain ⟨-, -, hsecond, -⟩ := h "class" "a.rbs" (.base .void) isLowerName_class
    (.mk trivial (List.forall_mem_nil _)) (.mk id (List.forall_mem_nil _))
  exact (aliasMember_isReadAs_iff isMethodName_x (.inl isLowerName_class)).mp hsecond (by decide)

end RbsSynth.Signature
