import RbsSynth.Proofs.Reading.Legible

/-!
# Written declarations are read

Where every declaration and member is readable, the written text is read as the same declarations with the
readings of their types:

    d is readable throughout, its lines are written
      →  they are read as d.mapTypes reading, but for places                            (laid_declaration)
    all ds are readable, write ds indent = .ok text
      →  parse text = .ok ds',  where ds' are ds with the readings of their types, but for places
                                                                                    (parse_write_reading)
    each type is its own reading  →  ds' are ds, but for places                            (parse_write)
-/

namespace RbsSynth.Signature

open Terminal Text Value

variable {name indent : String} {lines : List String} {level : Nat}

/-! ## Members of a declaration -/

theorem LaidAll.imp {α : Type} {cs : List Context} {m : Nonterminal} {x : List Char} {wrap : List α → Value}
    {Q Q' : List α → List CommentBlock → Prop} (h : LaidAll name cs m x wrap Q)
    (himp : ∀ as bs, Q as bs → Q' as bs) : LaidAll name cs m x wrap Q' := by
  intro c hc p rest
  obtain ⟨w, as, k, c', hlisted, hscan, hc', hnoted⟩ := h c hc p rest
  exact ⟨w, as, k, c', hlisted, hscan, hc', hnoted.imp (himp as)⟩

theorem map_eq_of_forall₂ {α β γ : Type} {f : α → γ} {g : β → γ} {as : List α} {bs : List β}
    (h : List.Forall₂ (fun b a => f a = g b) bs as) : as.map f = bs.map g := by
  induction h with
  | nil => rfl
  | cons h _ ih => rw [List.map_cons, List.map_cons, h, ih]

theorem laidAll_members {ms : List Member} (h : Writer.memberLines indent level ms = .ok lines)
    (hms : ∀ m ∈ ms, ∀ ls, Writer.oneMemberLines indent level m = .ok ls → m.IsLaid name ls) :
    LaidAll name lineEnds .members (lineText lines) .members fun raw bs =>
      raw.map (Member.kept name bs)
        = (ms.map (Member.mapTypes TypeExpr.reading)).map (Member.mapNotes Notes.erase) := by
  obtain ⟨items, rfl, htext, hitems⟩ : ∃ items : List (List Char × Member), items.map (·.2) = ms ∧
      lineText lines = items.flatMap (·.1) ∧ ∀ i ∈ items, Laid name lineEnds .member [] i.1 .member
        fun a bs => a.kept name bs = (i.2.mapTypes TypeExpr.reading).mapNotes Notes.erase := by
    induction ms generalizing lines with
    | nil =>
      obtain rfl := Except.ok.inj h
      exact ⟨[], rfl, rfl, List.forall_mem_nil _⟩
    | cons m ms ih =>
      obtain ⟨hm, hms⟩ := List.forall_mem_cons.mp hms
      obtain ⟨first, hfirst, h⟩ := exists_of_bind h
      obtain ⟨more, hmore, h⟩ := exists_of_bind h
      obtain rfl := Except.ok.inj h
      obtain ⟨items, rfl, htext, hitems⟩ := ih hmore hms
      refine ⟨⟨lineText first, m⟩ :: items, rfl, ?_, List.forall_mem_cons.mpr ⟨hm first hfirst, hitems⟩⟩
      rw [lineText_append, htext, List.flatMap_cons]
  rw [htext]
  refine (laidAll (Q := fun m a bs => a.kept name bs = (m.mapTypes TypeExpr.reading).mapNotes Notes.erase)
    .members .membersMore rfl rfl
    (by decide) (fun _ _ => rfl) (fun _ _ _ => rfl) (fun _ h => h) hitems).imp fun raw bs hraw => ?_
  rw [List.map_map]
  exact map_eq_of_forall₂ hraw

/-! ## Declarations -/

/-- What a declaration is read as behind its notes. -/
def Nestable.nonterminal : Nestable → Nonterminal
  | .classDecl _ => .classDeclaration
  | .moduleDecl _ => .moduleDeclaration
  | .interfaceDecl _ => .interfaceDeclaration
  | .aliasDecl _ => .aliasDeclaration
  | .constantDecl _ => .constantDeclaration

/-- The rule for a declaration in a file. -/
def Nestable.outerRule : Nestable → Rule
  | .classDecl _ => .classBody
  | .moduleDecl _ => .moduleBody
  | .interfaceDecl _ => .interfaceBody
  | .aliasDecl _ => .aliasBody
  | .constantDecl _ => .constantBody

/-- The rule for a declaration among members. -/
def Nestable.innerRule : Nestable → Rule
  | .classDecl _ => .nestedClassBody
  | .moduleDecl _ => .nestedModuleBody
  | .interfaceDecl _ => .nestedInterfaceBody
  | .aliasDecl _ => .nestedAliasBody
  | .constantDecl _ => .nestedConstantBody

theorem Nestable.outerRule_spec (e : Nestable) : e.outerRule.shape = (.declarationBody, [.one e.nonterminal]) ∧
    (e.outerRule ≠ .root ∧ e.outerRule.isOpen = false) ∧
    ∀ name v sp, e.outerRule.build name sp [v] = some v := by
  cases e <;> exact ⟨rfl, ⟨fun h => (by cases h), rfl⟩, fun _ _ _ => rfl⟩

theorem Nestable.innerRule_spec (e : Nestable) : e.innerRule.shape = (.memberBody, [.one e.nonterminal]) ∧
    (e.innerRule ≠ .root ∧ e.innerRule.isOpen = false) ∧
    ∀ name v sp, e.innerRule.build name sp [v] = some v := by
  cases e <;> exact ⟨rfl, ⟨fun h => (by cases h), rfl⟩, fun _ _ _ => rfl⟩

theorem TypeName.IsClass.isHead {n : TypeName} (h : n.IsClass) : IsHead n.render.toList := by
  have hpart : ∀ {x : List Char}, IsUpperName x → ∀ y, IsHead (x ++ y) := by
    rintro _ ⟨d, x, rfl, hd, -⟩ y
    exact isHead_of_nameChar (.inl (isNameChar_of_isUpper hd)) _
  rw [render_toList, pathPart]
  cases n.absolute with
  | true => exact isHead_of_nameChar (.inr rfl) _
  | false =>
    cases hp : n.path with
    | nil => simpa [pathText] using hpart h.2 []
    | cons s path =>
      have hs := hpart (h.1 s (hp ▸ List.mem_cons_self))
        (colons ++ pathText (path.map String.toList) ++ n.name.toList)
      simpa [pathText] using hs

theorem Nestable.isHead {e : Nestable} (h : e.Fits) : IsHead (Writer.headText e).toList := by
  match e with
  | .classDecl _ | .moduleDecl _ | .interfaceDecl _ =>
    rw [Writer.headText]
    simp only [String.toList_append, List.append_assoc]
    exact isHead_of_nameChar (.inl rfl) _
  | .aliasDecl _ =>
    rw [Writer.headText, Writer.aliasLine]
    simp only [String.toList_append, List.append_assoc]
    exact isHead_of_nameChar (.inl rfl) _
  | .constantDecl d =>
    have hname : d.name.IsClass := h
    rw [Writer.headText]
    simp only [String.toList_append, List.append_assoc]
    exact hname.isHead.append _

/-! ## First lines -/

/-- A readable declaration without members is read from its line. -/
theorem reads_plain {e : Nestable} (he : (Declaration.nestable e).Readable) (hk : e.kind? = none)
    (hstops : Stops rest) : Reads name declarationOpens (Writer.headText e).toList rest
      (.nonterminal e.nonterminal) false
      (.value (.nestable ((e.mapTypes TypeExpr.reading).withNotes {}))) lineEnds := by
  cases e with
  | classDecl | moduleDecl | interfaceDecl => cases hk
  | aliasDecl d =>
    obtain ⟨hparams, htype⟩ := List.forall_mem_append.mp (he.types name)
    have hread := reads_aliasDeclaration he.fits.names.1
      (TypeParam.isRead he.fits.names.2 hparams) (htype d.type List.mem_cons_self) hstops
    rw [Writer.headText, Writer.aliasLine]
    simp only [String.toList_append, List.append_assoc]
    exact hread
  | constantDecl d =>
    have hread := reads_constant he.fits.names (he.types name d.type List.mem_cons_self) hstops
    rw [Writer.headText]
    simp only [String.toList_append, List.append_assoc]
    exact hread

/-- A readable declaration with members starts with its head. -/
theorem exists_opens {e : Nestable} (he : (Declaration.nestable e).Readable)
    (hk : e.kind?.isSome = true) : ∃ r : Rule, r.shape.1 = e.nonterminal ∧
      (r ≠ .root ∧ r.isOpen = false) ∧
      Opens name r (Writer.headText e).toList fun raw => (e.mapTypes TypeExpr.reading).withMembers raw := by
  cases e with
  | aliasDecl | constantDecl => cases hk
  | classDecl d =>
    obtain ⟨hparams, hargs⟩ := List.forall_mem_append.mp (he.types name)
    have hopens := opens_class he.fits.names.1 (TypeParam.isRead he.fits.names.2.1 hparams) fun a ha =>
      ⟨he.fits.names.2.2 a ha, List.forall_mem_flatMap.mp hargs a (Option.mem_toList.mpr ha)⟩
    cases d
    exact ⟨.classDeclaration, rfl, by decide, hopens⟩
  | moduleDecl d =>
    obtain ⟨hparams, hargs⟩ := List.forall_mem_append.mp (he.types name)
    have hopens := opens_module he.fits.names.1 (TypeParam.isRead he.fits.names.2.1 hparams) fun a ha =>
      ⟨he.fits.names.2.2 a ha, List.forall_mem_flatMap.mp hargs a ha⟩
    cases d
    exact ⟨.moduleDeclaration, rfl, by decide, hopens⟩
  | interfaceDecl d =>
    have hopens := opens_interface he.fits.names.1 (TypeParam.isRead he.fits.names.2 (he.types name))
    cases d
    exact ⟨.interfaceDeclaration, rfl, by decide, hopens⟩

/-! ## All lines -/

/-- The lines of a declaration: its notes, its first line and, with members, the others. -/
theorem laid_nestable {e : Nestable} (he : (Declaration.nestable e).Readable)
    (hindent : IsIndent indent.toList)
    (hms : ∀ m ∈ e.members, ∀ ls, Writer.oneMemberLines indent (level + 1) m = .ok ls → m.IsLaid name ls)
    (h : Writer.nestableLines indent level e = .ok lines) :
    ∃ above tail, Writer.noteLines (Writer.padding indent level) e.notes = .ok above ∧
      lineText lines = lineText above ++ ((Writer.padding indent level).toList
        ++ ((Writer.headText e).toList ++ ['\n'] ++ tail)) ∧
      Laid name declarationOpens e.nonterminal ((Writer.headText e).toList ++ ['\n']) tail .nestable
        fun a bs => ∀ N, (Notes.attach name bs N).erase = e.notes.erase →
          (a.withNotes N).kept name bs = (e.mapTypes TypeExpr.reading).mapNotes Notes.erase := by
  have hkind : (e.mapTypes TypeExpr.reading).kind? = e.kind? := by cases e <;> rfl
  cases hk : e.kind? with
  | none =>
    rw [Writer.nestableLines_of_none hk] at h
    obtain ⟨above, habove, h⟩ := exists_of_bind h
    obtain rfl := Except.ok.inj h
    refine ⟨above, [], habove, ?_, ?_⟩
    · rw [lineText_append, lineText_singleton, String.toList_append, List.append_nil, List.append_assoc]
    · have hread : ∀ y, Reads name declarationOpens (Writer.headText e).toList ('\n' :: y)
          (.nonterminal e.nonterminal) false
          (.value (.nestable ((e.mapTypes TypeExpr.reading).withNotes {}))) lineEnds :=
        fun y => reads_plain he hk (.cons (by decide) y)
      refine (Reads.laid hread).imp ?_
      rintro _ bs rfl N hN
      exact Nestable.kept_withNotes (hkind.trans hk) (by rw [Nestable.notes_mapTypes]; exact hN)
  | some k =>
    have hsome : e.kind?.isSome = true := by rw [hk]; rfl
    rw [Writer.nestableLines_of_some hsome] at h
    obtain ⟨above, habove, h⟩ := exists_of_bind h
    obtain ⟨body, hbody, h⟩ := exists_of_bind h
    obtain rfl := Except.ok.inj h
    obtain ⟨r, hr, hroot, hopens⟩ := exists_opens he hsome
    have hlaid := hopens.laid hroot (hindent.padding level) (laidAll_members hbody hms)
    rw [hr] at hlaid
    refine ⟨above, _, habove, ?_, hlaid.imp ?_⟩
    · rw [List.append_assoc, lineText_append, List.cons_append, lineText_cons, lineText_append,
        lineText_singleton]
      simp only [String.toList_append, List.append_assoc, List.cons_append, List.nil_append]
      rfl
    · rintro _ bs ⟨raw, rfl, hraw⟩ N hN
      refine Nestable.kept_withMembers (by rw [hkind]; exact hsome) ?_
        (by rw [Nestable.notes_mapTypes]; exact hN)
      rw [Nestable.members_mapTypes]
      exact hraw

/-- Whether the lines of a declaration are read as it, with the readings of its types. -/
def Declaration.IsLaid (name : String) (d : Declaration) (lines : List String) : Prop :=
  Laid name declarationOpens .declaration [] (lineText lines) .declaration fun a bs =>
    a.kept name bs = (d.mapTypes TypeExpr.reading).erase

/-- A declaration is read in a file and among members. -/
theorem isLaid_nestable {e : Nestable} (he : (Declaration.nestable e).Readable)
    (hindent : IsIndent indent.toList)
    (hms : ∀ m ∈ e.members, ∀ ls, Writer.oneMemberLines indent (level + 1) m = .ok ls → m.IsLaid name ls)
    (h : Writer.nestableLines indent level e = .ok lines) :
    (Member.nested e).IsLaid name lines ∧ (Declaration.nestable e).IsLaid name lines := by
  obtain ⟨above, tail, habove, htext, hlaid⟩ := laid_nestable he hindent hms h
  have hhead := Nestable.isHead he.fits.names
  rw [Member.IsLaid, Declaration.IsLaid, htext]
  constructor
  · obtain ⟨hr, hroot, hbuild⟩ := e.innerRule_spec
    refine ((hlaid.within (List.subset_cons_self _ _)).promote e.innerRule hr hroot (hbuild name)).item .member
      (fun a N => .nested (a.withNotes N)) rfl (by decide) (fun _ _ _ => rfl) (fun _ h => h)
      (List.subset_cons_self _ _) he.fits.notes.annotations he.comment (hindent.padding level) habove hhead ?_
    exact fun a N bs ha hN => congrArg Member.nested (ha N hN)
  · obtain ⟨hr, hroot, hbuild⟩ := e.outerRule_spec
    refine (hlaid.promote e.outerRule hr hroot (hbuild name)).item .declaration
      (fun a N => .nestable (a.withNotes N)) rfl (by decide) (fun _ _ _ => rfl) (List.subset_cons_self _ _)
      (fun _ h => h) he.fits.notes.annotations he.comment
      (hindent.padding level) habove hhead ?_
    exact fun a N bs ha hN => congrArg Declaration.nestable (ha N hN)

/-- Declarations at every depth are read. -/
theorem isLaid_throughout {d : Declaration}
    (h : d.Throughout Declaration.Readable Member.Readable) (hindent : IsIndent indent.toList) :
    ∀ e, d = .nestable e → ∀ level lines, Writer.nestableLines indent level e = .ok lines →
      (Member.nested e).IsLaid name lines ∧ (Declaration.nestable e).IsLaid name lines := by
  induction h with
  | @mk d hown hm _ ih =>
    rintro e rfl level lines h
    refine isLaid_nestable hown hindent (fun m hmem ls hls => ?_) h
    cases hn : m.nested? with
    | none => exact (hm m hmem).isLaid_of_plain hn hindent hls
    | some e' =>
      have hin : e' ∈ (Declaration.nestable e).inside := List.mem_filterMap.mpr ⟨m, hmem, hn⟩
      cases m with
      | nested e'' =>
        obtain rfl := Option.some.inj hn
        exact (ih e'' hin e'' rfl (level + 1) ls hls).1
      | _ => cases hn

/-- **A written declaration is read.** -/
theorem laid_declaration {d : Declaration}
    (h : d.Throughout Declaration.Readable Member.Readable) (hindent : IsIndent indent.toList)
    (hlines : Writer.declarationLines indent d = .ok lines) : d.IsLaid name lines := by
  cases d with
  | nestable e => exact (isLaid_throughout h hindent e rfl 0 lines hlines).2
  | globalDecl g =>
    obtain ⟨hown, -⟩ := Declaration.throughout_iff.mp h
    obtain ⟨above, habove, hlines⟩ := exists_of_bind hlines
    obtain rfl := Except.ok.inj hlines
    obtain ⟨x, hx, -⟩ : IsSigned '$' g.name := hown.fits.names
    have hhead : IsHead g.name.toList := ⟨'$', x, hx, by decide⟩
    have hread := fun y => reads_global hown.fits.names (hown.types name g.type List.mem_cons_self)
      (Stops.cons (by decide : '\n' ∈ stops) y)
    have hlaid := (Reads.laid (a := ((Declaration.globalDecl g).mapTypes TypeExpr.reading).withNotes {})
      hread).promote .globalBody rfl (by decide) fun _ _ => rfl
    have hpad : IsIndent "".toList := List.forall_mem_nil _
    have hitem : Laid name declarationOpens .declaration [] _ .declaration fun a bs =>
        a.kept name bs = ((Declaration.globalDecl g).mapTypes TypeExpr.reading).erase :=
      hlaid.item .declaration (fun a N => a.withNotes N) rfl (by decide) (fun _ _ _ => rfl)
        (List.subset_cons_self _ _) (fun _ h => h) hown.fits.notes.annotations hown.comment hpad habove
        (hhead.append _) (by
          rintro _ N bs rfl hN
          exact congrArg (fun n => Declaration.globalDecl ⟨g.name, g.type.reading, n⟩) hN)
    rw [Declaration.IsLaid, lineText_append, lineText_singleton]
    simp only [String.toList_append, List.append_assoc, List.append_nil] at hitem ⊢
    exact hitem

/-! ## Files -/

theorem Laid.skip {α : Type} {cs : List Context} {X : Nonterminal} {x : List Char} {val : α → Value}
    {Q : α → List CommentBlock → Prop} (h : Laid name cs X [] x val Q) :
    Laid name cs X [] ('\n' :: x) val Q := by
  intro c hc p rest
  obtain ⟨w, n, k, c', a, hw, hn, hscan, hc', hnoted⟩ := h c hc (p.advance ['\n']) rest
  exact ⟨w, n, k, c', a, hw, hn, scans_break.trans hscan, hc', hnoted.before (Position.line_le p ['\n'])⟩

/-- The last of some lines also has an end. -/
theorem toList_join_lines (hne : lines ≠ []) : (join "\n" lines).toList ++ ['\n'] = lineText lines := by
  obtain ⟨l, ls, rfl⟩ := List.exists_cons_of_ne_nil hne
  have hmore := lineText_behindEach "" ls
  rw [show ls.map ("" ++ ·) = ls from List.map_id'' (fun _ => String.empty_append) ls] at hmore
  rw [join_cons, List.append_assoc, lineText_cons, hmore]
  rfl

theorem declarationLines_ne_nil {d : Declaration} (h : Writer.declarationLines indent d = .ok lines) :
    lines ≠ [] := by
  cases d with
  | nestable e =>
    have h : Writer.nestableLines indent 0 e = .ok lines := h
    cases hk : e.kind? with
    | none =>
      rw [Writer.nestableLines_of_none hk] at h
      obtain ⟨above, -, h⟩ := exists_of_bind h
      obtain rfl := Except.ok.inj h
      simp
    | some k =>
      rw [Writer.nestableLines_of_some (by rw [hk]; rfl)] at h
      obtain ⟨above, -, h⟩ := exists_of_bind h
      obtain ⟨body, -, h⟩ := exists_of_bind h
      obtain rfl := Except.ok.inj h
      simp
  | globalDecl g =>
    obtain ⟨above, -, h⟩ := exists_of_bind h
    obtain rfl := Except.ok.inj h
    simp

/-- The text of a file: the first declaration, and each other one behind an empty line. -/
theorem laidAll_write {ds : List Declaration} {text : String}
    (hds : ∀ d ∈ ds, d.Throughout Declaration.Readable Member.Readable)
    (hindent : IsIndent indent.toList) (h : write ds indent = .ok text) :
    LaidAll name declarationOpens .declarations text.toList .declarations fun raw bs =>
      raw.map (Declaration.kept name bs)
        = (ds.map (Declaration.mapTypes TypeExpr.reading)).map Declaration.erase := by
  obtain ⟨chunks, hchunks, htext⟩ := exists_of_bind h
  clear h
  obtain ⟨items, rfl, htexts, hitems⟩ : ∃ items : List (List Char × Declaration), items.map (·.2) = ds ∧
      chunks.map (·.toList ++ ['\n']) = items.map (·.1) ∧ ∀ i ∈ items, Laid name declarationOpens .declaration
        [] i.1 .declaration fun a bs => a.kept name bs = (i.2.mapTypes TypeExpr.reading).erase := by
    clear htext
    induction ds generalizing chunks with
    | nil =>
      obtain rfl := Except.ok.inj hchunks
      exact ⟨[], rfl, rfl, List.forall_mem_nil _⟩
    | cons d ds ih =>
      obtain ⟨hd, hds⟩ := List.forall_mem_cons.mp hds
      obtain ⟨first, hfirst, hchunks⟩ := exists_of_bind hchunks
      obtain ⟨more, hmore, hchunks⟩ := exists_of_bind hchunks
      obtain rfl := Except.ok.inj hchunks
      obtain ⟨items, rfl, htexts, hitems⟩ := ih hds more hmore
      refine ⟨⟨lineText first, d⟩ :: items, rfl, ?_, List.forall_mem_cons.mpr
        ⟨laid_declaration hd hindent hfirst, hitems⟩⟩
      rw [List.map_cons, List.map_cons, htexts, toList_join_lines (declarationLines_ne_nil hfirst)]
  -- the empty line belongs to what is below it
  obtain ⟨below, hsame, hwhole, hbelow⟩ : ∃ below : List (List Char × Declaration),
      below.map (·.2) = items.map (·.2) ∧ text.toList = below.flatMap (·.1) ∧
      ∀ i ∈ below, Laid name declarationOpens .declaration [] i.1 .declaration fun a bs =>
        a.kept name bs = (i.2.mapTypes TypeExpr.reading).erase := by
    cases chunks with
    | nil =>
      obtain rfl := Except.ok.inj htext
      obtain rfl := List.map_eq_nil_iff.mp htexts.symm
      exact ⟨[], rfl, rfl, List.forall_mem_nil _⟩
    | cons c cs =>
      obtain rfl := Except.ok.inj htext
      obtain ⟨i, items, rfl, hc, hcs⟩ := List.map_eq_cons_iff.mp htexts.symm
      obtain ⟨hi, hitems⟩ := List.forall_mem_cons.mp hitems
      refine ⟨i :: items.map fun j => ⟨'\n' :: j.1, j.2⟩, ?_, ?_, List.forall_mem_cons.mpr ⟨hi,
        List.forall_mem_map.mpr fun j hj => (hitems j hj).skip⟩⟩
      · rw [List.map_cons, List.map_cons, List.map_map]
        rfl
      · have hmore : lineText (cs.map ("\n" ++ ·)) = items.flatMap fun j => '\n' :: j.1 := by
          rw [← List.flatMap_map (fun j : List Char × Declaration => j.1) ('\n' :: ·), hcs, List.flatMap_map,
            lineText, List.flatMap_map]
          refine List.flatMap_congr fun c _ => ?_
          rw [String.toList_append]
          rfl
        rw [String.toList_append, join_cons, List.flatMap_cons, List.flatMap_map, hc, ← hmore,
          List.append_assoc, List.append_assoc]
        exact congrArg (c.toList ++ ·) (lineText_behindEach "\n" cs).symm
  rw [hwhole, ← hsame, List.map_map]
  exact (laidAll (Q := fun d a bs => a.kept name bs = (d.mapTypes TypeExpr.reading).erase)
    .declarations .declarationsMore rfl rfl
    (by decide) (fun _ _ => rfl) (fun _ _ _ => rfl) (List.subset_cons_self _ _) hbelow).imp
    fun raw bs hraw => map_eq_of_forall₂ hraw

/-- **What is written is read with the readings of its types.** -/
theorem parse_write_reading (name : String) {ds : List Declaration} {text : String}
    (hds : ∀ d ∈ ds, d.Throughout Declaration.Readable Member.Readable)
    (hindent : IsIndent indent.toList) (h : write ds indent = .ok text) :
    ∃ ds', parse text name = .ok ds' ∧ ds'.map Declaration.erase
      = (ds.map (Declaration.mapTypes TypeExpr.reading)).map Declaration.erase := by
  obtain ⟨w, raw, k, c, ⟨ns, hns, hvs⟩, hscan, -, hnoted⟩ :=
    laidAll_write hds hindent h .start List.mem_cons_self {} []
  have hxs : symbolsOf .declarations raw ∈ RulePart.bodies Rule.file.shape.2 := by
    have hmem := mem_bodies_maybe (m := .declarations) raw mem_bodies_nil
    rwa [List.append_nil] at hmem
  have hbuild : ∀ sp, Builds (Rule.file.build name sp) (.declarations raw) (partsOf .declarations raw) :=
    fun sp => by cases raw <;> rfl
  have haccept := (Derives.rule (by decide) hxs hns ((hbuild _).eq hvs)).accepted
  obtain ⟨stack, hfeed, hsettle⟩ := Option.map_eq_some_iff.mp haccept
  have hstart : Stands .start (Lr.top (Progress.stack {})) := rfl
  obtain ⟨st, hfinds, rfl, hcomments⟩ := finds_of_scans hscan rfl hstart hfeed
  rw [List.append_nil] at hfinds
  have hrun := hfinds.run_eq
  rw [Progress.run_nil] at hrun
  refine ⟨raw.map (Declaration.mapNotes (Notes.attach name (CommentBlock.ofLines k))), ?_, ?_⟩
  · rw [parse_eq, hrun]
    have hreverse : st.comments.reverse = k := by
      rw [hcomments, show (({} : Progress).comments) = [] from rfl, List.append_nil, List.reverse_reverse]
    simp only [Except.bind]
    unfold Progress.finish
    simp only [hsettle, hreverse]
  · have hkept := hnoted.holds [] [] (List.forall_mem_nil _) (List.forall_mem_nil _)
      (by rw [List.append_nil]; exact hnoted.ordered)
    rw [List.append_nil] at hkept
    rw [List.map_map]
    exact hkept

/-! ## Types that are their own readings -/

/-- Whether a type is read back from its text. -/
structure TypeExpr.IsReadBack (name : String) (t : TypeExpr) : Prop where
  isRead : t.IsRead name
  same : t.reading = t

/-- A declaration is legible if it is readable and its types are read back. -/
structure Declaration.Legible (name : String) (d : Declaration) : Prop where
  fits : d.OwnFit
  types : ∀ t ∈ d.types, t.IsReadBack name
  comment : ∀ c ∈ d.notes.comment, c.Fits

structure Member.Legible (name : String) (m : Member) : Prop where
  fits : m.OwnFit
  types : ∀ t ∈ m.types, t.IsReadBack name
  comment : ∀ c ∈ m.notes.comment, c.Fits

/-- **What is written is read back.** -/
theorem parse_write {ds : List Declaration} {text : String}
    (hds : ∀ d ∈ ds, d.Throughout (Declaration.Legible name) (Member.Legible name))
    (hindent : IsIndent indent.toList) (h : write ds indent = .ok text) :
    ∃ ds', parse text name = .ok ds' ∧ ds'.map Declaration.erase = ds.map Declaration.erase := by
  have hreadable : ∀ d ∈ ds, d.Throughout Declaration.Readable Member.Readable := fun d hd =>
    (hds d hd).imp (fun _ h => ⟨h.fits, h.comment⟩) fun _ h => ⟨h.fits, h.comment⟩
  have hself : ds.map (Declaration.mapTypes TypeExpr.reading) = ds := map_eq_self fun d hd =>
    ((hds d hd).imp (fun _ h t ht => (h.types t ht).same)
      fun _ h t ht => (h.types t ht).same).mapTypes_eq_self
  have hread := parse_write_reading name hreadable hindent h
  rwa [hself] at hread

end RbsSynth.Signature
