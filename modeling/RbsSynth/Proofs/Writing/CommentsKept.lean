import RbsSynth.Proofs.Writing.RoundTrip

/-!
# Comments survive writing, but for blanks at the ends of their lines

A writer leaves out the blanks at the end of every line of a comment.  So what it writes is what it would
write of the trimmed comments, and these are read back:

    write (ds with trimmed comments) = write ds                                          (write_mapNotes)
    parse text = .ok ds  →  write ds = .ok written,  parse written = .ok es,
      where es have the trimmed comments of ds, each at its place                     (comments_written)
-/

namespace RbsSynth.Signature

open Text

/-! ## Trimmed comments -/

theorem trimEnd_append_trimEnd (x y : List Char) : trimEnd (x ++ trimEnd y) = trimEnd (x ++ y) := by
  have htrim : ∀ x, trimEnd x = x.rdropWhile isBlank := fun _ => rfl
  induction y using List.reverseRecOn with
  | nil => rfl
  | append_singleton y a ih =>
    rw [htrim (y ++ [a]), ← List.append_assoc, htrim (x ++ y ++ [a])]
    cases ha : isBlank a with
    | true => rw [List.rdropWhile_concat_pos _ _ _ ha, List.rdropWhile_concat_pos _ _ _ ha, ← htrim, ih]; rfl
    | false =>
      have hneg : ¬ isBlank a = true := Bool.eq_false_iff.mp ha
      rw [List.rdropWhile_concat_neg _ _ _ hneg, List.rdropWhile_concat_neg _ _ _ hneg, ← List.append_assoc,
        htrim, List.rdropWhile_concat_neg _ _ _ hneg]

theorem trimEnd_trimEnd (x : List Char) : trimEnd (trimEnd x) = trimEnd x := trimEnd_append_trimEnd [] x

/-- The lines of a text without the blanks at their ends. -/
def trimmedLines (s : String) : String :=
  join "\n" ((splitOn ['\n'] s.toList).map fun l => .ofList (trimEnd l))

def Comment.trimmed (c : Comment) : Comment := { c with text := trimmedLines c.text }

def Notes.trimmed (n : Notes) : Notes := { n with comment := n.comment.map Comment.trimmed }

/-- What trimmed lines are: lines without blanks at their ends. -/
theorem trimmedLines_pieces (s : String) :
    ∀ l ∈ (splitOn ['\n'] s.toList).map fun l => String.ofList (trimEnd l), '\n' ∉ l.toList ∧ trimEnd l.toList = l.toList := by
  refine List.forall_mem_map.mpr fun l hl => ?_
  rw [String.toList_ofList]
  refine ⟨fun h => not_mem_of_mem_splitOn hl ?_, trimEnd_trimEnd l⟩
  exact (List.rdropWhile_prefix isBlank (l := l)).subset h

theorem trimmedLines_ne_nil (s : String) :
    ((splitOn ['\n'] s.toList).map fun l => String.ofList (trimEnd l)) ≠ [] :=
  fun hnil => splitOn_ne_nil _ _ (List.map_eq_nil_iff.mp hnil)

theorem Comment.trimmed_fits (c : Comment) : c.trimmed.Fits :=
  ⟨_, trimmedLines_ne_nil c.text, rfl, trimmedLines_pieces c.text⟩

theorem Notes.Fits.trimmed {n : Notes} (h : n.Fits) : n.trimmed.Fits :=
  ⟨h.annotations, fun hplace => by rw [Notes.trimmed, h.placed hplace]; rfl⟩

/-! ## The same text is written -/

theorem commentLines_trimmed (pad : String) (c : Option Comment) :
    Writer.commentLines pad (c.map Comment.trimmed) = Writer.commentLines pad c := by
  cases c with
  | none => rfl
  | some c =>
    rw [Option.map_some, commentLines_join pad (trimmedLines_ne_nil c.text) rfl
      fun l hl => (trimmedLines_pieces c.text l hl).1, Writer.commentLines, List.map_map]
    refine List.map_congr_left fun l _ => ?_
    show String.ofList (trimEnd (pad.toList ++ '#' :: ' ' :: (String.ofList (trimEnd l)).toList)) = _
    rw [String.toList_ofList]
    have hline := trimEnd_append_trimEnd (pad.toList ++ ['#', ' ']) l
    simp only [List.append_assoc, List.cons_append, List.nil_append] at hline
    exact congrArg String.ofList hline

theorem noteLines_trimmed (pad : String) (n : Notes) :
    Writer.noteLines pad n.trimmed = Writer.noteLines pad n := by
  rw [Writer.noteLines, Writer.noteLines]
  exact congrArg (fun ls => do
    let annotations ← Writer.annotationLines pad n.annotations
    return ls ++ annotations) (commentLines_trimmed pad n.comment)

theorem Nestable.notes_mapNotes (e : Nestable) (f : Notes → Notes) : (e.mapNotes f).notes = f e.notes := by
  match e with
  | .classDecl ⟨_, _, _, _, _⟩ | .moduleDecl ⟨_, _, _, _, _⟩ | .interfaceDecl ⟨_, _, _, _⟩
  | .aliasDecl _ | .constantDecl _ => rfl

section

variable {f : Notes → Notes} (hf : ∀ pad n, Writer.noteLines pad (f n) = Writer.noteLines pad n)
include hf

theorem oneMemberLines_mapNotes {m : Member} {indent : String} {level : Nat}
    (hn : ∀ e ∈ m.nested?, Writer.nestableLines indent level (e.mapNotes f)
      = Writer.nestableLines indent level e) :
    Writer.oneMemberLines indent level (m.mapNotes f) = Writer.oneMemberLines indent level m := by
  match m with
  | .nested e => exact hn e rfl
  | .visibility _ => rfl
  | .method m =>
    rw [Member.mapNotes, Writer.oneMemberLines, Writer.oneMemberLines, hf]
    rfl
  | .attribute _ | .mixin _ | .variable _ | .aliasMember _ =>
    rw [Member.mapNotes, Writer.oneMemberLines, Writer.oneMemberLines, hf]

theorem nestableLines_mapNotes (e : Nestable) : ∀ indent level,
    Writer.nestableLines indent level (e.mapNotes f) = Writer.nestableLines indent level e := by
  induction e using Nestable.induct with
  | h e ih =>
    intro indent level
    have hhead : Writer.headText (e.mapNotes f) = Writer.headText e := by
      match e with
      | .classDecl ⟨_, _, _, _, _⟩ | .moduleDecl ⟨_, _, _, _, _⟩ | .interfaceDecl ⟨_, _, _, _⟩
      | .aliasDecl _ | .constantDecl _ => rfl
    have hkind : (e.mapNotes f).kind? = e.kind? := by cases e <;> rfl
    cases hk : e.kind? with
    | none =>
      rw [Writer.nestableLines_of_none (hkind.trans hk), Writer.nestableLines_of_none hk,
        Nestable.notes_mapNotes, hf, hhead]
    | some k =>
      have hsome : e.kind?.isSome = true := by rw [hk]; rfl
      have hmembers : ∀ ms : List Member, (∀ d ∈ ms.filterMap Member.nested?, d ∈ e.inside) →
          Writer.memberLines indent (level + 1) (ms.map (Member.mapNotes f))
            = Writer.memberLines indent (level + 1) ms := by
        intro ms
        induction ms with
        | nil => exact fun _ => rfl
        | cons m ms ihms =>
          intro hin
          have hfirst : ∀ d ∈ m.nested?, d ∈ e.inside := fun d hd =>
            hin d (List.mem_filterMap.mpr ⟨m, List.mem_cons_self, hd⟩)
          have hrest : ∀ d ∈ ms.filterMap Member.nested?, d ∈ e.inside := fun d hd => by
            obtain ⟨m', hm', hd'⟩ := List.mem_filterMap.mp hd
            exact hin d (List.mem_filterMap.mpr ⟨m', List.mem_cons_of_mem m hm', hd'⟩)
          rw [List.map_cons, Writer.memberLines, Writer.memberLines, ihms hrest,
            oneMemberLines_mapNotes hf fun d hd => ih d (hfirst d hd) indent (level + 1)]
      have hbody : (e.mapNotes f).members = e.members.map (Member.mapNotes f) :=
        Declaration.members_mapNotes (.nestable e) f
      rw [Writer.nestableLines_of_some (by rw [hkind]; exact hsome), Writer.nestableLines_of_some hsome,
        Nestable.notes_mapNotes, hf, hhead, hbody, hmembers e.members fun d hd => hd]

/-- **Notes that are written alike make no difference to the text.** -/
theorem write_mapNotes (ds : List Declaration) (indent : String) :
    write (ds.map (Declaration.mapNotes f)) indent = write ds indent := by
  have hlines : ∀ d : Declaration,
      Writer.declarationLines indent (d.mapNotes f) = Writer.declarationLines indent d := by
    intro d
    cases d with
    | nestable e => exact nestableLines_mapNotes hf e indent 0
    | globalDecl g => rw [Declaration.mapNotes, Writer.declarationLines, Writer.declarationLines, hf]
  have hchunks : Writer.chunks indent (ds.map (Declaration.mapNotes f)) = Writer.chunks indent ds := by
    induction ds with
    | nil => rfl
    | cons d ds ih => rw [List.map_cons, Writer.chunks, Writer.chunks, hlines, ih]
  rw [write, write, hchunks]

end

/-! ## Trimmed declarations are read -/

theorem Declaration.AllFit.readable_trimmed {d : Declaration} (h : d.AllFit) :
    (d.mapNotes Notes.trimmed).Throughout Declaration.Readable Member.Readable := by
  have hcomment : ∀ n : Notes, ∀ c ∈ n.trimmed.comment, c.Fits := by
    intro n c hc
    obtain ⟨c, -, rfl⟩ := Option.map_eq_some_iff.mp hc
    exact c.trimmed_fits
  refine Declaration.Throughout.mapNotes h Notes.trimmed
    (fun d hd => ⟨hd.mapNotes fun n hn => hn.trimmed, ?_⟩)
    fun m hm => ⟨hm.mapNotes fun n hn => hn.trimmed, ?_⟩
  · match d with
    | .globalDecl _ | .nestable (.classDecl ⟨_, _, _, _, _⟩) | .nestable (.moduleDecl ⟨_, _, _, _, _⟩)
    | .nestable (.interfaceDecl ⟨_, _, _, _⟩) | .nestable (.aliasDecl _) | .nestable (.constantDecl _) =>
      exact hcomment _
  · cases m with
    | visibility | nested => exact fun c hc => by cases hc
    | _ => exact hcomment _

/-! ## The comments of a declaration -/

/-- The text of a comment, if there is one. -/
def Notes.commentText? (n : Notes) : Option String := n.comment.map (·.text)

mutual

def ClassDecl.comments : ClassDecl → List (Option String)
  | ⟨_, _, _, ms, n⟩ => n.commentText? :: Member.commentsOfAll ms
  termination_by structural d => d

def ModuleDecl.comments : ModuleDecl → List (Option String)
  | ⟨_, _, _, ms, n⟩ => n.commentText? :: Member.commentsOfAll ms
  termination_by structural d => d

def InterfaceDecl.comments : InterfaceDecl → List (Option String)
  | ⟨_, _, ms, n⟩ => n.commentText? :: Member.commentsOfAll ms
  termination_by structural d => d

def Nestable.comments : Nestable → List (Option String)
  | .classDecl d => d.comments
  | .moduleDecl d => d.comments
  | .interfaceDecl d => d.comments
  | .aliasDecl d => [d.notes.commentText?]
  | .constantDecl d => [d.notes.commentText?]
  termination_by structural d => d

/-- The comments of a member and of all in it; a visibility has none. -/
def Member.comments : Member → List (Option String)
  | .method m => [m.notes.commentText?]
  | .attribute m => [m.notes.commentText?]
  | .mixin m => [m.notes.commentText?]
  | .variable m => [m.notes.commentText?]
  | .aliasMember m => [m.notes.commentText?]
  | .visibility _ => []
  | .nested d => d.comments
  termination_by structural m => m

def Member.commentsOfAll : List Member → List (Option String)
  | [] => []
  | m :: ms => m.comments ++ Member.commentsOfAll ms
  termination_by structural ms => ms

end

/-- The comment of a declaration, and then those of all in it, in the order of the text. -/
def Declaration.comments : Declaration → List (Option String)
  | .nestable d => d.comments
  | .globalDecl d => [d.notes.commentText?]

theorem Member.commentsOfAll_eq (ms : List Member) :
    Member.commentsOfAll ms = ms.flatMap Member.comments := by
  induction ms with
  | nil => rfl
  | cons m ms ih => rw [commentsOfAll, ih, List.flatMap_cons]

theorem Nestable.comments_eq (e : Nestable) :
    e.comments = e.notes.commentText? :: e.members.flatMap Member.comments := by
  match e with
  | .classDecl ⟨_, _, _, ms, n⟩ | .moduleDecl ⟨_, _, _, ms, n⟩ | .interfaceDecl ⟨_, _, ms, n⟩ =>
    exact congrArg (n.commentText? :: ·) (Member.commentsOfAll_eq ms)
  | .aliasDecl _ | .constantDecl _ => rfl

theorem Nestable.comments_mapTypes (g : TypeExpr → TypeExpr) (e : Nestable) :
    (e.mapTypes g).comments = e.comments := by
  induction e using Nestable.induct with
  | h e ih =>
    rw [comments_eq, comments_eq, notes_mapTypes, members_mapTypes, List.flatMap_map]
    refine congrArg (_ :: ·) (List.flatMap_congr fun m hm => ?_)
    match m with
    | .nested e' => exact ih e' (List.mem_filterMap.mpr ⟨_, hm, rfl⟩)
    | .method _ | .attribute _ | .mixin _ | .variable _ | .aliasMember _ | .visibility _ => rfl

theorem Declaration.comments_mapTypes (g : TypeExpr → TypeExpr) (d : Declaration) :
    (d.mapTypes g).comments = d.comments := by
  cases d with
  | nestable e => exact e.comments_mapTypes g
  | globalDecl => rfl

section

variable {f : Notes → Notes} {h : String → String} (hf : ∀ n, (f n).commentText? = n.commentText?.map h)
include hf

theorem Nestable.comments_mapNotes (e : Nestable) :
    (e.mapNotes f).comments = e.comments.map (Option.map h) := by
  induction e using Nestable.induct with
  | h e ih =>
    have hmembers : (e.mapNotes f).members = e.members.map (Member.mapNotes f) :=
      Declaration.members_mapNotes (.nestable e) f
    rw [comments_eq, comments_eq, notes_mapNotes, hf, hmembers, List.map_cons, List.map_flatMap,
      List.flatMap_map]
    refine congrArg (_ :: ·) (List.flatMap_congr fun m hm => ?_)
    match m with
    | .nested e' => exact ih e' (List.mem_filterMap.mpr ⟨_, hm, rfl⟩)
    | .visibility _ => rfl
    | .method m | .attribute m | .mixin m | .variable m | .aliasMember m =>
      exact congrArg ([·]) (hf m.notes)

theorem Declaration.comments_mapNotes (d : Declaration) :
    (d.mapNotes f).comments = d.comments.map (Option.map h) := by
  cases d with
  | nestable e => exact e.comments_mapNotes hf
  | globalDecl d => exact congrArg ([·]) (hf d.notes)

end

theorem Notes.commentText?_erase (n : Notes) : n.erase.commentText? = n.commentText? := by
  rw [commentText?, erase, Option.map_map]
  rfl

theorem Declaration.comments_erase (d : Declaration) : d.erase.comments = d.comments := by
  have hkeep := comments_mapNotes (f := Notes.erase) (h := id)
    (fun n => by rw [Notes.commentText?_erase, Option.map_id_fun, id]) d
  rwa [Option.map_id_fun, List.map_id_fun, id] at hkeep

/-! ## Top theorem -/

/-- **What was read can be written and read again, and every declaration and member has its comment again,
without the blanks at the ends of its lines.**  No other comment comes in: what is read again are the same
declarations and members with the trimmed comments and the readings of their types. -/
theorem comments_written {text source : String} {ds : List Declaration} (h : parse text source = .ok ds)
    {indent : String} (hindent : IsIndent indent.toList) (name : String) :
    ∃ written es, write ds indent = .ok written ∧ parse written name = .ok es ∧
      es.map Declaration.comments = ds.map (fun d => d.comments.map (Option.map trimmedLines)) ∧
      es.map Declaration.erase
        = ds.map fun d => ((d.mapNotes Notes.trimmed).mapTypes TypeExpr.reading).erase := by
  have hfits := parse_fits h
  obtain ⟨written, hwritten⟩ := write_ok (fun d hd => (hfits d hd).allWritable) indent
  have htrimmed : write (ds.map (Declaration.mapNotes Notes.trimmed)) indent = .ok written :=
    (write_mapNotes noteLines_trimmed ds indent).trans hwritten
  obtain ⟨es, hes, hsame⟩ := parse_write_reading name
    (List.forall_mem_map.mpr fun d hd => (hfits d hd).readable_trimmed) hindent htrimmed
  rw [List.map_map, List.map_map] at hsame
  refine ⟨written, es, hwritten, hes, ?_, hsame⟩
  have hcomments := congrArg (List.map Declaration.comments) hsame
  rw [List.map_map, List.map_map] at hcomments
  have htext : ∀ n : Notes, n.trimmed.commentText? = n.commentText?.map trimmedLines := fun n => by
    rw [Notes.commentText?, Notes.commentText?, Notes.trimmed, Option.map_map, Option.map_map]
    rfl
  calc es.map Declaration.comments = es.map (Declaration.comments ∘ Declaration.erase) :=
        List.map_congr_left fun e _ => e.comments_erase.symm
    _ = _ := hcomments
    _ = _ := List.map_congr_left fun d _ => by
        show (((d.mapNotes Notes.trimmed).mapTypes TypeExpr.reading).erase).comments = _
        rw [Declaration.comments_erase, Declaration.comments_mapTypes, Declaration.comments_mapNotes htext]

/-- A text with blanks at the ends of its comments, and with an empty line in one of them. -/
def paddedText : String :=
  "# A. \n#\nclass A\n  # m\r\n  def m: () -> void\n\n  def n: (:a?) -> void\nend\n"

/-- The comments of the text come back without them. -/
theorem comments_written_padded : ∃ ds, parse paddedText "a.rbs" = .ok ds ∧
    ds.map Declaration.comments = [[some "A. \n", some "m\r", none]] ∧
    ∃ written es, write ds = .ok written ∧ parse written "b.rbs" = .ok es ∧
      es.map Declaration.comments = [[some "A.\n", some "m", none]] := by
  have hcomments : (parse paddedText "a.rbs").toOption.map (List.map Declaration.comments)
      = some [[some "A. \n", some "m\r", none]] := by decide +kernel
  cases hparse : parse paddedText "a.rbs" with
  | error f =>
    rw [hparse] at hcomments
    cases hcomments
  | ok ds =>
    rw [hparse] at hcomments
    have hds : ds.map Declaration.comments = [[some "A. \n", some "m\r", none]] := Option.some.inj hcomments
    have hindent : IsIndent "  ".toList := fun a ha => .inl (List.eq_of_mem_replicate (n := 2) ha)
    obtain ⟨written, es, hwritten, hes, hkept, -⟩ := comments_written hparse hindent "b.rbs"
    refine ⟨ds, rfl, hds, written, es, hwritten, hes, ?_⟩
    have hmap : (ds.map Declaration.comments).map (List.map (Option.map trimmedLines))
        = es.map Declaration.comments := by
      rw [hkept, List.map_map]
      rfl
    rw [← hmap, hds]
    decide +kernel

/-- Every comment comes back as it was. -/
def CommentsSurvive : Prop :=
  ∀ (text source written name : String) (ds es : List Declaration), parse text source = .ok ds →
    write ds = .ok written → parse written name = .ok es →
    es.map Declaration.comments = ds.map Declaration.comments

/-- An empty class with a comment above it. -/
def commentedClass (comment : String) : Declaration :=
  .nestable (.classDecl ⟨⟨"A", [], false⟩, [], none, [],
    ⟨[], some ⟨comment, some ⟨"a.rbs", 1, 1, 1, 0⟩⟩, some ⟨"a.rbs", 2, 1, 3, 4⟩⟩⟩)

/-- A blank at the end of a comment does not. -/
theorem not_commentsSurvive : ¬ CommentsSurvive := by
  intro h
  have hparse : parse "# a \nclass A\nend\n" "a.rbs" = .ok [commentedClass "a "] := by decide +kernel
  have hwrite : write [commentedClass "a "] = .ok "# a\nclass A\nend\n" := by decide +kernel
  have hread : parse "# a\nclass A\nend\n" "a.rbs" = .ok [commentedClass "a"] := by decide +kernel
  exact absurd (h _ _ _ _ _ _ hparse hwrite hread) (by decide)

end RbsSynth.Signature
