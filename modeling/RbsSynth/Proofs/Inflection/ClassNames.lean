import RbsSynth.Proofs.Inflection.Endings
import RbsSynth.Proofs.Inflection.Paths
import RbsSynth.Proofs.Writing.RoundTrip
import RbsSynth.Template.Render

/-!
# Names of classes from names of tables

A table has a name of small letters, digits and underscores, of at least two characters, and a schema may
stand in front of it with a dot.  Of such a name no rule leaves nothing, or anything that is not allowed in
the name of a class:

    IsTableName name  →  IsUpperName (classify name)                             (isUpperName_classify)

So a template that writes the header of a class with it gives the text of a class (`classify_names`).
-/

namespace RbsSynth.Inflection

open Signature Text

/-! ## Names of tables -/

/-- A name that may go on with underscores. -/
def IsStem (w : List Char) : Prop :=
  ∃ c cs, w = c :: cs ∧ c.isLower = true ∧ ∀ a ∈ cs, IsPlain a ∨ a = '_'

/-- A table, alone or behind a schema. -/
def IsTableName (name : List Char) : Prop :=
  ∃ table, IsStem table ∧ 2 ≤ table.length ∧ (name = table ∨ ∃ schema, name = schema ++ '.' :: table)

theorem IsStem.letters {w : List Char} (h : IsStem w) : ∀ a ∈ w, IsPlain a ∨ a = '_' := by
  obtain ⟨c, cs, rfl, hc, hcs⟩ := h
  exact List.forall_mem_cons.mpr ⟨.inl (.inl hc), hcs⟩

theorem IsStem.not_mem {w : List Char} (h : IsStem w) {a : Char} (ha : ¬ IsPlain a) (ha' : a ≠ '_') :
    a ∉ w :=
  fun hmem => (h.letters a hmem).elim ha ha'

theorem IsStem.append {w front : List Char} (h : IsStem (front ++ w)) (hne : front ≠ [])
    {v : List Char} (hv : ∀ a ∈ v, IsPlain a ∨ a = '_') : IsStem (front ++ v) := by
  obtain ⟨c, cs, heq, hc, hcs⟩ := h
  cases front with
  | nil => exact absurd rfl hne
  | cons d ds =>
    obtain ⟨rfl, rfl⟩ := List.cons.inj heq
    exact ⟨d, ds ++ v, rfl, hc, List.forall_mem_append.mpr ⟨(List.forall_mem_append.mp hcs).1, hv⟩⟩

theorem behindLastDot_tableName {name : List Char} (h : IsTableName name) :
    IsStem (behindLastDot name) ∧ 2 ≤ (behindLastDot name).length := by
  obtain ⟨table, hstem, hlen, hname⟩ := h
  have hdot : '.' ∉ table := hstem.not_mem (by decide) (by decide)
  have hall : ∀ a ∈ table.reverse, (a != '.') = true := fun a ha => by
    refine bne_iff_ne.mpr ?_
    rintro rfl
    exact hdot (List.mem_reverse.mp ha)
  have heq : behindLastDot name = table := by
    rcases hname with rfl | ⟨schema, rfl⟩
    · rw [behindLastDot, ← List.append_nil name.reverse, List.takeWhile_append_of_pos hall]
      simp
    · rw [behindLastDot, List.reverse_append, List.reverse_cons, List.append_assoc,
        List.takeWhile_append_of_pos hall]
      simp
  rw [heq]
  exact ⟨hstem, hlen⟩

/-! ## One of many -/

theorem singulars_added : ∀ e ∈ singulars, IsSmall e.added.toList := by decide

/-- A rule keeps a letter, but for the one that takes a single letter off. -/
theorem singulars_kept : ∀ e ∈ singulars, e.kept.length = 0 → e.place ≠ .atStart ∧ e.dropped.length = 1 := by
  decide

theorem isPlain_of_small {w : List Char} (h : IsSmall w) : ∀ a ∈ w, IsPlain a ∨ a = '_' :=
  fun a ha => .inl (.inl (h a ha))

theorem isLower_of_isAlpha {a : Char} (h : IsPlain a ∨ a = '_') (halpha : a.isAlpha = true) :
    a.isLower = true := by
  have hall : ∀ a ∈ '_' :: lettersFrom 48 10, a.isAlpha = false := by decide
  rcases h with (hlower | hdigit) | rfl
  · exact hlower
  · rw [hall a (List.mem_cons_of_mem _ (mem_of_isDigit hdigit))] at halpha
    cases halpha
  · cases halpha

theorem IsStem.singularize {w : List Char} (h : IsStem w) (hlen : 2 ≤ w.length) :
    IsStem (singularize w) := by
  have hsplit : (lastWord w).1 ++ (lastWord w).2 = w := lastWord_append (h.not_mem (by decide) (by decide))
  have hsmall : IsSmall (lastWord w).2 := fun a ha =>
    isLower_of_isAlpha (h.letters a (hsplit ▸ List.mem_append_right _ ha)) (isAlpha_lastWord w a ha)
  cases hone : singularize? w with
  | none =>
    rw [Inflection.singularize, hone]
    exact h
  | some v =>
    obtain ⟨tail, rfl, -, hcases⟩ := exists_of_inflect hone
    rw [Inflection.singularize, hone, Option.getD_some]
    generalize (lastWord w).1 = head at *
    generalize (lastWord w).2 = word at *
    subst hsplit
    rcases hcases with ⟨p, hp, -, rfl⟩ | ⟨e, he, happly⟩
    · rw [matchCase_small hsmall]
      have hall : ∀ p ∈ onePairs, IsSmall p.2.toList ∧ p.2.toList ≠ [] := by decide
      obtain ⟨hother, hne⟩ := hall p hp
      by_cases hhead : head = []
      · obtain ⟨c, cs, heq⟩ := List.exists_cons_of_ne_nil hne
        rw [heq] at hother ⊢
        obtain ⟨hc, hcs⟩ := List.forall_mem_cons.mp hother
        rw [hhead]
        exact ⟨c, cs, rfl, hc, isPlain_of_small hcs⟩
      · exact h.append hhead (isPlain_of_small hother)
    · obtain ⟨front, gone, back, hchanges, rfl, rfl⟩ := Changes.of_apply happly
      have hrest : ∀ a ∈ e.added.toList ++ back, IsPlain a ∨ a = '_' :=
        List.forall_mem_append.mpr ⟨isPlain_of_small (singulars_added e he),
          isPlain_of_small fun a ha => hsmall a (List.mem_append_right _ ha)⟩
      by_cases hfront : head ++ front = []
      · -- Only the rule for a last letter has nothing in front of it, and that would be all of the name.
        obtain ⟨rfl, rfl⟩ := List.append_eq_nil_iff.mp hfront
        obtain ⟨hplace, hone⟩ := singulars_kept e he (Nat.le_zero.mp hchanges.kept)
        rw [hchanges.back hplace, List.append_nil, List.nil_append, List.nil_append,
          ← hchanges.dropped.length_eq, hone] at hlen
        omega
      · rw [List.append_assoc, ← List.append_assoc]
        rw [List.append_assoc, ← List.append_assoc] at h
        exact h.append hfront hrest

/-! ## The name of a class -/

/-- What words become keeps to the characters of names. -/
theorem capitalize_nameChars {x : List Char} (hx : ∀ a ∈ x, IsPlain a) :
    ∀ a ∈ capitalize x, isNameChar a = true := by
  have hall : ∀ c ∈ lettersFrom 97 26 ++ lettersFrom 48 10, isNameChar c = true ∧
      ∀ a ∈ titleChar c, isNameChar a = true := by decide
  have hplain : ∀ c, IsPlain c → isNameChar c = true ∧ ∀ a ∈ titleChar c, isNameChar a = true :=
    fun c hc => hall c (List.mem_append.mpr (hc.imp mem_of_isLower mem_of_isDigit))
  cases x with
  | nil => exact List.forall_mem_nil _
  | cons c cs =>
    obtain ⟨hc, hcs⟩ := List.forall_mem_cons.mp hx
    rw [capitalize, lowerFrom_plain hcs]
    exact List.forall_mem_append.mpr ⟨(hplain c hc).2, fun a ha => (hplain a (hcs a ha)).1⟩

theorem joinWords_nameChars {cs run : List Char} (hcs : ∀ a ∈ cs, IsPlain a ∨ a = '_')
    (hrun : ∀ a ∈ run, IsPlain a) : ∀ a ∈ joinWords (some run) cs, isNameChar a = true := by
  have hclose : ∀ run : List Char, (∀ a ∈ run, IsPlain a) → ∀ a ∈ closeRun (some run), isNameChar a = true :=
    fun run hrun => capitalize_nameChars fun a ha => hrun a (List.mem_reverse.mp ha)
  induction cs generalizing run with
  | nil => exact hclose run hrun
  | cons c cs ih =>
    obtain ⟨hc, hrest⟩ := List.forall_mem_cons.mp hcs
    rcases hc with hc | rfl
    · have hstep := joinWords_run (x := [c]) (List.forall_mem_singleton.mpr hc) run cs
      rw [List.singleton_append] at hstep
      rw [hstep]
      exact ih hrest (List.forall_mem_cons.mpr ⟨hc, hrun⟩)
    · rw [joinWords]
      exact List.forall_mem_append.mpr ⟨hclose run hrun, ih hrest (List.forall_mem_nil _)⟩

theorem IsStem.camelize {w : List Char} (h : IsStem w) : IsUpperName (camelize w) := by
  obtain ⟨c, cs, rfl, hc, hcs⟩ := h
  obtain ⟨htitle, hupper, -⟩ := titleChar_of_isLower hc
  have hfirst : isLowerOrDigit c = true := IsPlain.facts (.inl hc) |>.continues
  have hrun : ∀ a ∈ cs.takeWhile isLowerOrDigit, IsPlain a := fun a ha => by
    refine (hcs a ((List.takeWhile_prefix _).subset ha)).resolve_right ?_
    rintro rfl
    exact absurd (List.mem_takeWhile_imp ha) (by decide)
  have hrest : ∀ a ∈ joinWords none (cs.dropWhile isLowerOrDigit), isNameChar a = true := by
    have hall : ∀ a ∈ cs.dropWhile isLowerOrDigit, IsPlain a ∨ a = '_' :=
      fun a ha => hcs a ((List.dropWhile_suffix _).subset ha)
    cases hdrop : cs.dropWhile isLowerOrDigit with
    | nil => exact List.forall_mem_nil _
    | cons d ds =>
      rw [hdrop] at hall
      have hstop : isLowerOrDigit d = false := by
        have hhead := List.head?_dropWhile_not isLowerOrDigit cs
        rw [hdrop] at hhead
        simpa using hhead
      obtain ⟨hd, hds⟩ := List.forall_mem_cons.mp hall
      obtain rfl : d = '_' := hd.resolve_left fun hplain => by
        rw [hplain.facts.continues] at hstop
        cases hstop
      exact joinWords_nameChars hds (List.forall_mem_nil _)
  rw [Inflection.camelize, List.takeWhile_cons_of_pos hfirst, List.dropWhile_cons_of_pos hfirst, capitalize,
    htitle, lowerFrom_plain hrun, List.singleton_append, joinWords_none (noSign_capital hupper hrun)]
  refine ⟨c.toUpper, _, rfl, hupper, List.forall_mem_append.mpr ⟨fun a ha => ?_, hrest⟩⟩
  exact (hrun a ha).elim isNameChar_of_isLower fun hdigit => by
    rw [isNameChar, Char.isAlphanum, hdigit, Bool.or_true, Bool.true_or]

/-- **The name of a table gives a name that a class can have.** -/
theorem isUpperName_classify {name : List Char} (h : IsTableName name) : IsUpperName (classify name) := by
  obtain ⟨hstem, hlen⟩ := behindLastDot_tableName h
  exact (hstem.singularize hlen).camelize

/-! ## The header of a class -/

open Template

/-- A template with the name of a table. -/
def headerTemplate : String := "class <%= name.classify %>\nend\n"

/-- A class of which only the name is told. -/
def bareClass (name : String) : Declaration := .nestable (.classDecl ⟨⟨name, [], false⟩, [], none, [], {}⟩)

def headerStatements : List Statement :=
  [.text "class ", .output (.attribute (.name "name") "classify"), .text "\nend\n"]

/-- Statements cannot be compared, but one can look whether they are these. -/
def isHeader : Option (List Statement) → Bool
  | some [.text front, .output (.attribute (.name n) a), .text back] =>
    front == "class " && n == "name" && a == "classify" && back == "\nend\n"
  | _ => false

theorem parse_headerTemplate : parse? headerTemplate = some headerStatements := by
  have h : isHeader (parse? headerTemplate) = true := by decide +kernel
  unfold isHeader at h
  split at h
  · rename_i hparse
    simp only [Bool.and_eq_true, beq_iff_eq] at h
    obtain ⟨⟨⟨rfl, rfl⟩, rfl⟩, rfl⟩ := h
    exact hparse
  · cases h

theorem render_header (name : List Char) : render headerTemplate [("name", .bound (.ofList name))]
    = .ok ("class " ++ String.ofList (classify name) ++ "\nend\n") := by
  have hvalue : (Value.bound (.ofList name)).attribute "classify"
      = .ok (.bound (.ofList (classify name))) := by
    have hhides : (Value.bound (.ofList name)).hides "classify" = false := by
      simp [Value.hides, hiddenOfAll, hiddenOfText, hiddenOfBound]
    have hattribute : (Value.bound (.ofList name)).attribute? "classify"
        = some (.bound (.ofList (classify name))) := by
      have hlookup : inflections.lookup "classify" = some classify := rfl
      simp only [Value.attribute?, hhides, Bool.false_eq_true, if_false, hlookup, Option.map_some,
        Option.some_or, String.toList_ofList]
    unfold Value.attribute
    rw [hattribute]
  have hrefused : anyRefused false headerStatements = false := by decide
  have heval : eval [("name", .bound (.ofList name))] (.attribute (.name "name") "classify")
      = .ok (.bound (.ofList (classify name))) := by
    rw [eval, eval]
    exact hvalue
  simp only [render, parse_headerTemplate, hrefused, Bool.false_eq_true, if_false]
  simp only [headerStatements, runAll, run, bind, Except.bind, heval, Value.display, pure, Except.pure]
  simp [String.join, String.append_assoc]

theorem parse_header {x : List Char} (hx : IsUpperName x) (source : String) :
    ∃ ds, parse ("class " ++ String.ofList x ++ "\nend\n") source = .ok ds ∧
      sameDeclarations ds [bareClass (.ofList x)] = true := by
  have hname : TypeName.IsClass ⟨.ofList x, [], false⟩ := ⟨List.forall_mem_nil _, by
    rw [String.toList_ofList]
    exact hx⟩
  have hclass : (bareClass (.ofList x)).Legible source :=
    ⟨⟨⟨hname, List.forall_mem_nil _, fun _ h => by cases h⟩, List.forall_mem_nil _, Notes.fits_empty⟩,
      List.forall_mem_nil _, fun _ h => by cases h⟩
  have hall : (bareClass (.ofList x)).Throughout (Declaration.Legible source) (Member.Legible source) :=
    Declaration.throughout_iff.mpr ⟨hclass, List.forall_mem_nil _⟩
  have hindent : IsIndent "  ".toList := fun a ha => .inl (List.eq_of_mem_replicate (n := 2) ha)
  have hwrite : write [bareClass (.ofList x)] "  " = .ok ("class " ++ String.ofList x ++ "\nend\n") := by
    have hlines : Writer.declarationLines "  " (bareClass (.ofList x))
        = .ok ["class " ++ String.ofList x, "end"] := by
      rw [bareClass, Writer.declarationLines, Writer.nestableLines, Writer.classLines, Writer.memberLines]
      have hrender : TypeName.render ⟨.ofList x, [], false⟩ = String.ofList x := String.empty_append
      show Except.ok ["" ++ "class " ++ TypeName.render ⟨.ofList x, [], false⟩ ++ "" ++ "", "" ++ "end"] = _
      rw [hrender]
      simp only [String.empty_append, String.append_empty]
    rw [write, Writer.chunks, hlines]
    show Except.ok (join "\n\n" [join "\n" ["class " ++ String.ofList x, "end"]] ++ "\n") = _
    simp only [join, String.append_assoc]
    rfl
  obtain ⟨ds, hparse, hsame⟩ := parse_write (List.forall_mem_singleton.mpr hall) hindent hwrite
  exact ⟨ds, hparse, decide_eq_true hsame⟩

/-- **The name of a table gives the name of a class, all of which its terminal takes, and a template that
writes the header with it the text of a class of that name.** -/
theorem classify_names {name : List Char} (h : IsTableName name) (source : String) :
    Terminal.upperName.match? (classify name) = some (classify name).length ∧
      ∃ text ds, render headerTemplate [("name", .bound (.ofList name))] = .ok text ∧
        parse text source = .ok ds ∧ sameDeclarations ds [bareClass (.ofList (classify name))] = true := by
  have hname := isUpperName_classify h
  refine ⟨?_, ?_⟩
  · have hmatch := nameAt?_eq hname Boundary.nil
    rwa [List.append_nil] at hmatch
  · obtain ⟨ds, hparse, hsame⟩ := parse_header hname source
    exact ⟨_, ds, render_header name, hparse, hsame⟩

/-- A table of the schema `public`. -/
theorem classify_names_posts : Terminal.upperName.match? "BlogPost".toList = some 8 ∧
    ∃ text ds, render headerTemplate [("name", .bound "public.blog_posts")] = .ok text ∧
      parse text "a.rbs" = .ok ds ∧ sameDeclarations ds [bareClass "BlogPost"] = true := by
  have htable : IsTableName "public.blog_posts".toList :=
    ⟨"blog_posts".toList, ⟨'b', _, rfl, rfl, by decide⟩, by decide, .inr ⟨"public".toList, rfl⟩⟩
  have hclass : classify "public.blog_posts".toList = "BlogPost".toList := by decide +kernel
  have hnames := classify_names htable "a.rbs"
  rw [hclass, String.ofList_toList, String.ofList_toList] at hnames
  exact hnames

end RbsSynth.Inflection
