import RbsSynth.Proofs.Reading.Reads
import RbsSynth.Proofs.Reading.Written

/-!
# Names of types

    TypeName.parse? n.render = some n                                               (parse?_render)

The path of a name is one token, its last part another.
-/

namespace RbsSynth.Signature

open Terminal Text

/-! ## Texts of names -/

/-- The text of a name before its last part. -/
def TypeName.pathPart (n : TypeName) : List Char :=
  (if n.absolute then colons else []) ++ pathText (n.path.map String.toList)

theorem join_path (path : List String) (s : String) :
    (join "::" (path ++ [s])).toList = pathText (path.map String.toList) ++ s.toList := by
  induction path with
  | nil => rfl
  | cons r path ih =>
    have hne : path ++ [s] ≠ [] := List.append_ne_nil_of_right_ne_nil _ (List.cons_ne_nil s [])
    obtain ⟨a, as, has⟩ := List.exists_cons_of_ne_nil hne
    rw [has] at ih
    rw [List.cons_append, has, join, String.toList_append, String.toList_append, ih, List.map_cons,
      pathText, pathText, List.flatMap_cons, List.append_assoc, List.append_assoc, List.append_assoc]
    · rfl
    · exact (List.cons_ne_nil a as)

theorem TypeName.render_toList (n : TypeName) : n.render.toList = n.pathPart ++ n.name.toList := by
  rw [render, qualified, String.toList_append, join_path, pathPart, List.append_assoc]
  cases n.absolute <;> rfl

/-- The parts of a name are not empty and hold no colon. -/
def IsSegment (s : String) : Prop := s.toList ≠ [] ∧ ':' ∉ s.toList

theorem splitOn_qualified {n : TypeName} (h : ∀ s ∈ n.path ++ [n.name], IsSegment s) :
    splitOn colons n.qualified.toList = (n.path ++ [n.name]).map String.toList := by
  have hne : n.path ++ [n.name] ≠ [] := List.append_ne_nil_of_right_ne_nil _ (List.cons_ne_nil _ [])
  obtain ⟨a, as, has⟩ := List.exists_cons_of_ne_nil hne
  rw [has] at h
  rw [TypeName.qualified, has]
  exact splitOn_join fun x hx => (h x hx).2

/-- The pieces of a name's text. -/
theorem splitOn_render {n : TypeName} (h : ∀ s ∈ n.path ++ [n.name], IsSegment s) :
    (splitOn colons n.render.toList).filter (!·.isEmpty)
      = (n.path ++ [n.name]).map String.toList := by
  have hfilter : ((n.path ++ [n.name]).map String.toList).filter (!·.isEmpty)
      = (n.path ++ [n.name]).map String.toList := by
    rw [List.filter_eq_self]
    intro x hx
    obtain ⟨s, hs, rfl⟩ := List.mem_map.mp hx
    rw [Bool.not_eq_true', List.isEmpty_eq_false_iff]
    exact (h s hs).1
  rw [TypeName.render, String.toList_append]
  cases n.absolute with
  | false => exact (congrArg _ (splitOn_qualified h)).trans hfilter
  | true =>
    have hsplit : splitOn colons (colons ++ n.qualified.toList)
        = [] :: splitOn colons n.qualified.toList := splitFrom_sep ':' [':'] [] n.qualified.toList
    show (splitOn colons (colons ++ n.qualified.toList)).filter (!·.isEmpty) = _
    rw [hsplit, splitOn_qualified h]
    exact hfilter

theorem isPrefixOf_render {n : TypeName} (h : ∀ s ∈ n.path ++ [n.name], IsSegment s) :
    colons.isPrefixOf n.render.toList = n.absolute := by
  rw [TypeName.render, String.toList_append]
  cases n.absolute with
  | true => rfl
  | false =>
    show colons.isPrefixOf n.qualified.toList = false
    obtain ⟨a, as, has⟩ := List.exists_cons_of_ne_nil
      (List.append_ne_nil_of_right_ne_nil n.path (List.cons_ne_nil n.name []))
    rw [has] at h
    obtain ⟨hne, hcolon⟩ := h a List.mem_cons_self
    rw [TypeName.qualified, has, join_cons]
    obtain ⟨c, x, hx⟩ := List.exists_cons_of_ne_nil hne
    rw [hx] at hcolon ⊢
    rw [← Bool.not_eq_true, List.isPrefixOf_iff_prefix, List.cons_append, colons,
      List.cons_prefix_cons]
    exact fun hpre => hcolon (hpre.1 ▸ List.mem_cons_self)

/-- **A name is read back from its text.** -/
theorem TypeName.parse?_render {n : TypeName} (h : ∀ s ∈ n.path ++ [n.name], IsSegment s) :
    TypeName.parse? n.render = some n := by
  have hparts : (splitOn "::".toList n.render.toList).filter (!·.isEmpty) = _ := splitOn_render h
  have habs : "::".toList.isPrefixOf n.render.toList = n.absolute := isPrefixOf_render h
  have hpath : (n.path.map String.toList).map String.ofList = n.path := by
    rw [List.map_map]
    exact (List.map_congr_left fun s _ => String.ofList_toList).trans (List.map_id _)
  unfold parse?
  simp only [hparts, habs, List.map_append, List.map_cons, List.map_nil, List.reverse_append,
    List.reverse_cons, List.reverse_nil, List.nil_append, List.cons_append, List.reverse_reverse,
    hpath, String.ofList_toList]

/-! ## Names are read -/

theorem not_colon_of_nameChars {x : List Char} (hx : ∀ a ∈ x, isNameChar a = true) : ':' ∉ x :=
  fun h => absurd (hx ':' h) (by decide)

theorem IsUpperName.segment {s : String} (h : IsUpperName s.toList) : IsSegment s := by
  refine ⟨?_, not_colon_of_nameChars h.nameChars⟩
  obtain ⟨c, cs, he, _⟩ := h
  rw [he]
  exact List.cons_ne_nil c cs

theorem IsLowerName.segment {s : String} (h : IsLowerName s.toList) : IsSegment s := by
  refine ⟨?_, not_colon_of_nameChars h.nameChars⟩
  obtain ⟨⟨c, cs, he, _⟩, _⟩ := h
  rw [he]
  exact List.cons_ne_nil c cs

theorem IsInterfaceName.segment {s : String} (h : IsInterfaceName s.toList) : IsSegment s := by
  obtain ⟨y, he, hy⟩ := h
  rw [IsSegment, he]
  refine ⟨List.cons_ne_nil '_' y, not_colon_of_nameChars fun a ha => ?_⟩
  rcases List.mem_cons.mp ha with rfl | ha
  · rfl
  · exact hy.nameChars a ha

theorem segments_of_path {n : TypeName} (h : ∀ s ∈ n.path, IsUpperName s.toList)
    (hlast : IsSegment n.name) : ∀ s ∈ n.path ++ [n.name], IsSegment s := by
  intro s hs
  rcases List.mem_append.mp hs with hs | hs
  · exact (h s hs).segment
  · rwa [List.mem_singleton.mp hs]

variable {name : String} {cs : List Context} {rest : List Char} {n : TypeName}

/-- The path of a name is one token. -/
theorem clear_pathPart {c : Context} (hpath : ∀ s ∈ n.path, IsUpperName s.toList)
    (hne : n.pathPart ≠ []) (hend : PathEnd rest) : Clear c namespacePath n.pathPart rest := by
  have hsegments : ∀ x ∈ n.path.map String.toList, IsUpperName x := by
    intro x hx
    obtain ⟨s, hs, rfl⟩ := List.mem_map.mp hx
    exact hpath s hs
  cases habs : n.absolute with
  | true =>
    have htext : n.pathPart = colons ++ pathText (n.path.map String.toList) := by
      rw [TypeName.pathPart, habs]
      rfl
    rw [htext]
    exact clear_namespacePath ⟨':', _, rfl, rfl⟩ (namespaceAt?_absolute hsegments hend)
  | false =>
    have htext : n.pathPart = pathText (n.path.map String.toList) := by
      rw [TypeName.pathPart, habs]
      rfl
    rw [htext] at hne ⊢
    cases hsegs : n.path.map String.toList with
    | nil => exact absurd (by rw [hsegs]; rfl) hne
    | cons x xs =>
      rw [hsegs] at hsegments
      refine clear_namespacePath ?_ (namespaceAt?_relative hsegments (List.cons_ne_nil x xs) hend)
      obtain ⟨d, y, rfl, hd, _⟩ := hsegments x List.mem_cons_self
      exact ⟨d, _, rfl, by rw [hd]; rfl⟩

theorem reads_typeName {r : Rule} {m : Nonterminal} {t : Terminal}
    (hshape : r.shape = (m, [.maybeToken namespacePath, .token t]))
    (hr : r ≠ .root ∧ r.isOpen = false ∧ t ≠ question ∧ t ≠ selfDot)
    (hbuild : ∀ sp vs, r.build name sp vs = (TypeName.parse? (tokensText vs)).map .name)
    (hpath : ∀ s ∈ n.path, IsUpperName s.toList) (hname : IsSegment n.name)
    (hend : PathEnd (n.name.toList ++ rest))
    (hcs : n.pathPart = [] → ∀ c ∈ cs, Clear c t n.name.toList rest)
    (hbehind : Clear (.behind namespacePath) t n.name.toList rest) :
    Reads name cs n.render.toList rest (.nonterminal m) false (.value (.name n)) [.behind t] := by
  obtain ⟨hroot, hopen, hq, hs⟩ := hr
  have hnext : ∀ c : Context, c.next t = .behind t := fun c =>
    next_eq_behind (fun h => absurd h hq) fun h => absurd h hs
  have hds : ∀ cs : List Context, cs.all (fun c => [Context.behind t].contains (c.next t)) = true := by
    refine fun cs => List.all_eq_true.mpr fun c _ => ?_
    rw [hnext]
    exact List.contains_iff_mem.mpr List.mem_cons_self
  have hsegments : ∀ s ∈ n.path ++ [n.name], IsSegment s :=
    segments_of_path hpath hname
  have hparse : ∀ vs, (tokensText vs).toList = n.render.toList →
      (TypeName.parse? (tokensText vs)).map Value.name = some (.name n) := by
    intro vs hvs
    rw [String.toList_inj.mp hvs, TypeName.parse?_render hsegments]
    rfl
  rw [TypeName.render_toList] at hparse ⊢
  have hbodies : RulePart.bodies r.shape.2 = [[.terminal namespacePath, .terminal t], [.terminal t]] := by
    rw [hshape]
    rfl
  by_cases hne : n.pathPart = []
  · rw [hne, List.nil_append] at hparse ⊢
    have hone : ∀ sp, Builds (r.build name sp) (.name n) [.token t n.name.toList] := by
      intro sp s
      show r.build name sp [.token ⟨t, .ofList n.name.toList, s⟩] = _
      rw [hbuild]
      refine hparse _ ?_
      rw [tokensText, tokensText, String.ofList_toList, String.toList_append, String.toList_empty,
        List.append_nil]
    have hmem : [.terminal t] ∈ RulePart.bodies r.shape.2 := by
      rw [hbodies]
      exact List.mem_cons_of_mem _ List.mem_cons_self
    have hread := Reads.rule r hroot (.one (.token (hcs hne) (hds cs))) hmem hone
    rw [hshape, hopen] at hread
    exact hread
  · have htwo : ∀ sp, Builds (r.build name sp) (.name n)
        [.token namespacePath n.pathPart, .token t n.name.toList] := by
      intro sp s s'
      show r.build name sp [.token ⟨namespacePath, .ofList n.pathPart, s⟩,
        .token ⟨t, .ofList n.name.toList, s'⟩] = _
      rw [hbuild]
      refine hparse _ ?_
      rw [tokensText, tokensText, tokensText, String.ofList_toList, String.toList_append,
        String.toList_append, String.toList_ofList, String.toList_empty, List.append_nil]
    have hmem : [.terminal namespacePath, .terminal t] ∈ RulePart.bodies r.shape.2 := by
      rw [hbodies]
      exact List.mem_cons_self
    have hpart : Reads name cs n.pathPart (n.name.toList ++ rest) (.terminal namespacePath) false
        (.token namespacePath n.pathPart) [.behind namespacePath] := by
      refine .token (fun c _ => clear_pathPart hpath hne hend) (List.all_eq_true.mpr fun c _ => ?_)
      rw [next_eq_behind (fun h => by cases h) (fun h => by cases h)]
      rfl
    have hlast : Reads name [.behind namespacePath] n.name.toList rest (.terminal t) false
        (.token t n.name.toList) [.behind t] :=
      .token (fun c hc => by rw [List.mem_singleton.mp hc]; exact hbehind) (hds _)
    have hread := Reads.rule r hroot (.cons hpart (.one hlast)) hmem htwo
    rw [hshape, hopen] at hread
    exact hread

/-! ## What stands around types -/

/-- The contexts in which a type may start. -/
def typeOpens : List Context :=
  .sign :: [label, arrow, doubleStar, ampersand, equals, less, star, colon, bar, comma, leftParen,
    leftBracket].map .behind

/-- The contexts behind a type. -/
def typeEnds : List Context :=
  [baseType, symbol, string, integer, lowerName, interfaceName, upperName, question, rightBrace,
    rightParen, rightBracket].map .behind

/-- The characters that stand behind a type. -/
def stops : List Char := [' ', ',', ')', ']', '\n']

def Stops (rest : List Char) : Prop := ∃ d ds, rest = d :: ds ∧ d ∈ stops

/-- What may stand behind a name: a stop, arguments, or a question mark before a stop. -/
def Follows (rest : List Char) : Prop :=
  ∃ d ds, rest = d :: ds ∧ d ∈ '[' :: '?' :: stops ∧ (d = '?' → Stops ds)

theorem Stops.follows (h : Stops rest) : Follows rest := by
  obtain ⟨d, ds, rfl, hd⟩ := h
  refine ⟨d, ds, rfl, List.mem_cons_of_mem _ (List.mem_cons_of_mem _ hd), ?_⟩
  rintro rfl
  exact absurd hd (by decide)

theorem Stops.cons {d : Char} (hd : d ∈ stops) (ds : List Char) : Stops (d :: ds) := ⟨d, ds, rfl, hd⟩

theorem Follows.boundary (h : Follows rest) : Boundary rest := by
  obtain ⟨d, ds, rfl, hd, _⟩ := h
  exact .cons ((by decide : ∀ d ∈ '[' :: '?' :: stops, isNameChar d = false) d hd) ds

theorem Follows.noColons (h : Follows rest) : NoColons rest := by
  obtain ⟨d, ds, rfl, hd, _⟩ := h
  intro cs he
  rw [(List.cons.inj he).1] at hd
  exact absurd hd (by decide)

theorem Follows.noLabel (h : Follows rest) : NoLabel rest := by
  obtain ⟨d, ds, rfl, hd, hmark⟩ := h
  intro c cs he
  obtain ⟨rfl, rfl⟩ := List.cons.inj he
  refine ⟨by rintro rfl; exact absurd hd (by decide), ?_⟩
  rintro (rfl | rfl) es rfl
  · obtain ⟨e, fs, he, hmem⟩ := hmark rfl
    rw [← (List.cons.inj he).1] at hmem
    exact absurd hmem (by decide)
  · exact absurd hd (by decide)

/-- The contexts in which the name of a class may stand in a type or behind a word. -/
def classOpens : List Context := typeOpens ++ [mixinWord, moduleWord, classWord].map .behind

def interfaceOpens : List Context := typeOpens ++ [mixinWord, interfaceWord].map .behind

theorem reads_className_of (hn : n.IsClass) (hb : Boundary rest) (hc : NoColons rest)
    (hs : ∀ c ∈ cs, suffixedName ∈ c.may → NoSuffix rest) :
    Reads name cs n.render.toList rest (.nonterminal .className) false (.value (.name n))
      [.behind upperName] := by
  refine reads_typeName (r := .className) rfl (by decide) (fun sp vs => rfl) hn.1 hn.2.segment
    (pathEnd_upper hn.2 hb hc) (fun _ c hmem => clear_upperName hn.2 hb hc (hs c hmem)) ?_
  exact clear_upperName hn.2 hb hc fun h => absurd h (by decide)

theorem reads_className (hn : n.IsClass) (hcs : cs ⊆ classOpens) (h : Follows rest) :
    Reads name cs n.render.toList rest (.nonterminal .className) false (.value (.name n))
      [.behind upperName] :=
  reads_className_of hn h.boundary h.noColons fun c hc hs =>
    absurd hs ((by decide : ∀ c ∈ classOpens, suffixedName ∉ c.may) c (hcs hc))

theorem reads_interfacePath (hn : n.IsInterface) (hcs : cs ⊆ interfaceOpens) (h : Follows rest) :
    Reads name cs n.render.toList rest (.nonterminal .interfacePath) false (.value (.name n))
      [.behind interfaceName] := by
  have halone : ∀ c ∈ .behind namespacePath :: interfaceOpens,
      alone c interfaceName '_' [lowerName, label] = true := by
    decide
  have hend : PathEnd (n.name.toList ++ rest) := by
    obtain ⟨y, he, _⟩ := hn.2
    rw [he]
    exact pathEnd_other rfl _
  refine reads_typeName (r := .interfacePath) rfl (by decide) (fun sp vs => rfl) hn.1 hn.2.segment
    hend (fun _ c hc => ?_) ?_
  · exact clear_interfaceName (halone c (List.mem_cons_of_mem _ (hcs hc))) hn.2 h.boundary
  · exact clear_interfaceName (halone _ List.mem_cons_self) hn.2 h.boundary

/-- The contexts in which the name of an alias may stand, with the words that may not stand there. -/
def aliasOpens : List Context := .behind typeWord :: .behind namespacePath :: typeOpens

theorem reserved_aliasOpens : ∀ c ∈ aliasOpens,
    (∀ w ∈ c.reserved, c ∈ typeOpens ∧ w ∈ typeWords) ∧
      ∀ r ∈ c.rivals lowerName, r.number < lowerName.number →
        ∀ d ∈ '[' :: '?' :: stops, r.plainBefore d = true := by
  decide

theorem clear_aliasName {c : Context} {s : String} (hc : c ∈ aliasOpens) (hs : IsLowerName s.toList)
    (hfree : c ∈ typeOpens → s ∉ typeWords) (h : Follows rest) :
    Clear c lowerName s.toList rest := by
  obtain ⟨hwords, hplain⟩ := reserved_aliasOpens c hc
  have hl := h.noLabel
  obtain ⟨d, ds, rfl, hd, _⟩ := h
  have hdname := (by decide : ∀ d ∈ '[' :: '?' :: stops, isNameChar d = false) d hd
  refine clear_lowerName hs hdname (fun _ => hl) (fun r hr hlt => hplain r hr hlt d hd) fun w hw he => ?_
  obtain ⟨hopen, hword⟩ := hwords w hw
  exact hfree hopen (String.toList_inj.mp he ▸ hword)

theorem reads_aliasName (hn : n.IsAlias) (hcs : cs ⊆ aliasOpens)
    (hfree : n.pathPart = [] → ∀ c ∈ cs, c ∈ typeOpens → n.name ∉ typeWords) (h : Follows rest) :
    Reads name cs n.render.toList rest (.nonterminal .aliasName) false (.value (.name n))
      [.behind lowerName] := by
  have hend : PathEnd (n.name.toList ++ rest) := by
    obtain ⟨c, y, he, _, hc⟩ := lower_first hn.2
    rw [he]
    refine pathEnd_other ?_ _
    rw [← Bool.not_eq_true]
    intro hu
    rcases Bool.or_eq_true_iff.mp hc with hl | hl
    · exact absurd hu ((by decide : ∀ c ∈ lettersFrom 97 26, ¬ c.isUpper = true) c
        (mem_of_isLower hl))
    · rw [beq_iff_eq.mp hl] at hu
      exact absurd hu (by decide)
  refine reads_typeName (r := .aliasName) rfl (by decide) (fun sp vs => rfl) hn.1 hn.2.segment
    hend (fun hne c hc => ?_) ?_
  · exact clear_aliasName (hcs hc) hn.2 (hfree hne c hc) h
  · exact clear_aliasName (by decide) hn.2 (fun hc => absurd hc (by decide)) h

end RbsSynth.Signature
