import RbsSynth.Proofs.Reading.Blocks

/-!
# Type parameters, method types and method names are read

    p.IsRead for each p  →  [p₁, …, pₙ] is read as the type parameters with their readings
                                                                                (readsAll_typeParams)
    m.IsRead  →  m.render is read as the method type with its readings             (reads_methodType)
-/

namespace RbsSynth.Signature

open Terminal Text Value

variable {name : String} {cs ds : List Context} {rest : List Char}

/-! ## Words that may be left out -/

/-- The text of a word with a blank behind it, if there is one. -/
def wordText (w : Option String) : List Char := w.toList.flatMap fun x => x.toList ++ [' ']

def wordSymbols (t : Terminal) (w : Option String) : List Symbol := w.toList.map fun _ => .terminal t

def wordParts (t : Terminal) (w : Option String) : List Part := w.toList.map fun x => .token t x.toList

theorem mem_bodies_word {xs : List Symbol} {ps : List RulePart} (t : Terminal) (w : Option String)
    (h : xs ∈ RulePart.bodies ps) : wordSymbols t w ++ xs ∈ RulePart.bodies (.maybeToken t :: ps) := by
  cases w with
  | none => exact mem_bodies_without h
  | some x => exact mem_bodies_with h

theorem readsAll_word {t : Terminal} {w : Option String} (ht : t ≠ label) (hsub : cs ⊆ ds)
    (hw : ∀ x ∈ w, keywordAlone cs t x.toList ' ' ds = true) :
    ReadsAll name cs (wordText w) rest (wordSymbols t w) false (wordParts t w) ds := by
  cases w with
  | none => exact ReadsAll.nil.weaken (fun _ h => h) hsub
  | some x =>
    have hword : Reads name cs x.toList ([' '] ++ rest) (.terminal t) false (.token t x.toList) ds :=
      .keyword (hw x rfl) ht (noLabel_of (by decide) rest)
    rw [wordText, Option.toList_some, List.flatMap_singleton]
    exact .cons hword ReadsAll.nil.space

/-! ## Type parameters -/

structure TypeParam.IsRead (name : String) (p : TypeParam) : Prop where
  fits : p.Fits
  bound : ∀ t ∈ p.upperBound, t.IsRead name

def TypeParam.uncheckedText (p : TypeParam) : Option String :=
  if p.unchecked then some "unchecked" else none

def TypeParam.varianceText (p : TypeParam) : Option String :=
  match p.variance with
  | .invariant => none
  | .covariant => some "out"
  | .contravariant => some "in"

/-- The text of the upper bound of a type parameter, if it has one. -/
def boundText (t : Option TypeExpr) : List Char := t.toList.flatMap fun t => " < ".toList ++ t.render.toList

theorem TypeParam.render_toList (p : TypeParam) : p.render.toList
    = wordText p.uncheckedText ++ (wordText p.varianceText ++ (p.name.toList ++ boundText p.upperBound)) := by
  obtain ⟨name, variance, bound, unchecked⟩ := p
  rw [render, String.toList_append]
  cases unchecked <;> cases variance <;> cases bound <;>
    simp [Text.join, wordText, boundText, uncheckedText, varianceText, String.toList_append]

/-- The symbols of an upper bound. -/
def boundSymbols (t : Option TypeExpr) : List Symbol :=
  t.toList.flatMap fun _ => [.terminal less, .nonterminal .type]

def boundParts (t : Option TypeExpr) : List Part :=
  t.toList.flatMap fun t => [.token less ['<'], .value (.type t.reading)]

theorem readsAll_bound {t : Option TypeExpr} (ht : ∀ u ∈ t, u.IsRead name) (hrest : Stops rest) :
    ReadsAll name [.behind upperName] (boundText t) rest (boundSymbols t) false (boundParts t)
      typeEnds := by
  cases t with
  | none => exact ReadsAll.nil.weaken (fun _ h => h) (by decide)
  | some t =>
    have htype : ReadsAll name [.behind less] (' ' :: t.render.toList) rest [.nonterminal .type] false
        [.value (.type t.reading)] typeEnds :=
      ((ReadsAll.one ((ht t rfl).asType hrest)).weaken (by decide) fun _ h => h).space
    rw [boundText, Option.toList_some, List.flatMap_singleton]
    exact .space (.sign (x := ['<']) [.behind less] (by decide) htype)

/-- The contexts in which a type parameter may start. -/
def typeParamOpens : List Context := [.behind leftBracket, .behind comma]

theorem reads_typeParam {p : TypeParam} (hp : p.IsRead name) (hrest : Stops rest) :
    Reads name typeParamOpens p.render.toList rest (.nonterminal .typeParameter) false
      (.value (.typeParam (p.mapTypes TypeExpr.reading))) typeEnds := by
  have hfollows : Follows (boundText p.upperBound ++ rest) := by
    cases p.upperBound with
    | none => exact hrest.follows
    | some t => exact (Stops.cons (by decide) _).follows
  have hname : ReadsAll name (.behind varianceWord :: .behind uncheckedWord :: typeParamOpens)
      (p.name.toList ++ boundText p.upperBound) rest (.terminal upperName :: boundSymbols p.upperBound)
      false (.token upperName p.name.toList :: boundParts p.upperBound) typeEnds := by
    refine .cons (.token (fun c hc => ?_) (by decide)) (readsAll_bound hp.bound hrest)
    exact clear_upperName hp.fits hfollows.boundary hfollows.noColons fun h =>
      absurd h ((by decide : ∀ c ∈ Context.behind varianceWord :: .behind uncheckedWord ::
        typeParamOpens, suffixedName ∉ c.may) c hc)
  have hvariance : ReadsAll name (.behind uncheckedWord :: typeParamOpens)
      (wordText p.varianceText) (p.name.toList ++ boundText p.upperBound ++ rest)
      (wordSymbols varianceWord p.varianceText) false (wordParts varianceWord p.varianceText)
      (.behind varianceWord :: .behind uncheckedWord :: typeParamOpens) := by
    refine readsAll_word (by decide) (fun _ h => List.mem_cons_of_mem _ h) fun x hx => ?_
    have hwords : x = "out" ∨ x = "in" := by
      revert hx
      rw [TypeParam.varianceText]
      cases p.variance <;> rintro ⟨⟩ <;> decide
    rcases hwords with rfl | rfl <;> decide
  have hunchecked : ReadsAll name typeParamOpens (wordText p.uncheckedText)
      (wordText p.varianceText ++ (p.name.toList ++ boundText p.upperBound) ++ rest)
      (wordSymbols uncheckedWord p.uncheckedText) false (wordParts uncheckedWord p.uncheckedText)
      (.behind uncheckedWord :: typeParamOpens) := by
    refine readsAll_word (by decide) (fun _ h => List.mem_cons_of_mem _ h) fun x hx => ?_
    obtain rfl : x = "unchecked" := by
      revert hx
      rw [TypeParam.uncheckedText]
      cases p.unchecked <;> rintro ⟨⟩
      rfl
    decide
  rw [TypeParam.render_toList]
  refine .rule .typeParameter (by decide) (hunchecked.append (hvariance.append hname)) ?_ fun sp => ?_
  · refine mem_bodies_word _ _ (mem_bodies_word _ _ (mem_bodies_must ?_))
    cases p.upperBound with
    | none => exact mem_bodies_without mem_bodies_nil
    | some t => exact mem_bodies_with mem_bodies_nil
  · obtain ⟨pname, variance, bound, unchecked⟩ := p
    have hpname : String.ofList pname.toList = pname := String.ofList_toList
    cases unchecked <;> cases variance <;> cases bound <;>
      simp [Builds, wordParts, boundParts, TypeParam.uncheckedText, TypeParam.varianceText, Rule.build,
        tokenIn?, hasToken, typeIn?, hpname, TypeParam.mapTypes]

variable {ps : List TypeParam}

theorem renderTypeParams_cons (p : TypeParam) (ps : List TypeParam) :
    (renderTypeParams (p :: ps)).toList = ['['] ++ (p.render.toList ++
      (behindEach [',', ' '] (·.render.toList) ps ++ [']'])) := by
  have htext : renderTypeParams (p :: ps)
      = "[" ++ join ", " (p.render :: ps.map TypeParam.render) ++ "]" := rfl
  rw [htext, String.toList_append, String.toList_append, join_cons, behindEach_map, List.append_assoc,
    List.append_assoc]
  rfl

/-- Type parameters in brackets, if there are any. -/
theorem readsAll_typeParams (hps : ∀ p ∈ ps, p.IsRead name)
    (hopen : signAlone cs leftBracket ['['] [.behind leftBracket] = true) :
    ReadsAll name cs (renderTypeParams ps).toList rest (symbolsOf .typeParameters ps) false
      (partsOf .typeParams (ps.map (TypeParam.mapTypes TypeExpr.reading))) (.behind rightBracket :: cs) := by
  cases ps with
  | nil => exact ReadsAll.nil.weaken (fun _ h => h) (List.subset_cons_self _ _)
  | cons p ps =>
    have hclose : ReadsAll name typeEnds [']'] rest [.terminal rightBracket] false
        [.token rightBracket [']']] [.behind rightBracket] := .one (.sign (by decide))
    have hitem : ∀ q ∈ ps, ∀ r, Stops r → ReadsAll name typeEnds ([',', ' '] ++ q.render.toList) r
        [.terminal comma, .nonterminal .typeParameter] false [.token comma [','],
          .value (.typeParam (q.mapTypes TypeExpr.reading))] typeEnds := fun q hq r hr =>
      .sign (x := [',']) [.behind comma] (by decide) (.space (.one
        ((reads_typeParam (hps q (List.mem_cons_of_mem p hq)) hr).weaken (by decide) fun _ h => h)))
    have hmore : ReadsAll name typeEnds (behindEach [',', ' '] (·.render.toList) ps) ([']'] ++ rest)
        (symbolsOf .moreTypeParameters ps) false
        (partsOf .typeParams (ps.map (TypeParam.mapTypes TypeExpr.reading))) typeEnds :=
      readsAll_more (TypeParam.mapTypes TypeExpr.reading) .moreTypeParameters .moreTypeParametersMore rfl rfl
        (by decide)
        (fun y => .cons (by decide) _) hitem (.cons (by decide) _) (fun _ _ _ => rfl)
        fun _ _ _ _ => rfl
    have hstops : Stops (behindEach [',', ' '] (·.render.toList) ps ++ [']'] ++ rest) := by
      rw [List.append_assoc]
      exact stops_behindEach (by decide) _ _ _ (.cons (by decide) rest)
    have hfirst := (reads_typeParam (hps p List.mem_cons_self) hstops).weaken
      (by decide : [.behind leftBracket] ⊆ typeParamOpens) fun _ h => h
    have hbody := ReadsAll.sign [.behind leftBracket] hopen (.cons hfirst (hmore.append hclose))
    rw [renderTypeParams_cons]
    refine (ReadsAll.one (.rule .typeParameters (by decide) hbody ?_ ?_)).weaken (fun _ h => h)
      (List.cons_subset_cons _ (List.nil_subset cs))
    · exact mem_bodies_must (mem_bodies_must (mem_bodies_maybe ps (mem_bodies_must mem_bodies_nil)))
    · cases ps <;> exact fun _ _ _ => rfl

/-! ## Method types -/

structure MethodType.IsRead (name : String) (m : MethodType) : Prop where
  function : m.function.IsRead name
  block : ∀ b ∈ m.block, b.IsRead name
  params : ∀ p ∈ m.typeParams, p.IsRead name

/-- The contexts in which a method type may start. -/
def methodTypeOpens : List Context := [.behind colon, .behind bar]

theorem MethodType.render_toList (m : MethodType) : m.render.toList
    = (renderTypeParams m.typeParams).toList ++ ((if m.typeParams.isEmpty then [] else [' '])
      ++ (groupText m.function ++ (blockText m.block ++ arrowText m.function.returnType))) := by
  obtain ⟨function, block, params⟩ := m
  rw [render]
  simp only [String.toList_append, renderParams_toList, renderBehind_toList, renderReturn_eq]
  cases params <;>
    simp [groupText, arrowText, renderTypeParams, bracketed]

theorem reads_methodType {m : MethodType} (hm : m.IsRead name) (hrest : Stops rest) :
    Reads name methodTypeOpens m.render.toList rest (.nonterminal .methodType) false
      (.value (.methodType (m.mapTypes TypeExpr.reading))) typeEnds := by
  have hgroup := (reads_group hm.function
    (blockText m.block ++ arrowText m.function.returnType ++ rest)).weaken
      (by decide : .behind rightBracket :: methodTypeOpens ⊆ groupOpens) fun _ h => h
  have hblock := (readsAll_block hm.block (arrowText m.function.returnType ++ rest)).weaken
    (by decide : [.behind rightParen] ⊆ _) fun _ h => h
  have hfunction := ReadsAll.blanks (y := if m.typeParams.isEmpty then [] else [' '])
    (fun a ha => by
      split at ha
      · cases ha
      · rw [List.mem_singleton.mp ha]
        rfl)
    (ReadsAll.cons hgroup (hblock.append (readsAll_arrow hm.function.result hrest)))
  have hbody : ReadsAll name methodTypeOpens _ rest _ _ _ typeEnds :=
    (readsAll_typeParams hm.params (by decide)).append hfunction
  rw [MethodType.render_toList]
  refine .rule .methodType (by decide) hbody ?_ fun sp => ?_
  · exact mem_bodies_maybe m.typeParams (mem_bodies_with (mem_bodies_maybe m.block.toList
      (mem_bodies_must (mem_bodies_must mem_bodies_nil))))
  · have hslots := ofWritten_mapTypes (g := TypeExpr.reading) hm.function.fits.2.2
    obtain ⟨function, block, params⟩ := m
    cases params <;> cases block <;>
      exact fun _ => congrArg (fun f => some (Value.methodType ⟨f, _, _⟩)) hslots

/-! ## Method names -/

/-- The contexts behind the name of a method. -/
def nameEnds : List Context := [lowerName, upperName, suffixedName, operator].map .behind

/-- A token that is the name of a method. -/
theorem reads_nameToken {s : String} {r : Rule} {t : Terminal}
    (hr : r.shape = (.methodName, [.token t]) ∧ r ≠ .root ∧ r.isOpen = false)
    (hbuild : ∀ sp k, r.build name sp [.token k] = some (.methodName k.text))
    (h : ∀ c ∈ cs, Clear c t s.toList rest)
    (hends : cs.all (fun c => nameEnds.contains (c.next t)) = true) :
    Reads name cs s.toList rest (.nonterminal .methodName) false (.value (.methodName s)) nameEnds := by
  obtain ⟨hshape, hroot, hopen⟩ := hr
  have hbody : ReadsAll name cs s.toList rest [.terminal t] false [.token t s.toList] nameEnds :=
    .one (.token h hends)
  have hread := Reads.rule r hroot hbody
    (by rw [hshape]; exact List.mem_singleton_self _) (v := .methodName s) fun sp k => by
      show r.build name sp [.token ⟨t, .ofList s.toList, k⟩] = _
      rw [hbuild, String.ofList_toList]
  rwa [hshape, hopen] at hread

/-- The name of a method that is no word of its contexts, before a blank, a line end or a colon. -/
theorem reads_methodName {s : String} {d : Char} {y : List Char} (hs : IsMethodName s)
    (hcs : cs ⊆ nameOpens) (hd : d ∈ behindName) (hfree : ∀ c ∈ cs, s ∉ c.reserved)
    (hpath : d = ':' → ∀ z, y ≠ ':' :: z) :
    Reads name cs s.toList (d :: y) (.nonterminal .methodName) false (.value (.methodName s))
      nameEnds := by
  have hends : ∀ t ∈ methodNames, cs.all (fun c => nameEnds.contains (c.next t)) = true := fun t ht =>
    List.all_eq_true.mpr fun c hc => List.all_eq_true.mp
      ((by decide : ∀ t ∈ methodNames, nameOpens.all (fun c => nameEnds.contains (c.next t)) = true) t ht)
      c (hcs hc)
  have hdname := (by decide : ∀ d ∈ behindName, isNameChar d = false) d hd
  rcases hs with hs | hs | hs | hs
  · refine reads_nameToken (r := .lowerMethodName) ⟨rfl, by decide, rfl⟩ (fun _ _ => rfl) (fun c hc => ?_)
      (hends lowerName (by decide))
    have hrivals : ∀ c ∈ nameOpens, label ∉ c.rivals lowerName ∧ ∀ r ∈ c.rivals lowerName,
        r.number < lowerName.number → ∀ d ∈ behindName, r.plainBefore d = true := by
      decide
    obtain ⟨hl, hp⟩ := hrivals c (hcs hc)
    refine clear_lowerName hs hdname (fun h => absurd h hl) (fun r hr hlt => hp r hr hlt d hd)
      fun w hw he => hfree c hc ?_
    rwa [← String.toList_inj.mp he]
  · refine reads_nameToken (r := .upperMethodName) ⟨rfl, by decide, rfl⟩ (fun _ _ => rfl) (fun c hc => ?_)
      (hends upperName (by decide))
    refine clear_upperName hs (.cons hdname y) (fun z he => ?_) fun _ a z he => ?_
    · obtain ⟨hd', he'⟩ := List.cons.inj he
      exact hpath hd' _ he'
    · rw [← (List.cons.inj he).1]
      exact (by decide : ∀ d ∈ behindName, isSuffix d = false) d hd
  · exact reads_nameToken (r := .suffixedMethodName) ⟨rfl, by decide, rfl⟩ (fun _ _ => rfl)
      (fun c hc => clear_suffixedName (hcs hc) hs hd) (hends suffixedName (by decide))
  · exact reads_nameToken (r := .operatorMethodName) ⟨rfl, by decide, rfl⟩ (fun _ _ => rfl)
      (fun c hc => clear_operator (hcs hc) hs hd) (hends operator (by decide))

end RbsSynth.Signature
