import RbsSynth.Proofs.Reading.Members
import RbsSynth.Proofs.Writing.Total

/-!
# The lines of declarations are read

A class, a module or an interface starts with a line of its own.  What is read of it, some members and an
`end` make up the declaration:

    Opens name r head f,  head on a line, the members ms, end  →  f ms by the rule r
-/

namespace RbsSynth.Signature

open Terminal Text Value

variable {name : String} {cs ds : List Context} {rest : List Char}

/-! ## Superclasses and self types -/

structure Application.IsRead (name : String) (P : TypeName → Prop) (a : Application) : Prop where
  named : P a.name
  args : ∀ t ∈ a.args, t.IsRead name

/-- The contexts behind the name and the type parameters of a declaration. -/
def headEnds : List Context := [.behind rightBracket, .behind upperName]

theorem readsAll_superclass {a : Option Application}
    (ha : ∀ b ∈ a, b.IsRead name TypeName.IsClass) (hrest : Stops rest) :
    ReadsAll name headEnds (match a with
      | none => ""
      | some b => " < " ++ Writer.applicationText b).toList rest
      (symbolsOf .superclass a.toList) false
      (a.toList.map fun b => .value (.superclass (b.mapTypes TypeExpr.reading))) lineEnds := by
  cases a with
  | none => exact ReadsAll.nil.weaken (fun _ h => h) (by decide)
  | some b =>
    obtain ⟨hn, hargs⟩ := ha b rfl
    have happlied := readsAll_classApplied hn (by decide : [.behind less] ⊆ classOpens) hargs hrest.follows
    have hbody := ReadsAll.sign (x := ['<']) [.behind less]
      (by decide : signAlone headEnds less ['<'] [.behind less] = true) happlied.space
    rw [String.toList_append]
    refine (ReadsAll.one (.rule .superclass (by decide) hbody ?_ fun sp => ?_)).space.weaken
      (fun _ h => h) typeEnds_subset
    · exact mem_bodies_must (mem_bodies_applied _ b.args)
    · obtain ⟨n, args⟩ := b
      cases args <;> exact fun _ => rfl

theorem reads_selfType {a : Application} (ha : a.IsRead name TypeName.IsModule) (hrest : Stops rest) :
    Reads name [.behind colon, .behind comma] (Writer.applicationText a).toList rest
      (.nonterminal .selfType) false (.value (.selfType (a.mapTypes TypeExpr.reading))) typeEnds := by
  obtain ⟨n, args⟩ := a
  obtain ⟨hn | hn, hargs⟩ := ha
  · have happlied := readsAll_classApplied hn (by decide : [.behind colon, .behind comma] ⊆ classOpens)
      hargs hrest.follows
    refine .rule .classSelfType (by decide) happlied (mem_bodies_applied _ args)
      fun sp => ?_
    cases args <;> rfl
  · have happlied := readsAll_interfaceApplied hn
      (by decide : [.behind colon, .behind comma] ⊆ interfaceOpens) hargs hrest.follows
    refine .rule .interfaceSelfType (by decide) happlied (mem_bodies_applied _ args)
      fun sp => ?_
    cases args <;> rfl

theorem readsAll_selfTypes {as : List Application} (has : ∀ a ∈ as, a.IsRead name TypeName.IsModule)
    (hrest : Stops rest) :
    ReadsAll name headEnds (match as with
      | [] => ""
      | as => " : " ++ join ", " (as.map Writer.applicationText)).toList rest (symbolsOf .selfTypes as) false
      (partsOf .selfTypes (as.map (Application.mapTypes TypeExpr.reading))) lineEnds := by
  cases as with
  | nil => exact ReadsAll.nil.weaken (fun _ h => h) (by decide)
  | cons a as =>
    obtain ⟨ha, has⟩ := List.forall_mem_cons.mp has
    have hitem : ∀ b ∈ as, ∀ r, Stops r →
        ReadsAll name typeEnds ([',', ' '] ++ (Writer.applicationText b).toList) r
          [.terminal comma, .nonterminal .selfType] false
          [.token comma [','], .value (.selfType (b.mapTypes TypeExpr.reading))] typeEnds := fun b hb r hr =>
      .sign (x := [',']) [.behind comma] (by decide) (.space (.one
        ((reads_selfType (has b hb) hr).weaken (by decide) fun _ h => h)))
    have hmore : ReadsAll name typeEnds
        (behindEach [',', ' '] (fun b => (Writer.applicationText b).toList) as) rest
        (symbolsOf .moreSelfTypes as) false
        (partsOf .selfTypes (as.map (Application.mapTypes TypeExpr.reading))) typeEnds :=
      readsAll_more (Application.mapTypes TypeExpr.reading) .moreSelfTypes .moreSelfTypesMore rfl rfl
        (by decide) (fun y => .cons (by decide) _) hitem hrest (fun _ _ _ => rfl) fun _ _ _ _ => rfl
    have hstops := stops_behindEach (by decide : ',' ∈ stops) [' ']
      (fun b => (Writer.applicationText b).toList) as hrest
    have hfirst := (reads_selfType ha hstops).weaken
      (by decide : [Context.behind colon] ⊆ [.behind colon, .behind comma]) fun _ h => h
    have hbody := ReadsAll.cons (reads_colon headEnds (by decide)) (ReadsAll.cons hfirst hmore).space
    have htext : (" : " ++ join ", " ((a :: as).map Writer.applicationText)).toList
        = ' ' :: ([':'] ++ ' ' :: ((Writer.applicationText a).toList
          ++ behindEach [',', ' '] (fun b => (Writer.applicationText b).toList) as)) := by
      rw [List.map_cons, String.toList_append, join_cons, behindEach_map]
      rfl
    rw [htext]
    refine (ReadsAll.one (.rule .selfTypes (by decide) hbody ?_ fun sp => ?_)).space.weaken
      (fun _ h => h) typeEnds_subset
    · have hmem := mem_bodies_maybe (m := .moreSelfTypes) as mem_bodies_nil
      rw [List.append_nil] at hmem
      exact mem_bodies_must (mem_bodies_must hmem)
    · cases as <;> exact fun _ => rfl

/-! ## Lines -/

/-- What `head` is read as is completed by any members and an `end` to what `f` makes of the members. -/
def Opens (name : String) (r : Rule) (head : List Char) (f : List Member → Nestable) : Prop :=
  ∃ xs parts, (∀ y, ReadsAll name declarationOpens head ('\n' :: y) xs false parts lineEnds) ∧
    ∀ raw : List Member,
      xs ++ (symbolsOf .members raw ++ [.terminal endWord]) ∈ RulePart.bodies r.shape.2 ∧
      ∀ sp, Builds (r.build name sp) (.nestable (f raw))
        (parts ++ (partsOf .members raw ++ [.token endWord "end".toList]))

theorem follows_typeParams (ps : List TypeParam) (hrest : Follows rest) :
    Follows ((renderTypeParams ps).toList ++ rest) := by
  cases ps with
  | nil => exact hrest
  | cons p ps =>
    rw [renderTypeParams_cons]
    exact ⟨'[', _, rfl, List.mem_cons_self, fun h => absurd h (by decide)⟩

/-- A word, a name, type parameters and what comes behind them. -/
theorem readsAll_head {t : Terminal} {k : Nonterminal} {word n : List Char} {v : Value}
    {ps : List TypeParam} {x : List Char} {xs : List Symbol} {parts : List Part}
    (hword : keywordAlone declarationOpens t word ' ' [.behind t] = true) (ht : t ≠ label)
    (hname : ∀ r, Follows r → Reads name [.behind t] n r (.nonterminal k) false (.value v) cs)
    (hps : ∀ p ∈ ps, p.IsRead name)
    (hopen : signAlone cs leftBracket ['['] [.behind leftBracket] = true) (hfollows : Follows (x ++ rest))
    (hx : ReadsAll name (.behind rightBracket :: cs) x rest xs false parts lineEnds) :
    ReadsAll name declarationOpens (word ++ ' ' :: (n ++ ((renderTypeParams ps).toList ++ x))) rest
      (.terminal t :: .nonterminal k :: (symbolsOf .typeParameters ps ++ xs)) false
      (.token t word :: .value v
        :: (partsOf .typeParams (ps.map (TypeParam.mapTypes TypeExpr.reading)) ++ parts)) lineEnds := by
  have hparams := (readsAll_typeParams hps hopen).append hx
  refine readsAll_worded [.behind t] hword ht (.cons (hname _ ?_) hparams)
  rw [List.append_assoc]
  exact follows_typeParams ps hfollows

theorem opens_class {d : ClassDecl} (hn : d.name.IsClass) (hps : ∀ p ∈ d.typeParams, p.IsRead name)
    (hsuper : ∀ a ∈ d.superclass, a.IsRead name TypeName.IsClass) :
    Opens name .classDeclaration (Writer.headText (.classDecl d)).toList
      fun raw => .classDecl ⟨d.name, d.typeParams.map (TypeParam.mapTypes TypeExpr.reading),
        d.superclass.map (Application.mapTypes TypeExpr.reading), raw, {}⟩ := by
  obtain ⟨n, params, superclass, _, _⟩ := d
  refine ⟨.terminal classWord :: .nonterminal .className :: (symbolsOf .typeParameters params
    ++ symbolsOf .superclass superclass.toList), .token classWord "class".toList :: .value (.name n)
    :: (partsOf .typeParams (params.map (TypeParam.mapTypes TypeExpr.reading))
      ++ superclass.toList.map fun b => .value (.superclass (b.mapTypes TypeExpr.reading))),
    fun y => ?_, fun raw => ⟨?_, fun sp => ?_⟩⟩
  · have hstops : Stops ('\n' :: y) := .cons (by decide) y
    have hhead := readsAll_head (by decide : keywordAlone declarationOpens classWord "class".toList ' '
      [.behind classWord] = true) (by decide) (fun r hr => reads_className hn (by decide) hr) hps (by decide)
      ?_ (readsAll_superclass hsuper hstops)
    · rw [Writer.headText]
      simp only [String.toList_append, List.append_assoc]
      exact hhead
    · cases superclass with
      | none => exact hstops.follows
      | some a =>
        show Follows ((" < " ++ Writer.applicationText a).toList ++ '\n' :: y)
        rw [String.toList_append]
        exact (Stops.cons (by decide : ' ' ∈ stops) _).follows
  · simp only [List.cons_append, List.append_assoc]
    exact mem_bodies_must (mem_bodies_must (mem_bodies_maybe params (mem_bodies_maybe superclass.toList
      (mem_bodies_maybe raw (mem_bodies_must mem_bodies_nil)))))
  · cases params <;> cases superclass <;> cases raw <;> exact fun _ _ => rfl

theorem opens_module {d : ModuleDecl} (hn : d.name.IsClass) (hps : ∀ p ∈ d.typeParams, p.IsRead name)
    (hself : ∀ a ∈ d.selfTypes, a.IsRead name TypeName.IsModule) :
    Opens name .moduleDeclaration (Writer.headText (.moduleDecl d)).toList
      fun raw => .moduleDecl ⟨d.name, d.typeParams.map (TypeParam.mapTypes TypeExpr.reading),
        d.selfTypes.map (Application.mapTypes TypeExpr.reading), raw, {}⟩ := by
  obtain ⟨n, params, selfTypes, _, _⟩ := d
  refine ⟨.terminal moduleWord :: .nonterminal .className :: (symbolsOf .typeParameters params
    ++ symbolsOf .selfTypes selfTypes), .token moduleWord "module".toList :: .value (.name n)
    :: (partsOf .typeParams (params.map (TypeParam.mapTypes TypeExpr.reading))
      ++ partsOf .selfTypes (selfTypes.map (Application.mapTypes TypeExpr.reading))), fun y => ?_,
    fun raw => ⟨?_, fun sp => ?_⟩⟩
  · have hstops : Stops ('\n' :: y) := .cons (by decide) y
    have hhead := readsAll_head (by decide : keywordAlone declarationOpens moduleWord "module".toList ' '
      [.behind moduleWord] = true) (by decide) (fun r hr => reads_className hn (by decide) hr) hps (by decide)
      ?_ (readsAll_selfTypes hself hstops)
    · rw [Writer.headText]
      simp only [String.toList_append, List.append_assoc]
      exact hhead
    · cases selfTypes with
      | nil => exact hstops.follows
      | cons a as =>
        show Follows ((" : " ++ join ", " ((a :: as).map Writer.applicationText)).toList ++ '\n' :: y)
        rw [String.toList_append]
        exact (Stops.cons (by decide : ' ' ∈ stops) _).follows
  · simp only [List.cons_append, List.append_assoc]
    exact mem_bodies_must (mem_bodies_must (mem_bodies_maybe params (mem_bodies_maybe selfTypes
      (mem_bodies_maybe raw (mem_bodies_must mem_bodies_nil)))))
  · cases params <;> cases selfTypes <;> cases raw <;> exact fun _ _ => rfl

theorem opens_interface {d : InterfaceDecl} (hn : d.name.IsInterface)
    (hps : ∀ p ∈ d.typeParams, p.IsRead name) :
    Opens name .interfaceDeclaration (Writer.headText (.interfaceDecl d)).toList
      fun raw => .interfaceDecl ⟨d.name, d.typeParams.map (TypeParam.mapTypes TypeExpr.reading), raw, {}⟩ := by
  obtain ⟨n, params, _, _⟩ := d
  refine ⟨.terminal interfaceWord :: .nonterminal .interfacePath :: (symbolsOf .typeParameters params ++ []),
    .token interfaceWord "interface".toList :: .value (.name n)
      :: (partsOf .typeParams (params.map (TypeParam.mapTypes TypeExpr.reading)) ++ []),
    fun y => ?_, fun raw => ⟨?_, fun sp => ?_⟩⟩
  · have hhead := readsAll_head (by decide : keywordAlone declarationOpens interfaceWord "interface".toList
      ' ' [.behind interfaceWord] = true) (by decide) (fun r hr => reads_interfacePath hn (by decide) hr) hps
      (by decide) (Stops.cons (by decide : '\n' ∈ stops) y).follows
      (ReadsAll.nil.weaken (fun _ h => h) (by decide))
    rw [List.append_nil] at hhead
    rw [Writer.headText]
    simp only [String.toList_append, List.append_assoc]
    exact hhead
  · simp only [List.cons_append, List.append_nil]
    exact mem_bodies_must (mem_bodies_must (mem_bodies_maybe params
      (mem_bodies_maybe raw (mem_bodies_must mem_bodies_nil))))
  · cases params <;> cases raw <;> exact fun _ _ => rfl

end RbsSynth.Signature
