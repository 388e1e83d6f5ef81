import RbsSynth.Proofs.Reading.Fitting

/-!
# What is read fits

The rules for members and declarations keep what is told of their parts too, so everything that a reader
has on its stack is told.

    parse text source = .ok ds  →  every declaration in ds fits                              (parse_fits)
-/

namespace RbsSynth.Signature

open Terminal Value

/-! ## Members -/

/-- A member without notes that is no declaration. -/
theorem Member.allFit_of_plain {m : Member} (hm : m.nested? = none) (hn : m.notes = {})
    (h : m.Fits) (ht : ∀ t ∈ m.types, t.AllFit) : m.AllFit := by
  refine ⟨⟨h, ht, ?_⟩, fun e he => ?_⟩
  · rw [hn]
    exact Notes.fits_empty
  · rw [hm] at he
    cases he

theorem keepsFit_kinds : ∀ r ∈ [Rule.singletonKind, .moduleFunctionKind], r.KeepsFit := by
  intro r hr
  simp only [List.mem_cons, List.not_mem_nil, or_false] at hr
  rcases hr with rfl | rfl <;>
  exact fun _ _ _ _ => forall_bodies_must (forall_bodies_nil
    (.of_forall fun vs _ _ => ⟨_, rfl, trivial, trivial⟩))

theorem keepsFit_methodMember : Rule.KeepsFit .methodMember := by
  have hmethod : ∀ {s : String} {k : MethodKind} {os : List MethodType} {more : Bool},
      IsMethodName s → Value.Fits (.overloads os more) → Value.Fits (.member (.method
        { name := s, kind := k, overloads := os, overloading := more })) := by
    intro s k os more hs hos
    refine Member.allFit_of_plain rfl rfl ⟨hs, hos.1, fun o ho => (hos.2 o ho).1⟩ ?_
    exact List.forall_mem_flatMap.mpr fun o ho => (hos.2 o ho).2
  refine fun _ _ _ _ => forall_bodies_must (forall_bodies_may
    (forall_bodies_must (forall_bodies_must (forall_bodies_must (forall_bodies_nil ?_))))
    (forall_bodies_must (forall_bodies_must (forall_bodies_must (forall_bodies_nil ?_)))))
  · rintro _ ⟨⟨_, _, rfl, _⟩, -, -⟩ _ _ _ ⟨⟨k, rfl⟩, -, -⟩ _ _ _ ⟨⟨s, rfl⟩, hs, -⟩ _ _ _
      ⟨⟨_, _, rfl, _⟩, -, -⟩ _ _ _ ⟨⟨os, more, rfl⟩, hos, -⟩ _ _
    exact ⟨_, rfl, hmethod hs hos, trivial⟩
  · rintro _ ⟨⟨_, _, rfl, _⟩, -, -⟩ _ _ _ ⟨⟨s, rfl⟩, hs, -⟩ _ _ _ ⟨⟨_, _, rfl, _⟩, -, -⟩ _ _ _
      ⟨⟨os, more, rfl⟩, hos, -⟩ _ _
    exact ⟨_, rfl, hmethod hs hos, trivial⟩

theorem keepsFit_attributeMember : Rule.KeepsFit .attributeMember := by
  have hattribute : ∀ {k : AttributeKind} {x : String} {t : TypeExpr} {singleton : Bool},
      label.Takes x.toList → t.AllFit → Value.Fits (.member (.attribute
        { kind := k, name := dropLast x, type := t, singleton := singleton })) := fun hx ht =>
    Member.allFit_of_plain rfl rfl (isKey_of_takes hx) (List.forall_mem_singleton.mpr ht)
  refine fun _ _ _ _ => forall_bodies_must (forall_bodies_may
    (forall_bodies_must (forall_bodies_must (forall_bodies_nil ?_)))
    (forall_bodies_must (forall_bodies_must (forall_bodies_nil ?_))))
  · rintro _ ⟨⟨_, _, rfl, hk⟩, -, -⟩ _ _ _ ⟨⟨_, _, rfl, _⟩, -, -⟩ _ _ _ ⟨⟨x, _, rfl, hx⟩, -, -⟩ _ _ _
      ⟨⟨t, rfl⟩, ht, -⟩ _ _
    exact Total.of_map (isSome_of_takes (t := attributeWord) id (by decide) hk) fun k =>
      ⟨hattribute hx ht, trivial⟩
  · rintro _ ⟨⟨_, _, rfl, hk⟩, -, -⟩ _ _ _ ⟨⟨x, _, rfl, hx⟩, -, -⟩ _ _ _ ⟨⟨t, rfl⟩, ht, -⟩ _ _
    exact Total.of_map (isSome_of_takes (t := attributeWord) id (by decide) hk) fun k =>
      ⟨hattribute hx ht, trivial⟩

theorem keepsFit_mixin : ∀ r ∈ [Rule.classMixin, .interfaceMixin], r.KeepsFit := by
  have hmixin : ∀ {n : TypeName} {vs : List Value} (k : MixinKind), n.IsModule →
      (∀ v ∈ vs, v.Fits) → Value.Fits (.member (.mixin { kind := k, name := n, args := typesIn vs })) :=
    fun _ hn hvs => Member.allFit_of_plain rfl rfl hn (partsFit hvs).types
  intro r hr
  simp only [List.mem_cons, List.not_mem_nil, or_false] at hr
  rcases hr with rfl | rfl
  · refine fun _ _ _ _ => forall_bodies_must (forall_bodies_must fun body _ => ?_)
    rintro _ ⟨⟨_, _, rfl, hk⟩, -, -⟩ _ _ _ ⟨⟨n, rfl⟩, -, hn⟩ _ _
    exact .of_forall fun vs _ hvs =>
      Total.of_map (isSome_of_takes (t := mixinWord) id (by decide) hk) fun k =>
        ⟨hmixin k (.inl (hn n rfl)) hvs, trivial⟩
  · refine fun _ _ _ _ => forall_bodies_must (forall_bodies_must fun body _ => ?_)
    rintro _ ⟨⟨_, _, rfl, hk⟩, -, -⟩ _ _ _ ⟨⟨n, rfl⟩, -, hn⟩ _ _
    exact .of_forall fun vs _ hvs =>
      Total.of_map (isSome_of_takes (t := mixinWord) id (by decide) hk) fun k =>
        ⟨hmixin k (.inr (hn n rfl)) hvs, trivial⟩

theorem keepsFit_variable : ∀ r ∈ [Rule.variableMember, .visibilityMember], r.KeepsFit := by
  intro r hr
  simp only [List.mem_cons, List.not_mem_nil, or_false] at hr
  rcases hr with rfl | rfl
  · refine fun _ _ _ _ => forall_bodies_must (forall_bodies_must (forall_bodies_must
      (forall_bodies_nil ?_)))
    rintro _ ⟨⟨_, _, rfl, hx⟩, -, -⟩ _ _ _ ⟨⟨_, _, rfl, _⟩, -, -⟩ _ _ _ ⟨⟨t, rfl⟩, ht, -⟩ _ _
    exact ⟨_, rfl, Member.allFit_of_plain rfl rfl hx (List.forall_mem_singleton.mpr ht), trivial⟩
  · refine fun _ _ _ _ => forall_bodies_must (forall_bodies_nil ?_)
    rintro _ ⟨⟨x, _, rfl, hx⟩, -, -⟩ _ _
    exact Total.of_map (isSome_of_takes (t := visibilityWord) id (by decide) hx) fun k =>
      ⟨Member.allFit_of_plain rfl rfl trivial (List.forall_mem_nil _), trivial⟩

/-- Only without `self.` the second name stands where a member may start. -/
theorem keepsFit_aliasMember : Rule.KeepsFit .aliasMember := by
  have halias : ∀ {new old : String} {singleton : Bool}, IsMethodName new → IsMethodName old →
      (singleton = false → old ∉ memberWords) → Value.Fits (.member (.aliasMember
        { newName := new, oldName := old, singleton := singleton })) := fun hnew hold h =>
    Member.allFit_of_plain rfl rfl ⟨hnew, hold, h⟩ (List.forall_mem_nil _)
  refine fun _ _ _ _ => forall_bodies_must (forall_bodies_may
    (forall_bodies_must (forall_bodies_may
      (forall_bodies_must (forall_bodies_nil ?_)) (forall_bodies_must (forall_bodies_nil ?_))))
    (forall_bodies_must (forall_bodies_may
      (forall_bodies_must (forall_bodies_nil ?_)) (forall_bodies_must (forall_bodies_nil ?_)))))
  · rintro _ ⟨⟨_, _, rfl, _⟩, -, -⟩ _ _ _ ⟨⟨_, _, rfl, _⟩, -, -⟩ _ _ _ ⟨⟨new, rfl⟩, hnew, -⟩ _ _ _
      ⟨⟨_, _, rfl, _⟩, -, -⟩ _ _ _ ⟨⟨old, rfl⟩, hold, -⟩ _ _
    exact ⟨_, rfl, halias hnew hold nofun, trivial⟩
  · rintro _ ⟨⟨_, _, rfl, _⟩, -, -⟩ _ _ _ ⟨⟨_, _, rfl, _⟩, -, -⟩ _ _ _ ⟨⟨new, rfl⟩, hnew, -⟩ _ _ _
      ⟨⟨old, rfl⟩, hold, -⟩ _ _
    exact ⟨_, rfl, halias hnew hold nofun, trivial⟩
  · rintro _ ⟨⟨_, _, rfl, _⟩, -, -⟩ _ _ _ ⟨⟨new, rfl⟩, hnew, -⟩ _ _ _ ⟨⟨_, _, rfl, _⟩, -, -⟩ _ _ _
      ⟨⟨old, rfl⟩, hold, -⟩ _ _
    exact ⟨_, rfl, halias hnew hold nofun, trivial⟩
  · rintro _ ⟨⟨_, _, rfl, _⟩, -, -⟩ _ _ _ ⟨⟨new, rfl⟩, hnew, -⟩ _ hq _ ⟨⟨old, rfl⟩, hold, hres⟩ _ _
    have hnot := hres old rfl
    rw [reservedAt_behind hq (.inr rfl)] at hnot
    exact ⟨_, rfl, halias hnew hold fun _ => hnot, trivial⟩

/-! ## Notes -/

theorem annotation_fits {name : String} {k : Token} (hk : k.terminal = annotation)
    (h : k.terminal.Takes k.text.toList) : (k.annotation name).Fits := by
  rw [hk] at h
  obtain ⟨d, hd, body, hx, hbody⟩ := h
  refine ⟨d, hd, ?_⟩
  have hbodyOf : (k.annotation name).body.toList = body := by
    rw [Token.annotation, String.toList_ofList, hx]
    exact List.dropLast_concat
  rwa [hbodyOf]

theorem keepsFit_annotations : ∀ r ∈ [Rule.annotations, .annotationTokens, .annotationTokensMore],
    r.KeepsFit := by
  intro r hr
  simp only [List.mem_cons, List.not_mem_nil, or_false] at hr
  rcases hr with rfl | rfl | rfl
  · refine fun _ _ _ _ => forall_bodies_may (forall_bodies_nil ?_) (forall_bodies_nil ?_)
    · rintro _ ⟨⟨as, rfl⟩, has, -⟩ _ _
      exact ⟨_, rfl, has, trivial⟩
    · exact ⟨_, rfl, List.forall_mem_nil _, trivial⟩
  · refine fun _ _ _ _ => forall_bodies_must (forall_bodies_nil ?_)
    rintro _ ⟨⟨_, _, rfl, hx⟩, -, -⟩ _ _
    exact ⟨_, rfl, List.forall_mem_singleton.mpr (annotation_fits rfl hx), trivial⟩
  · refine fun _ _ _ _ => forall_bodies_must (forall_bodies_must (forall_bodies_nil ?_))
    rintro _ ⟨⟨as, rfl⟩, has, -⟩ _ _ _ ⟨⟨_, _, rfl, hx⟩, -, -⟩ _ _
    exact ⟨_, rfl, forall_mem_snoc has (annotation_fits rfl hx), trivial⟩

theorem keepsFit_noted : ∀ r ∈ [Rule.declaration, .member], r.KeepsFit := by
  intro r hr
  simp only [List.mem_cons, List.not_mem_nil, or_false] at hr
  rcases hr with rfl | rfl
  · refine fun _ _ _ _ => forall_bodies_must (forall_bodies_must (forall_bodies_nil ?_))
    rintro _ ⟨⟨as, rfl⟩, has, -⟩ _ _ _ ⟨⟨d, rfl⟩ | ⟨d, rfl⟩, hd, -⟩ _ _
    · exact ⟨_, rfl, Declaration.Throughout.withNotes hd fun h => h.withNotes
        (Notes.fits_notesFor has _ _), trivial⟩
    · exact ⟨_, rfl, Declaration.Throughout.withNotes hd fun h => h.withNotes
        (Notes.fits_notesFor has _ _), trivial⟩
  · refine fun _ _ _ _ => forall_bodies_must (forall_bodies_must (forall_bodies_nil ?_))
    rintro _ ⟨⟨as, rfl⟩, has, -⟩ _ _ _ ⟨⟨m, rfl⟩ | ⟨d, rfl⟩, hm, -⟩ _ _
    · exact ⟨_, rfl, Member.AllFit.withNotes hm (Notes.fits_notesFor has _ _), trivial⟩
    · refine ⟨_, rfl, Member.AllFit.withNotes (m := .nested d) ?_ (Notes.fits_notesFor has _ _), trivial⟩
      exact ⟨⟨trivial, List.forall_mem_nil _, Notes.fits_empty⟩, fun e he => Option.some.inj he ▸ hm⟩

/-! ## Declarations -/

theorem keepsFit_file : Rule.KeepsFit .file := fun _ _ _ _ =>
  forall_bodies_may (forall_bodies_nil fun _ ⟨⟨_, h⟩, hds, _⟩ _ _ => ⟨_, h ▸ rfl, hds, trivial⟩)
    (forall_bodies_nil ⟨_, rfl, List.forall_mem_nil _, trivial⟩)

theorem keepsFit_application : ∀ r ∈ [Rule.superclass, .classSelfType, .interfaceSelfType],
    r.KeepsFit := by
  intro r hr
  simp only [List.mem_cons, List.not_mem_nil, or_false] at hr
  rcases hr with rfl | rfl | rfl
  · refine fun _ _ _ _ => forall_bodies_must (forall_bodies_must fun body _ => ?_)
    rintro _ ⟨⟨_, _, rfl, _⟩, -, -⟩ _ _ _ ⟨⟨n, rfl⟩, -, hn⟩ _ _
    exact .of_forall fun vs _ hvs => ⟨_, rfl, ⟨hn n rfl, (partsFit hvs).types⟩, trivial⟩
  · refine fun _ _ _ _ => forall_bodies_must fun body _ => ?_
    rintro _ ⟨⟨n, rfl⟩, -, hn⟩ _ _
    exact .of_forall fun vs _ hvs => ⟨_, rfl, ⟨.inl (hn n rfl), (partsFit hvs).types⟩, trivial⟩
  · refine fun _ _ _ _ => forall_bodies_must fun body _ => ?_
    rintro _ ⟨⟨n, rfl⟩, -, hn⟩ _ _
    exact .of_forall fun vs _ hvs => ⟨_, rfl, ⟨.inr (hn n rfl), (partsFit hvs).types⟩, trivial⟩

theorem keepsFit_selfTypes : Rule.KeepsFit .selfTypes := by
  refine fun _ _ _ _ => forall_bodies_must (forall_bodies_must fun body _ => ?_)
  rintro _ ⟨⟨_, _, rfl, _⟩, -, -⟩ _ _ _ ⟨⟨a, rfl⟩, ha, -⟩ _ _
  exact .of_forall fun vs _ hvs =>
    ⟨_, rfl, List.forall_mem_cons.mpr ⟨ha, (partsFit hvs).selfTypes⟩, trivial⟩

/-- A declaration without notes. -/
theorem Declaration.allFit_of_plain {d : Declaration} (hn : d.notes = {}) (h : d.Fits)
    (ht : ∀ t ∈ d.types, t.AllFit) (hm : ∀ m ∈ d.members, m.AllFit) : d.AllFit :=
  Declaration.throughout_iff.mpr ⟨⟨h, ht, hn ▸ Notes.fits_empty⟩, hm⟩

theorem PartsFit.names {vs : List Value} (h : PartsFit vs) : ∀ p ∈ typeParamsIn vs, p.Fits :=
  fun p hp => (h.typeParams p hp).1

theorem PartsFit.bounds {vs : List Value} (h : PartsFit vs) :
    ∀ t ∈ (typeParamsIn vs).flatMap TypeParam.types, t.AllFit :=
  List.forall_mem_flatMap.mpr fun p hp => (h.typeParams p hp).2

theorem keepsFit_withMembers : ∀ r ∈ [Rule.classDeclaration, .moduleDeclaration,
    .interfaceDeclaration], r.KeepsFit := by
  intro r hr
  simp only [List.mem_cons, List.not_mem_nil, or_false] at hr
  rcases hr with rfl | rfl | rfl
  · refine fun _ _ _ _ => forall_bodies_must (forall_bodies_must fun body _ => ?_)
    rintro _ ⟨⟨_, _, rfl, _⟩, -, -⟩ _ _ _ ⟨⟨n, rfl⟩, -, hn⟩ _ _
    refine .of_forall fun vs _ hvs => ?_
    have hparts := partsFit hvs
    refine ⟨_, rfl, Declaration.allFit_of_plain rfl
      ⟨hn n rfl, hparts.names, fun a ha => (hparts.superclass a ha).1⟩ ?_ hparts.members, trivial⟩
    exact List.forall_mem_append.mpr ⟨hparts.bounds, List.forall_mem_flatMap.mpr
      fun a ha => (hparts.superclass a (Option.mem_toList.mp ha)).2⟩
  · refine fun _ _ _ _ => forall_bodies_must (forall_bodies_must fun body _ => ?_)
    rintro _ ⟨⟨_, _, rfl, _⟩, -, -⟩ _ _ _ ⟨⟨n, rfl⟩, -, hn⟩ _ _
    refine .of_forall fun vs _ hvs => ?_
    have hparts := partsFit hvs
    refine ⟨_, rfl, Declaration.allFit_of_plain rfl
      ⟨hn n rfl, hparts.names, fun a ha => (hparts.selfTypes a ha).1⟩ ?_ hparts.members, trivial⟩
    exact List.forall_mem_append.mpr ⟨hparts.bounds, List.forall_mem_flatMap.mpr
      fun a ha => (hparts.selfTypes a ha).2⟩
  · refine fun _ _ _ _ => forall_bodies_must (forall_bodies_must fun body _ => ?_)
    rintro _ ⟨⟨_, _, rfl, _⟩, -, -⟩ _ _ _ ⟨⟨n, rfl⟩, -, hn⟩ _ _
    refine .of_forall fun vs _ hvs => ?_
    have hparts := partsFit hvs
    exact ⟨_, rfl, Declaration.allFit_of_plain rfl ⟨hn n rfl, hparts.names⟩ hparts.bounds
      hparts.members, trivial⟩

theorem keepsFit_typed : ∀ r ∈ [Rule.constantDeclaration, .globalDeclaration], r.KeepsFit := by
  intro r hr
  simp only [List.mem_cons, List.not_mem_nil, or_false] at hr
  rcases hr with rfl | rfl
  · refine fun _ _ _ _ => forall_bodies_must (forall_bodies_must (forall_bodies_must
      (forall_bodies_nil ?_)))
    rintro _ ⟨⟨n, rfl⟩, -, hn⟩ _ _ _ ⟨⟨_, _, rfl, _⟩, -, -⟩ _ _ _ ⟨⟨t, rfl⟩, ht, -⟩ _ _
    exact ⟨_, rfl, Declaration.allFit_of_plain rfl (hn n rfl) (List.forall_mem_singleton.mpr ht)
      (List.forall_mem_nil _), trivial⟩
  · refine fun _ _ _ _ => forall_bodies_must (forall_bodies_must (forall_bodies_must
      (forall_bodies_nil ?_)))
    rintro _ ⟨⟨g, _, rfl, hg⟩, -, -⟩ _ _ _ ⟨⟨_, _, rfl, _⟩, -, -⟩ _ _ _ ⟨⟨t, rfl⟩, ht, -⟩ _ _
    exact ⟨_, rfl, Declaration.allFit_of_plain rfl hg (List.forall_mem_singleton.mpr ht)
      (List.forall_mem_nil _), trivial⟩

theorem isSome_typeIn? {xs : List Symbol} {vs : List Value} (h : List.Forall₂ Symbol.Means xs vs)
    (ht : .nonterminal .type ∈ xs) : (typeIn? vs).isSome = true := by
  induction h with
  | nil => cases ht
  | @cons x v xs vs hx _ ih =>
    have hcons : (typeIn? vs).isSome = true → (typeIn? (v :: vs)).isSome = true := by
      intro hs
      cases v with
      | type => rw [typeIn?, Option.isSome_or, hs, Bool.true_or]
      | _ => exact hs
    rcases List.mem_cons.mp ht with rfl | ht
    · obtain ⟨t, rfl⟩ := hx
      rw [typeIn?, Option.isSome_or, Option.isSome_some, Bool.or_true]
    · exact hcons (ih ht)

theorem keepsFit_aliasDeclaration : Rule.KeepsFit .aliasDeclaration := by
  have htype : ∀ body ∈ RulePart.bodies [.maybe .typeParameters, .token equals, .one .type],
      Symbol.nonterminal .type ∈ body := by decide
  refine fun _ _ _ _ => forall_bodies_must (forall_bodies_must fun body hbody => ?_)
  rintro _ ⟨⟨_, _, rfl, _⟩, -, -⟩ _ _ _ ⟨⟨n, rfl⟩, -, hn⟩ _ _
  refine .of_forall fun vs hmeans hvs => ?_
  have hparts := partsFit hvs
  obtain ⟨t, ht⟩ := Option.isSome_iff_exists.mp (isSome_typeIn? hmeans (htype body hbody))
  refine ⟨.nestable (.aliasDecl { name := n, type := t, typeParams := typeParamsIn vs }), ?_,
    Declaration.allFit_of_plain rfl ⟨(hn n rfl).1, hparts.names⟩ ?_ (List.forall_mem_nil _), trivial⟩
  · simp only [Rule.build, typeIn?, ht]
  · exact List.forall_mem_append.mpr ⟨hparts.bounds, List.forall_mem_singleton.mpr (hparts.type t ht)⟩

/-- **Every rule builds what fits from parts that do.** -/
theorem Rule.keepsFit (r : Rule) : r.KeepsFit := by
  cases r
  case file => exact keepsFit_file
  case selfTypes => exact keepsFit_selfTypes
  case aliasDeclaration => exact keepsFit_aliasDeclaration
  case methodMember => exact keepsFit_methodMember
  case attributeMember => exact keepsFit_attributeMember
  case aliasMember => exact keepsFit_aliasMember
  case className => exact keepsFit_className
  case interfacePath => exact keepsFit_interfacePath
  case aliasName => exact keepsFit_aliasName
  all_goals first
    | exact keepsFit_head _ (by decide)
    | exact keepsFit_first _ (by decide)
    | exact keepsFit_next _ (by decide)
    | exact keepsFit_one _ (by decide)
    | exact keepsFit_more _ (by decide)
    | exact keepsFit_noted _ (by decide)
    | exact keepsFit_annotations _ (by decide)
    | exact keepsFit_application _ (by decide)
    | exact keepsFit_withMembers _ (by decide)
    | exact keepsFit_typed _ (by decide)
    | exact keepsFit_kinds _ (by decide)
    | exact keepsFit_methodName _ (by decide)
    | exact keepsFit_overloads _ (by decide)
    | exact keepsFit_returns _ (by decide)
    | exact keepsFit_mixin _ (by decide)
    | exact keepsFit_variable _ (by decide)
    | exact keepsFit_groups _ (by decide)
    | exact keepsFit_positional _ (by decide)
    | exact keepsFit_keywords _ (by decide)
    | exact keepsFit_blocks _ (by decide)
    | exact keepsFit_typeParameters _ (by decide)
    | exact keepsFit_enclosed _ (by decide)
    | exact keepsFit_operands _ (by decide)
    | exact keepsFit_applied _ (by decide)
    | exact keepsFit_literal _ (by decide)
    | exact keepsFit_record _ (by decide)

/-! ## Stacks -/

/-- A node with a value that is told what its symbol tells. -/
def Fitted (q : Nat) (x : Symbol) (n : Node) : Prop := Told q x n.value

theorem Along.totalFrom {M : Value → Prop} {q : Nat} {xs : List Symbol} {ns : List Node}
    {f : List Value → Option Value} (h : Along Fitted q xs ns) (hf : TotalFrom M f q xs) :
    ∃ v, f (ns.map (·.value)) = some v ∧ M v := by
  induction xs generalizing q ns f with
  | nil =>
    match ns, h with
    | [], _ => exact hf
  | cons x xs ih =>
    match ns, h with
    | n :: ns, ⟨hn, q', hq, h⟩ => exact ih (f := fun vs => f (n.value :: vs)) h (hf n.value hn q' hq)

theorem kept_fitted (name : String) : Kept name Fitted where
  token h := by
    refine ⟨⟨_, _, rfl, h.takes⟩, h.takes, fun ht k hk => ?_⟩
    obtain rfl := Value.token.inj hk
    exact h.not_reserved ht
  production := by
    intro i q p ns n hp halong hq hn
    have hmeant := meant_of_along name hp (halong.imp fun _ _ _ h => h.means) hn
    obtain ⟨r, -, hr⟩ := List.mem_flatMap.mp (List.mem_of_getElem? hp)
    obtain ⟨body, hbody, rfl⟩ := List.mem_map.mp hr
    obtain ⟨v, hv, hfits, htells⟩ := halong.totalFrom (r.keepsFit name (hull ns) q hq body hbody)
    obtain rfl : n = ⟨v, hull ns⟩ := Option.some.inj (hn.symm.trans (buildNode_eq hp hv))
    exact ⟨hmeant, hfits, htells⟩

theorem Notes.attach_fits {name : String} {blocks : List CommentBlock} {n : Notes} (h : n.Fits) :
    (n.attach name blocks).Fits := by
  rw [Notes.attach]
  split
  · exact h
  · next l hl => exact ⟨h.annotations, fun hnone => by cases hl.symm.trans hnone⟩

/-- **What is read fits.** -/
theorem parse_fits {text source : String} {ds : List Declaration} (h : parse text source = .ok ds) :
    ∀ d ∈ ds, d.AllFit := by
  obtain ⟨st, raw, sp, -, hraw, rfl⟩ := (kept_fitted source).parsed h
  refine List.forall_mem_map.mpr fun d hd => ?_
  exact Declaration.Throughout.mapNotes (hraw.fits d hd) _ (fun _ h => h.mapNotes fun _ => Notes.attach_fits)
    fun _ h => h.mapNotes fun _ => Notes.attach_fits

end RbsSynth.Signature

