import RbsSynth.Proofs.Reading.Declared
import RbsSynth.Proofs.Reading.Methods
import RbsSynth.Signature.Writer

/-!
# Members are read

A member, but for its notes, is read from what is written behind its indentation, up to the end of its last
line; further overloads of a method stand on lines of their own.

    o.IsRead for each overload o  →  a method is read from its text                      (reads_method)
-/

namespace RbsSynth.Signature

open Terminal Text Value

variable {name : String} {cs ds : List Context} {rest : List Char}

/-- The contexts behind the last token of a line. -/
def lineEnds : List Context :=
  [visibilityWord, dots, endWord, annotation].map .behind ++ (typeEnds ++ nameEnds)

theorem typeEnds_subset : typeEnds ⊆ lineEnds := by decide

theorem nameEnds_subset : nameEnds ⊆ lineEnds := by decide

/-- A line end, perhaps with blanks at the start of the next line. -/
def IsBreak (y : List Char) : Prop := ∃ z, y = '\n' :: z ∧ ∀ a ∈ z, isBlankChar a = true

theorem IsBreak.blank {y : List Char} (h : IsBreak y) : ∀ a ∈ y, isBlankChar a = true := by
  obtain ⟨z, rfl, hz⟩ := h
  exact List.forall_mem_cons.mpr ⟨rfl, hz⟩

theorem IsBreak.stops {y : List Char} (h : IsBreak y) (r : List Char) : Stops (y ++ r) := by
  obtain ⟨z, rfl, -⟩ := h
  exact .cons (by decide) _

/-! ## Parts of members -/

/-- A colon before a blank. -/
theorem reads_colon (cs : List Context)
    (h : cs.all (fun c => alone c colon ':' [namespacePath] &&
      decide (c.next colon = .behind colon)) = true) :
    Reads name cs [':'] (' ' :: rest) (.terminal colon) false (.token colon [':']) [.behind colon] := by
  refine .token (fun c hc => ?_) (List.all_eq_true.mpr fun c hc => ?_)
  · exact clear_colon (Bool.and_eq_true_iff.mp (List.all_eq_true.mp h c hc)).1
      fun _ he => absurd (List.cons.inj he).1 (by decide)
  · rw [of_decide_eq_true (Bool.and_eq_true_iff.mp (List.all_eq_true.mp h c hc)).2]
    rfl

/-- A colon and a type. -/
theorem readsAll_typed {t : TypeExpr} (cs : List Context)
    (h : cs.all (fun c => alone c colon ':' [namespacePath] &&
      decide (c.next colon = .behind colon)) = true) (ht : t.IsRead name) (hrest : Stops rest) :
    ReadsAll name cs ([':'] ++ ' ' :: t.render.toList) rest [.terminal colon, .nonterminal .type] false
      [.token colon [':'], .value (.type t.reading)] typeEnds :=
  .cons (reads_colon cs h)
    (((ReadsAll.one (ht.asType hrest)).weaken (by decide : [.behind colon] ⊆ typeOpens)
      fun _ h => h).space)

/-- A word and a blank before the next part. -/
theorem readsAll_worded {t : Terminal} {x y : List Char} {xs : List Symbol} {parts : List Part}
    (cs' : List Context) (h : keywordAlone cs t x ' ' cs' = true) (ht : t ≠ label)
    (hs : ReadsAll name cs' y rest xs false parts ds) :
    ReadsAll name cs (x ++ ' ' :: y) rest (.terminal t :: xs) false (.token t x :: parts) ds :=
  .cons (.keyword h ht (noLabel_of (by decide) _)) hs.space

/-- What stands before the name of a method, if anything does. -/
theorem reads_selfDot (hcs : cs ⊆ [.behind defWord, .behind aliasWord] ++ nameEnds) :
    Reads name cs "self.".toList rest (.terminal selfDot) false (.token selfDot "self.".toList)
      [.behind selfDot] := by
  have halone : ∀ c ∈ [Context.behind defWord, .behind aliasWord] ++ nameEnds,
      alone c selfDot 's' [suffixedName, selfOptionalDot] = true ∧ c.next selfDot = .behind selfDot := by
    decide
  refine .token (fun c hc => ?_) (List.all_eq_true.mpr fun c hc => ?_)
  · refine clear_sign_of (s := "self.") rfl rfl rfl (halone c (hcs hc)).1 fun r hr => ?_
    simp only [List.mem_cons, List.not_mem_nil, or_false] at hr
    rcases hr with rfl | rfl
    · refine ⟨?_, by decide⟩
      have hname : IsName isNameStart "self".toList := ⟨'s', "elf".toList, rfl, by decide, by decide⟩
      exact suffixedAt?_none hname (.cons (by decide) rest : Boundary ('.' :: rest)) fun c cs he => by
        rw [← (List.cons.inj he).1]
        decide
    · exact ⟨rfl, by decide⟩
  · rw [(halone c (hcs hc)).2]
    rfl

/-! ## Methods -/

def kindRead (k : MethodKind) : List Symbol × List Part :=
  match k with
  | .ofInstance => ([], [])
  | .ofSingleton => ([.nonterminal .methodKind], [.value (.methodKind .ofSingleton)])
  | .ofBoth => ([.nonterminal .methodKind], [.value (.methodKind .ofBoth)])

theorem readsAll_kind (k : MethodKind) :
    ReadsAll name [.behind defWord] (Writer.kindPrefix k).toList rest (kindRead k).1 false (kindRead k).2
      [.behind defWord, .behind selfDot, .behind selfOptionalDot] := by
  cases k with
  | ofInstance => exact ReadsAll.nil.weaken (fun _ h => h) (by decide)
  | ofSingleton =>
    exact (ReadsAll.one (.rule .singletonKind (by decide) (.one (reads_selfDot (by decide))) (by decide)
      fun _ _ => rfl)).weaken (fun _ h => h) (by decide)
  | ofBoth =>
    have hsign : signAlone [.behind defWord] selfOptionalDot "self?.".toList [.behind selfOptionalDot]
        = true := by decide
    exact (ReadsAll.one (.rule .moduleFunctionKind (by decide) (.one (.sign hsign)) (by decide)
      fun _ _ => rfl)).weaken (fun _ h => h) (by decide)

/-- The overloads of a method, one below the other; dots come last. -/
def overloadsText (gap : List Char) (m : MethodDefinition) : List Char :=
  match m.overloads with
  | [] => "...".toList
  | o :: os => o.render.toList ++ (behindEach (gap ++ ['|', ' ']) (·.render.toList) os
    ++ if m.overloading then gap ++ "| ...".toList else [])

theorem reads_methodTypes {m : MethodDefinition} {gap : List Char} (hgap : IsBreak gap)
    (hm : ∀ o ∈ m.overloads, o.IsRead name) (hany : m.overloads ≠ [] ∨ m.overloading = true)
    (hrest : Stops rest) :
    Reads name [.behind colon] (overloadsText gap m) rest (.nonterminal .methodTypes) false
      (.value (.overloads (m.overloads.map (MethodType.mapTypes TypeExpr.reading)) m.overloading))
      (.behind dots :: typeEnds) := by
  obtain ⟨_, _, overloads, overloading, _⟩ := m
  cases overloads with
  | nil =>
    obtain rfl : overloading = true := hany.resolve_left fun h => h rfl
    have hdots : signAlone [.behind colon] dots "...".toList [.behind dots] = true := by decide
    exact Reads.weaken (.rule .onlyDots (by decide) (.one (.sign hdots)) (by decide) fun _ _ => rfl)
      (fun _ h => h) (by decide)
  | cons o os =>
    obtain ⟨ho, hos⟩ := List.forall_mem_cons.mp hm
    -- the dots, if there are any
    have htail : ReadsAll name typeEnds (if overloading then gap ++ "| ...".toList else []) rest
        (if overloading then [.terminal bar, .terminal dots] else []) false
        (if overloading then [.token bar ['|'], .token dots "...".toList] else [])
        (.behind dots :: typeEnds) := by
      cases overloading with
      | false => exact ReadsAll.nil.weaken (fun _ h => h) (List.subset_cons_self _ _)
      | true =>
        refine .blanks hgap.blank (.sign (x := ['|']) [.behind bar] (by decide) (.space (.one ?_)))
        exact Reads.weaken (.sign (by decide : signAlone [.behind bar] dots "...".toList [.behind dots]
          = true)) (fun _ h => h) (by decide)
    have hstops : Stops ((if overloading then gap ++ "| ...".toList else []) ++ rest) := by
      cases overloading with
      | false => exact hrest
      | true =>
        rw [if_pos rfl, List.append_assoc]
        exact hgap.stops _
    have hitem : ∀ p ∈ os, ∀ r, Stops r →
        ReadsAll name typeEnds (gap ++ ['|', ' '] ++ p.render.toList) r
          [.terminal bar, .nonterminal .methodType] false
          [.token bar ['|'], .value (.methodType (p.mapTypes TypeExpr.reading))] typeEnds := by
      intro p hp r hr
      rw [List.append_assoc]
      exact .blanks hgap.blank (.sign (x := ['|']) [.behind bar] (by decide) (.space (.one
        ((reads_methodType (hos p hp) hr).weaken (by decide) fun _ h => h))))
    have hmore : ReadsAll name typeEnds (behindEach (gap ++ ['|', ' ']) (·.render.toList) os)
        ((if overloading then gap ++ "| ...".toList else []) ++ rest) (symbolsOf .moreMethodTypes os)
        false (partsOf .methodTypes (os.map (MethodType.mapTypes TypeExpr.reading))) typeEnds :=
      readsAll_more (MethodType.mapTypes TypeExpr.reading) .moreMethodTypes .moreMethodTypesMore rfl rfl
        (by decide)
        (fun y => by rw [List.append_assoc]; exact hgap.stops _) hitem hstops (fun _ _ _ => rfl)
        fun _ _ _ _ => rfl
    have hfirst : Reads name [.behind colon] o.render.toList
        (behindEach (gap ++ ['|', ' ']) (·.render.toList) os
          ++ (if overloading then gap ++ "| ...".toList else []) ++ rest) (.nonterminal .methodType) false
        (.value (.methodType (o.mapTypes TypeExpr.reading))) typeEnds := by
      refine (reads_methodType ho ?_).weaken (by decide) fun _ h => h
      cases os with
      | nil => exact hstops
      | cons p os =>
        rw [behindEach_cons, List.append_assoc, List.append_assoc, List.append_assoc, List.append_assoc]
        exact hgap.stops _
    refine .rule .methodTypes (by decide) (.cons hfirst (hmore.append htail)) ?_ ?_
    · refine mem_bodies_must (mem_bodies_maybe os ?_)
      cases overloading with
      | false => exact mem_bodies_without mem_bodies_nil
      | true => exact mem_bodies_with mem_bodies_nil
    · intro sp
      cases os <;> cases overloading <;> first | exact rfl | exact fun _ _ => rfl

structure MethodDefinition.IsRead (name : String) (m : MethodDefinition) : Prop where
  named : IsMethodName m.name
  typed : m.overloads ≠ [] ∨ m.overloading = true
  types : ∀ o ∈ m.overloads, o.IsRead name

/-- The text of a method behind its indentation. -/
def methodText (gap : List Char) (m : MethodDefinition) : List Char :=
  "def".toList ++ ' ' :: ((Writer.kindPrefix m.kind).toList ++ (m.name.toList ++ ([':'] ++
    ' ' :: overloadsText gap m)))

theorem reads_method {m : MethodDefinition} {gap : List Char} (hgap : IsBreak gap)
    (hm : m.IsRead name) (hrest : Stops rest) :
    Reads name lineEnds (methodText gap m) rest (.nonterminal .methodMember) false
      (.value (.member (((Member.method m).mapTypes TypeExpr.reading).withNotes {}))) lineEnds := by
  have hoverloads := ReadsAll.one ((reads_methodTypes hgap hm.types hm.typed hrest).weaken
    (fun _ h => h) (by decide : _ ⊆ lineEnds))
  have hcolon := ReadsAll.cons (reads_colon nameEnds (by decide)) hoverloads.space
  have hname : Reads name [.behind defWord, .behind selfDot, .behind selfOptionalDot] m.name.toList
      (':' :: (' ' :: overloadsText gap m ++ rest)) (.nonterminal .methodName) false
      (.value (.methodName m.name)) nameEnds := by
    refine reads_methodName hm.named (by decide) (by decide) (fun c hc => ?_) fun _ z he => ?_
    · rw [(by decide : ∀ c ∈ [Context.behind defWord, .behind selfDot, .behind selfOptionalDot],
        c.reserved = []) c hc]
      exact List.not_mem_nil
    · exact absurd (List.cons.inj he).1 (by decide)
  have hbody := readsAll_worded [.behind defWord] (by decide : keywordAlone lineEnds defWord "def".toList
    ' ' [.behind defWord] = true) (by decide) ((readsAll_kind m.kind).append (.cons hname hcolon))
  refine .rule .methodMember (by decide) hbody ?_ fun sp => ?_
  · refine mem_bodies_must ?_
    cases m.kind <;>
      first
      | exact mem_bodies_without (mem_bodies_must (mem_bodies_must (mem_bodies_must mem_bodies_nil)))
      | exact mem_bodies_with (mem_bodies_must (mem_bodies_must (mem_bodies_must mem_bodies_nil)))
  · obtain ⟨_, kind, _, _, _⟩ := m
    cases kind <;> exact fun _ _ => rfl

/-! ## Attributes, mixins and variables -/

/-- A `self.` that may be left out. -/
def selfSymbols (singleton : Bool) : List Symbol := if singleton then [.terminal selfDot] else []

def selfParts (singleton : Bool) : List Part :=
  if singleton then [.token selfDot "self.".toList] else []

theorem readsAll_self (singleton : Bool) (hsub : cs ⊆ ds)
    (h : Reads name cs "self.".toList rest (.terminal selfDot) false (.token selfDot "self.".toList) ds) :
    ReadsAll name cs (Writer.selfPrefix singleton).toList rest (selfSymbols singleton) false
      (selfParts singleton) ds := by
  cases singleton with
  | false => exact ReadsAll.nil.weaken (fun _ h => h) hsub
  | true => exact .one h

theorem mem_bodies_self {xs : List Symbol} {ps : List RulePart} (singleton : Bool)
    (h : xs ∈ RulePart.bodies ps) : selfSymbols singleton ++ xs ∈ RulePart.bodies (.maybeToken selfDot :: ps) := by
  cases singleton with
  | false => exact mem_bodies_without h
  | true => exact mem_bodies_with h

theorem reads_attribute {m : AttributeMember} (hkey : IsKey m.name.toList) (ht : m.type.IsRead name)
    (hrest : Stops rest) :
    Reads name lineEnds ((Writer.attributeWord m.kind).toList ++ ' ' :: ((Writer.selfPrefix m.singleton).toList
      ++ (m.name.toList ++ [':'] ++ ' ' :: m.type.render.toList))) rest (.nonterminal .attributeMember) false
      (.value (.member (((Member.attribute m).mapTypes TypeExpr.reading).withNotes {}))) lineEnds := by
  obtain ⟨kind, key, type, singleton, _⟩ := m
  have hlabels : ∀ c ∈ [Context.ofAttribute, .behind attributeWord],
      ('_' :: lettersFrom 97 26).all (alone c label · [selfDot, selfOptionalDot]) = true ∧
        c.next label = .behind label := by
    decide
  have hlabel : Reads name [.ofAttribute, .behind attributeWord] (key.toList ++ [':'])
      (' ' :: type.render.toList ++ rest) (.terminal label) false (.token label (key.toList ++ [':']))
      [.behind label] := by
    refine .token (fun c hc => clear_label hkey (hlabels c hc).1 fun _ he => ?_)
      (List.all_eq_true.mpr fun c hc => ?_)
    · exact absurd (List.cons.inj he).1 (by decide)
    · rw [(hlabels c hc).2]
      rfl
  have htype := ((ReadsAll.one (ht.asType hrest)).weaken (by decide : [.behind label] ⊆ typeOpens)
    typeEnds_subset).space
  have hself : Reads name [.behind attributeWord] "self.".toList
      (key.toList ++ [':'] ++ ' ' :: type.render.toList ++ rest) (.terminal selfDot) false
      (.token selfDot "self.".toList) [.ofAttribute, .behind attributeWord] :=
    (Reads.sign (by decide : signAlone [.behind attributeWord] selfDot "self.".toList [.ofAttribute] = true)).weaken
      (fun _ h => h) (by decide)
  have hword : keywordAlone lineEnds attributeWord (Writer.attributeWord kind).toList ' '
      [.behind attributeWord] = true := by cases kind <;> decide
  have hbody := readsAll_worded [.behind attributeWord] hword (by decide)
    ((readsAll_self singleton (by decide) hself).append (.cons hlabel htype))
  refine .rule .attributeMember (by decide) hbody ?_ fun sp => ?_
  · exact mem_bodies_must (mem_bodies_self singleton (mem_bodies_must (mem_bodies_must mem_bodies_nil)))
  · have hbuilt : ∀ b, (attributeKind? (.ofList (Writer.attributeWord kind).toList)).map (fun k =>
        Value.member (.attribute
          { kind := k, name := dropLast (.ofList (key.toList ++ [':'])), type := type.reading, singleton := b }))
        = some (.member (.attribute { kind := kind, name := key, type := type.reading, singleton := b })) := by
      intro b
      rw [dropLast_key, String.ofList_toList]
      cases kind <;> rfl
    cases singleton
    · exact fun _ _ => hbuilt false
    · exact fun _ _ _ => hbuilt true

theorem reads_mixin {m : MixinMember} (hn : m.name.IsModule) (hargs : ∀ t ∈ m.args, t.IsRead name)
    (hrest : Stops rest) :
    Reads name lineEnds ((Writer.mixinWord m.kind).toList
      ++ ' ' :: (Writer.applicationText ⟨m.name, m.args⟩).toList) rest (.nonterminal .mixinMember) false
      (.value (.member (((Member.mixin m).mapTypes TypeExpr.reading).withNotes {}))) lineEnds := by
  obtain ⟨kind, n, args, _⟩ := m
  have hword : keywordAlone lineEnds mixinWord (Writer.mixinWord kind).toList ' ' [.behind mixinWord]
      = true := by cases kind <;> decide
  have hkind : mixinKind? (.ofList (Writer.mixinWord kind).toList) = some kind := by
    rw [String.ofList_toList]
    cases kind <;> rfl
  have hbuilt : (mixinKind? (.ofList (Writer.mixinWord kind).toList)).map (fun k =>
      Value.member (.mixin { kind := k, name := n, args := args.map TypeExpr.reading }))
      = some (.member (.mixin { kind := kind, name := n, args := args.map TypeExpr.reading })) := by
    rw [hkind]
    rfl
  rcases hn with hn | hn
  · have happlied := readsAll_classApplied hn (by decide : [.behind mixinWord] ⊆ classOpens) hargs
      hrest.follows
    have hbody := (readsAll_worded [.behind mixinWord] hword (by decide) happlied).weaken
      (fun _ h => h) typeEnds_subset
    refine .rule .classMixin (by decide) hbody (mem_bodies_must (mem_bodies_applied _ args)) fun sp => ?_
    cases args <;> exact fun _ => hbuilt
  · have happlied := readsAll_interfaceApplied hn (by decide : [.behind mixinWord] ⊆ interfaceOpens) hargs
      hrest.follows
    have hbody := (readsAll_worded [.behind mixinWord] hword (by decide) happlied).weaken
      (fun _ h => h) typeEnds_subset
    refine .rule .interfaceMixin (by decide) hbody (mem_bodies_must (mem_bodies_applied _ args))
      fun sp => ?_
    cases args <;> exact fun _ => hbuilt

theorem reads_variable {m : VariableMember} (hn : IsSigned '@' m.name) (ht : m.type.IsRead name)
    (hrest : Stops rest) :
    Reads name lineEnds (m.name.toList ++ ([':'] ++ ' ' :: m.type.render.toList)) rest
      (.nonterminal .variableMember) false
      (.value (.member (((Member.variable m).mapTypes TypeExpr.reading).withNotes {})))
      lineEnds := by
  obtain ⟨x, type, _⟩ := m
  obtain ⟨y, hx, hy⟩ := hn
  have halone : ∀ c ∈ lineEnds, alone c instanceVariable '@' [] = true ∧
      c.next instanceVariable = .behind instanceVariable := by decide
  have hname : Reads name lineEnds x.toList ([':'] ++ ' ' :: type.render.toList ++ rest)
      (.terminal instanceVariable) false (.token instanceVariable x.toList) [.behind instanceVariable] := by
    refine .token (fun c hc => ?_) (List.all_eq_true.mpr fun c hc => ?_)
    · rw [hx]
      exact clear_instanceVariable (halone c hc).1 hy (.cons (by decide) _)
    · rw [(halone c hc).2]
      rfl
  have htype := (readsAll_typed [.behind instanceVariable] (by decide) ht hrest).weaken
    (fun _ h => h) typeEnds_subset
  refine .rule .variableMember (by decide) (.cons hname htype) (by decide) fun sp _ _ => ?_
  show some (Value.member (.variable { name := .ofList x.toList, type := type.reading })) = _
  rw [String.ofList_toList]
  rfl

/-! ## Aliases and visibilities -/

theorem reads_aliasMember {m : AliasMember} (hnew : IsMethodName m.newName)
    (hold : IsMethodName m.oldName) (hfree : m.singleton = false → m.oldName ∉ memberWords)
    {y : List Char} :
    Reads name lineEnds ("alias".toList ++ ' ' :: ((Writer.selfPrefix m.singleton).toList ++ (m.newName.toList
      ++ ' ' :: ((Writer.selfPrefix m.singleton).toList ++ m.oldName.toList)))) ('\n' :: y)
      (.nonterminal .aliasMember) false (.value (.member (.aliasMember { m with notes := {} })))
      lineEnds := by
  obtain ⟨new, old, singleton, _⟩ := m
  -- what is reserved behind the first name is not behind `self.`
  have hends : ∃ ends, ends ⊆ nameOpens ∧ (∀ c ∈ ends, old ∉ c.reserved) ∧
      ReadsAll name nameEnds (Writer.selfPrefix singleton).toList (old.toList ++ '\n' :: y)
        (selfSymbols singleton) false (selfParts singleton) ends := by
    cases singleton with
    | false =>
      refine ⟨nameEnds, by decide, fun c hc => ?_, .nil⟩
      rw [(by decide : ∀ c ∈ nameEnds, c.reserved = memberWords) c hc]
      exact hfree rfl
    | true =>
      refine ⟨[.behind selfDot], by decide, fun c hc => ?_, .one (reads_selfDot (by decide))⟩
      rw [(by decide : ∀ c ∈ [Context.behind selfDot], c.reserved = []) c hc]
      exact List.not_mem_nil
  obtain ⟨ends, hopens, hreserved, hself⟩ := hends
  have hsecond : Reads name ends old.toList ('\n' :: y) (.nonterminal .methodName) false
      (.value (.methodName old)) nameEnds :=
    reads_methodName hold hopens (by decide) hreserved fun he => absurd he (by decide)
  have hnewOpens : ∀ c ∈ [Context.behind aliasWord, .behind selfDot], c.reserved = [] := by decide
  have hfirst : Reads name [.behind aliasWord, .behind selfDot] new.toList
      (' ' :: ((Writer.selfPrefix singleton).toList ++ old.toList) ++ '\n' :: y) (.nonterminal .methodName)
      false (.value (.methodName new)) nameEnds := by
    refine reads_methodName hnew (by decide) (by decide) (fun c hc => ?_) fun he => absurd he (by decide)
    rw [hnewOpens c hc]
    exact List.not_mem_nil
  have htail := (hself.append (.one hsecond)).weaken (fun _ h => h) nameEnds_subset
  have hbefore : ReadsAll name [.behind aliasWord] (Writer.selfPrefix singleton).toList
      (new.toList ++ ' ' :: ((Writer.selfPrefix singleton).toList ++ old.toList) ++ '\n' :: y)
      (selfSymbols singleton) false (selfParts singleton) [.behind aliasWord, .behind selfDot] :=
    readsAll_self singleton (by decide) ((reads_selfDot (by decide)).weaken (fun _ h => h) (by decide))
  have hbody := readsAll_worded [.behind aliasWord] (by decide : keywordAlone lineEnds aliasWord
    "alias".toList ' ' [.behind aliasWord] = true) (by decide) (hbefore.append (.cons hfirst htail.space))
  refine .rule .aliasMember (by decide) hbody ?_ fun sp => ?_
  · have hlast := mem_bodies_self singleton (mem_bodies_must (s := .nonterminal .methodName) mem_bodies_nil)
    exact mem_bodies_must (mem_bodies_self singleton (mem_bodies_must hlast))
  · cases singleton
    · exact fun _ => rfl
    · exact fun _ _ _ => rfl

theorem reads_visibility (v : Visibility) (y : List Char) :
    Reads name lineEnds (Writer.visibilityWord v).toList ('\n' :: y) (.nonterminal .visibilityMember)
      false (.value (.member (.visibility { visibility := v }))) lineEnds := by
  have hword : keywordAlone lineEnds visibilityWord (Writer.visibilityWord v).toList '\n'
      [.behind visibilityWord] = true := by cases v <;> decide
  have hread : Reads name lineEnds (Writer.visibilityWord v).toList ('\n' :: y) (.terminal visibilityWord)
      false (.token visibilityWord (Writer.visibilityWord v).toList) lineEnds :=
    (Reads.keyword hword (by decide) (noLabel_of (by decide) y)).weaken (fun _ h => h) (by decide)
  refine .rule .visibilityMember (by decide) (.one hread) (by decide) fun sp _ => ?_
  show (visibility? (.ofList (Writer.visibilityWord v).toList)).map _ = _
  rw [String.ofList_toList]
  cases v <;> rfl

/-! ## Aliases of types, constants and globals -/

/-- The contexts in which a declaration may start. -/
def declarationOpens : List Context := .start :: lineEnds

theorem reads_aliasDeclaration {d : AliasDecl} (hn : d.name.IsAlias)
    (hps : ∀ p ∈ d.typeParams, p.IsRead name) (ht : d.type.IsRead name) (hrest : Stops rest) :
    Reads name declarationOpens ("type".toList ++ ' ' :: (d.name.render.toList
      ++ ((renderTypeParams d.typeParams).toList ++ ' ' :: (['='] ++ ' ' :: d.type.render.toList)))) rest
      (.nonterminal .aliasDeclaration) false
      (.value (.nestable (((Nestable.aliasDecl d).mapTypes TypeExpr.reading).withNotes {})))
      lineEnds := by
  obtain ⟨n, type, params, _⟩ := d
  have htype := ((ReadsAll.one (ht.asType hrest)).weaken (by decide : [.behind equals] ⊆ typeOpens)
    typeEnds_subset).space
  have hequals := (ReadsAll.sign [.behind equals] (by decide : signAlone [.behind rightBracket,
    .behind lowerName] equals ['='] [.behind equals] = true) htype).space
  have hfollows : Follows ((renderTypeParams params).toList ++ ' ' :: (['='] ++ ' ' :: type.render.toList)
      ++ rest) := by
    cases params with
    | nil => exact (Stops.cons (by decide) _).follows
    | cons p ps =>
      rw [renderTypeParams_cons]
      exact ⟨'[', _, rfl, List.mem_cons_self, fun h => absurd h (by decide)⟩
  have hname : Reads name [.behind typeWord] n.render.toList ((renderTypeParams params).toList
      ++ ' ' :: (['='] ++ ' ' :: type.render.toList) ++ rest) (.nonterminal .aliasName) false
      (.value (.name n)) [.behind lowerName] :=
    reads_aliasName hn (by decide) (fun _ c hc hopen => absurd hopen
      ((by decide : ∀ c ∈ [Context.behind typeWord], c ∉ typeOpens) c hc)) hfollows
  have hparams : ReadsAll name [.behind lowerName] (renderTypeParams params).toList
      (' ' :: (['='] ++ ' ' :: type.render.toList) ++ rest) _ false _ _ :=
    readsAll_typeParams hps (by decide)
  have hbody := readsAll_worded [.behind typeWord] (by decide : keywordAlone declarationOpens typeWord
    "type".toList ' ' [.behind typeWord] = true) (by decide) (.cons hname (hparams.append hequals))
  refine .rule .aliasDeclaration (by decide) hbody ?_ fun sp => ?_
  · exact mem_bodies_must (mem_bodies_must (mem_bodies_maybe params
      (mem_bodies_must (mem_bodies_must mem_bodies_nil))))
  · cases params <;> exact fun _ _ => rfl

theorem reads_constant {d : ConstantDecl} (hn : d.name.IsClass) (ht : d.type.IsRead name)
    (hrest : Stops rest) :
    Reads name declarationOpens (d.name.render.toList ++ ([':'] ++ ' ' :: d.type.render.toList)) rest
      (.nonterminal .constantDeclaration) false
      (.value (.nestable (((Nestable.constantDecl d).mapTypes TypeExpr.reading).withNotes {}))) lineEnds := by
  obtain ⟨n, type, _⟩ := d
  have hname : Reads name declarationOpens n.render.toList ([':'] ++ ' ' :: type.render.toList ++ rest)
      (.nonterminal .className) false (.value (.name n)) [.behind upperName] := by
    refine reads_className_of hn (.cons (by decide) _) (fun cs he => ?_) fun _ _ _ d ds he => ?_
    · exact absurd (List.cons.inj (List.cons.inj he).2).1 (by decide)
    · rw [← (List.cons.inj he).1]
      decide
  have htype := (readsAll_typed [.behind upperName] (by decide) ht hrest).weaken
    (fun _ h => h) typeEnds_subset
  exact .rule .constantDeclaration (by decide) (.cons hname htype) (by decide) fun sp _ => rfl

theorem reads_global {d : GlobalDecl} (hn : IsSigned '$' d.name) (ht : d.type.IsRead name)
    (hrest : Stops rest) :
    Reads name declarationOpens (d.name.toList ++ ([':'] ++ ' ' :: d.type.render.toList)) rest
      (.nonterminal .globalDeclaration) false
      (.value (.declaration (((Declaration.globalDecl d).mapTypes TypeExpr.reading).withNotes {})))
      lineEnds := by
  obtain ⟨x, type, _⟩ := d
  obtain ⟨y, hx, hy⟩ := hn
  have halone : ∀ c ∈ declarationOpens, alone c globalName '$' [] = true ∧
      c.next globalName = .behind globalName := by decide
  have hname : Reads name declarationOpens x.toList ([':'] ++ ' ' :: type.render.toList ++ rest)
      (.terminal globalName) false (.token globalName x.toList) [.behind globalName] := by
    refine .token (fun c hc => ?_) (List.all_eq_true.mpr fun c hc => ?_)
    · rw [hx]
      exact clear_globalName (halone c hc).1 hy (.cons (by decide) _)
    · rw [(halone c hc).2]
      rfl
  have htype := (readsAll_typed [.behind globalName] (by decide) ht hrest).weaken
    (fun _ h => h) typeEnds_subset
  refine .rule .globalDeclaration (by decide) (.cons hname htype) (by decide) fun sp _ _ => ?_
  show some (Value.declaration (.globalDecl { name := .ofList x.toList, type := type.reading })) = _
  rw [String.ofList_toList]
  rfl

end RbsSynth.Signature
