import RbsSynth.Proofs.Reading.Types

/-!
# The forms of types

Each form of a type is read if the types in it are.
-/

namespace RbsSynth.Signature

open Terminal Text

variable {name : String} {rest : List Char} {t : TypeExpr} {ts : List TypeExpr} {n : TypeName}

/-! ## Names -/

/-- A text that a star may stand before. -/
def Starts (x : List Char) : Prop := ∃ d y, x = d :: y ∧ d ≠ '*'

theorem Starts.append {x : List Char} (h : Starts x) (y : List Char) : Starts (x ++ y) := by
  obtain ⟨d, z, rfl, hd⟩ := h
  exact ⟨d, z ++ y, rfl, hd⟩

theorem Starts.of_nameChars {x : List Char} (hne : x ≠ []) (hx : ∀ a ∈ x, isNameChar a = true) :
    Starts x := by
  obtain ⟨d, y, rfl⟩ := List.exists_cons_of_ne_nil hne
  refine ⟨d, y, rfl, ?_⟩
  rintro rfl
  exact absurd (hx '*' List.mem_cons_self) (by decide)

theorem starts_pathPart (hpath : ∀ s ∈ n.path, IsUpperName s.toList) (hne : n.pathPart ≠ []) :
    Starts n.pathPart := by
  rw [TypeName.pathPart] at hne ⊢
  cases ha : n.absolute with
  | true => exact ⟨':', _, rfl, by decide⟩
  | false =>
    cases hp : n.path with
    | nil => rw [ha, hp] at hne; exact absurd rfl hne
    | cons s path =>
      obtain ⟨d, y, he, hd, _⟩ := hpath s (hp ▸ List.mem_cons_self)
      refine ⟨d, _, by rw [List.map_cons, he]; rfl, ?_⟩
      rintro rfl
      exact absurd hd (by decide)

theorem TypeName.starts (hpath : ∀ s ∈ n.path, IsUpperName s.toList) (hname : Starts n.name.toList) :
    Starts n.render.toList := by
  rw [render_toList]
  by_cases hne : n.pathPart = []
  · rw [hne]
    exact hname
  · exact (starts_pathPart hpath hne).append _

theorem TypeName.IsClass.starts (h : n.IsClass) : Starts n.render.toList :=
  TypeName.starts h.1 (.of_nameChars h.2.segment.1 h.2.nameChars)

theorem TypeName.IsInterface.starts (h : n.IsInterface) : Starts n.render.toList := by
  obtain ⟨y, he, _⟩ := h.2
  exact TypeName.starts h.1 ⟨'_', y, he, by decide⟩

theorem TypeName.IsAlias.starts (h : n.IsAlias) : Starts n.render.toList :=
  TypeName.starts h.1 (.of_nameChars h.2.segment.1 h.2.nameChars)

theorem isRead_classInstance (hn : n.IsClass) (hts : ∀ t ∈ ts, t.IsRead name) :
    (TypeExpr.classInstance n ts).IsRead name where
  starts := by
    rw [TypeExpr.render, String.toList_append]
    exact hn.starts.append _
  reads := by
    intro rest hrest
    have hbody := readsAll_classApplied hn (List.subset_append_left typeOpens _) hts hrest.follows
    rw [TypeExpr.render, TypeExpr.reading_eq fun _ h => by cases h]
    refine .rule .classInstance (by decide) hbody (mem_bodies_applied _ ts) ?_
    cases ts <;> exact fun _ => rfl

theorem isRead_interfaceInstance (hn : n.IsInterface) (hts : ∀ t ∈ ts, t.IsRead name) :
    (TypeExpr.interfaceInstance n ts).IsRead name where
  starts := by
    rw [TypeExpr.render, String.toList_append]
    exact hn.starts.append _
  reads := by
    intro rest hrest
    have hbody := readsAll_interfaceApplied hn (List.subset_append_left typeOpens _) hts hrest.follows
    rw [TypeExpr.render, TypeExpr.reading_eq fun _ h => by cases h]
    refine .rule .interfaceInstance (by decide) hbody (mem_bodies_applied _ ts) ?_
    cases ts <;> exact fun _ => rfl

theorem pathPart_eq_nil (h : n.pathPart = []) : n.path = [] ∧ n.absolute = false := by
  rw [TypeName.pathPart, List.append_eq_nil_iff] at h
  constructor
  · cases hp : n.path with
    | nil => rfl
    | cons s path =>
      rw [hp] at h
      exact absurd (List.append_eq_nil_iff.mp (List.append_eq_nil_iff.mp h.2).1).2 (by decide)
  · cases ha : n.absolute with
    | true => rw [ha] at h; exact absurd h.1 (by decide)
    | false => rfl

theorem isRead_aliasUse (hn : n.IsAlias)
    (hfree : n.path = [] → n.absolute = false → n.name ∉ typeWords)
    (hts : ∀ t ∈ ts, t.IsRead name) : (TypeExpr.aliasUse n ts).IsRead name where
  starts := by
    rw [TypeExpr.render, String.toList_append]
    exact hn.starts.append _
  reads := by
    intro rest hrest
    have hfree' : n.pathPart = [] → ∀ c ∈ typeOpens, c ∈ typeOpens → n.name ∉ typeWords :=
      fun h _ _ _ => hfree (pathPart_eq_nil h).1 (pathPart_eq_nil h).2
    have hbody := readsAll_applied
      (fun _ hr => reads_aliasName hn (by decide : typeOpens ⊆ aliasOpens) hfree' hr) (by decide)
      (by decide) hts hrest.follows
    rw [TypeExpr.render, TypeExpr.reading_eq fun _ h => by cases h]
    refine .rule .aliasUse (by decide) hbody (mem_bodies_applied _ ts) ?_
    cases ts <;> exact fun _ => rfl

theorem noLabel_of {d : Char} (hd : d ≠ ':' ∧ d ≠ '?' ∧ d ≠ '!') (ds : List Char) :
    NoLabel (d :: ds) := by
  intro c cs he
  obtain ⟨rfl, rfl⟩ := List.cons.inj he
  exact ⟨hd.1, fun h => absurd h (not_or.mpr hd.2)⟩

theorem isRead_classSingleton (hn : n.IsClass) : (TypeExpr.classSingleton n).IsRead name where
  starts := by
    rw [TypeExpr.render, String.toList_append, String.toList_append]
    exact ⟨'s', _, rfl, by decide⟩
  reads := by
    intro rest _
    have htext : (TypeExpr.classSingleton n).render.toList
        = "singleton".toList ++ (['('] ++ (n.render.toList ++ [')'])) := by
      rw [TypeExpr.render, String.toList_append, String.toList_append, List.append_assoc]
      rfl
    have hword : Reads name typeOpens "singleton".toList
        ('(' :: (n.render.toList ++ [')'] ++ rest)) (.terminal singletonWord) false
        (.token singletonWord "singleton".toList) [.behind singletonWord] :=
      .keyword (by decide) (by decide) (noLabel_of (by decide) _)
    have hclose : ReadsAll name [.behind upperName] [')'] rest [.terminal rightParen] false
        [.token rightParen [')']] typeEnds := .one (.sign (by decide))
    have hname : ReadsAll name typeOpens (n.render.toList ++ [')']) rest
        [.nonterminal .className, .terminal rightParen] false
        [.value (.name n), .token rightParen [')']] typeEnds :=
      .cons (reads_className hn (List.subset_append_left _ _)
        (Stops.cons (d := ')') (by decide) rest).follows) hclose
    have hinner : ReadsAll name [.behind singletonWord] (['('] ++ (n.render.toList ++ [')'])) rest
        [.terminal leftParen, .nonterminal .className, .terminal rightParen] false
        [.token leftParen ['('], .value (.name n), .token rightParen [')']] typeEnds :=
      .sign typeOpens (by decide) hname
    have hbody := ReadsAll.cons hword hinner
    rw [htext]
    exact .rule .classSingleton (by decide) hbody (by decide) fun _ _ _ _ => rfl

/-! ## Words and literals -/

theorem BaseType.ofWord?_word (w : BaseType) : BaseType.ofWord? w.word = some w := by
  cases w <;> decide

theorem keywordAlone_base (w : BaseType) : ('?' :: stops).all (fun d =>
    keywordAlone typeOpens baseType w.word.toList d typeEnds) = true := by
  cases w <;> decide

theorem TypeExpr.Before.cases {t : TypeExpr} (h : t.Before rest) :
    ∃ d ds, rest = d :: ds ∧ d ∈ '?' :: stops := by
  rcases h with ⟨d, ds, rfl, hd⟩ | ⟨_, r, rfl, _⟩
  · exact ⟨d, ds, rfl, List.mem_cons_of_mem _ hd⟩
  · exact ⟨'?', r, rfl, List.mem_cons_self⟩

theorem isRead_base (w : BaseType) : (TypeExpr.base w).IsRead name where
  starts := by
    rw [TypeExpr.render_base]
    cases w <;> exact ⟨_, _, rfl, by decide⟩
  reads := by
    intro rest hrest
    have hl := hrest.follows.noLabel
    obtain ⟨d, ds, rfl, hd⟩ := hrest.cases
    have hbody : ReadsAll name typeOpens w.word.toList (d :: ds) [.terminal baseType] false
        [.token baseType w.word.toList] typeEnds :=
      .one (.keyword (List.all_eq_true.mp (keywordAlone_base w) d hd) (by decide) hl)
    rw [TypeExpr.render_base]
    refine .rule .base (by decide) hbody (by decide) fun _ s => ?_
    show (BaseType.ofWord? (.ofList w.word.toList)).map _ = _
    rw [String.ofList_toList, BaseType.ofWord?_word]
    rfl

/-- A literal is one token. -/
theorem reads_literal {s : String} {r : Rule} {k : Terminal}
    (hr : r = .stringLiteral ∧ k = string ∨ r = .symbolLiteral ∧ k = symbol ∨
      r = .integerLiteral ∧ k = integer)
    (h : ∀ c ∈ typeOpens, Clear c k s.toList rest) :
    Reads name typeOpens s.toList rest (.nonterminal .simple) false
      (.value (.type (.literal s))) typeEnds := by
  have hbody : ReadsAll name typeOpens s.toList rest [.terminal k] false [.token k s.toList] typeEnds := by
    refine .one (.token h ?_)
    rcases hr with ⟨_, rfl⟩ | ⟨_, rfl⟩ | ⟨_, rfl⟩ <;> decide
  have hofList : some (Value.type (.literal (.ofList s.toList))) = some (.type (.literal s)) := by
    rw [String.ofList_toList]
  rcases hr with ⟨rfl, rfl⟩ | ⟨rfl, rfl⟩ | ⟨rfl, rfl⟩
  · exact .rule .stringLiteral (by decide) hbody (by decide) fun _ _ => hofList
  · exact .rule .symbolLiteral (by decide) hbody (by decide) fun _ _ => hofList
  · exact .rule .integerLiteral (by decide) hbody (by decide) fun _ _ => hofList

theorem isRead_string {s : String} (hs : IsString s.toList) : (TypeExpr.literal s).IsRead name where
  starts := by
    rw [TypeExpr.render]
    obtain ⟨q, y, hq, he, _⟩ := hs
    refine ⟨q, y, he, ?_⟩
    rcases hq with rfl | rfl <;> decide
  reads := by
    intro rest _
    have halone : ∀ c ∈ typeOpens, ['"', '\''].all (alone c string · []) = true := by decide
    rw [TypeExpr.render]
    exact reads_literal (.inl ⟨rfl, rfl⟩) fun c hc => clear_string (halone c hc) hs rest

theorem isRead_symbol {s : String} (hs : IsBareSymbol s.toList ∨ IsClosedSymbol s.toList) :
    (TypeExpr.literal s).IsRead name where
  starts := by
    rw [TypeExpr.render]
    rcases hs with ⟨y, he, _⟩ | ⟨y, a, he, _⟩ | ⟨y, he, _⟩ <;> exact ⟨':', _, he, by decide⟩
  reads := by
    intro rest hrest
    have halone : ∀ c ∈ typeOpens, alone c symbol ':' [namespacePath] = true := by decide
    have hclear : (IsBareSymbol s.toList ∧ Boundary rest ∧ NoSuffix rest) ∨ IsClosedSymbol s.toList := by
      rcases hs with hs | hs
      · refine .inl ⟨hs, hrest.follows.boundary, ?_⟩
        rcases hrest with ⟨d, ds, rfl, hd⟩ | ⟨hmark, _⟩
        · intro c cs he
          rw [← (List.cons.inj he).1]
          exact (by decide : ∀ d ∈ stops, isSuffix d = false) d hd
        · exact absurd hs hmark
      · exact .inr hs
    rw [TypeExpr.render]
    exact reads_literal (.inr (.inl ⟨rfl, rfl⟩)) fun c hc => clear_symbol (halone c hc) hclear

theorem isRead_integer {s : String} (hs : IsInteger s.toList) :
    (TypeExpr.literal s).IsRead name where
  starts := by
    rw [TypeExpr.render]
    rcases hs with ⟨d, y, he, hd, _⟩ | ⟨y, he, _⟩
    · refine ⟨d, y, he, ?_⟩
      rintro rfl
      exact absurd hd (by decide)
    · exact ⟨'-', y, he, by decide⟩
  reads := by
    intro rest hrest
    have halone : ∀ c ∈ typeOpens, ('-' :: lettersFrom 48 10).all (alone c integer · []) = true := by
      decide
    rw [TypeExpr.render]
    exact reads_literal (.inr (.inr ⟨rfl, rfl⟩)) fun c hc =>
      clear_integer (halone c hc) hs hrest.follows.boundary

end RbsSynth.Signature
