import RbsSynth.Proofs.Reading.Blocks

/-!
# Symbols that have taken a question mark

An optional of a plain symbol has the text of a longer symbol.  `t.fused` has the longer symbol wherever
the two have one text: everywhere but in parentheses, before a further question mark.

    t fits throughout  →  t.fused.render = t.render                                        (fused_alike)
    no type in t is a marked symbol  →  t.fused = t                                  (fused_of_unmarked)
-/

namespace RbsSynth.Signature

open Text

/-! ## Texts with other types in the same places -/

/-- Whether a type has the text of another one, and stands in parentheses where that does, but before a
question mark. -/
structure TypeExpr.Alike (t u : TypeExpr) : Prop where
  render : t.render = u.render
  inUnion : t.looseInUnion = u.looseInUnion
  inIntersection : t.looseInIntersection = u.looseInIntersection
  inReturn : t.looseInReturn = u.looseInReturn

section

variable {g : TypeExpr → TypeExpr} {ts : List TypeExpr} {f : FunctionType}

theorem renderList_map (h : ∀ t ∈ ts, (g t).render = t.render) :
    TypeExpr.renderList (ts.map g) = TypeExpr.renderList ts := by
  rw [renderList_eq, renderList_eq, List.map_map]
  exact List.map_congr_left h

theorem renderOperands_map {loose : TypeExpr → Bool}
    (h : ∀ t ∈ ts, (g t).render = t.render ∧ loose (g t) = loose t) :
    TypeExpr.renderOperands loose (ts.map g) = TypeExpr.renderOperands loose ts := by
  rw [renderOperands_eq, renderOperands_eq, List.map_map]
  refine List.map_congr_left fun t ht => ?_
  obtain ⟨hrender, hloose⟩ := h t ht
  rw [Function.comp_apply, operand, operand, hrender, hloose]

theorem renderList_fields_map {fs : List RecordField} (h : ∀ f ∈ fs, (g f.type).render = f.type.render) :
    RecordField.renderList (fs.map (RecordField.mapType g)) = RecordField.renderList fs := by
  rw [renderList_fields, renderList_fields, List.map_map]
  refine List.map_congr_left fun f hf => ?_
  have ht := h f hf
  obtain ⟨key, t, required⟩ := f
  rw [Function.comp_apply, RecordField.mapType, RecordField.render, RecordField.render, ht]

theorem renderBinding_map {s : Option TypeExpr} (h : ∀ t ∈ s, (g t).render = t.render) :
    TypeExpr.renderBinding (s.map g) = TypeExpr.renderBinding s := by
  cases s with
  | none => rfl
  | some t => rw [Option.map_some, TypeExpr.renderBinding, TypeExpr.renderBinding, h t rfl]

theorem renderParams_mapTypes (h : ∀ t ∈ f.types, (g t).Alike t) :
    (f.mapTypes g).renderParams = f.renderParams := by
  have hparam : ∀ p ∈ f.params, (p.mapType g).render = p.render := by
    rintro ⟨t, name⟩ hp
    have ht : (g t).render = t.render := (h t (List.mem_append_left _ (List.mem_map_of_mem hp))).render
    cases name with
    | none => exact ht
    | some s => rw [Param.mapType, Param.render, Param.render, ht]
  rw [renderParams_eq, renderParams_eq, FunctionType.written_mapTypes, List.map_map]
  refine congrArg (join ", ") (List.map_congr_left fun w hw => ?_)
  show String.ofList (w.kind.sign ++ (w.param.mapType g).render.toList) = _
  rw [hparam _ (f.written_params ▸ List.mem_map_of_mem hw)]
  rfl

theorem renderReturn_mapTypes (h : ∀ t ∈ f.types, (g t).Alike t) :
    (f.mapTypes g).renderReturn = f.renderReturn := by
  have hresult := h _ (List.mem_append_right _ List.mem_cons_self)
  rw [renderReturn_eq, renderReturn_eq, operand, operand]
  show (if (g f.returnType).looseInReturn then inParens (g f.returnType).render
    else (g f.returnType).render) = _
  rw [hresult.render, hresult.inReturn]

theorem renderBehind_map {b : Option Block} (h : ∀ c ∈ b, ∀ t ∈ c.types, (g t).Alike t) :
    Block.renderBehind (b.map (Block.mapTypes g)) = Block.renderBehind b := by
  cases b with
  | none => rfl
  | some c =>
    obtain ⟨hf, hs⟩ := List.forall_mem_append.mp (h c rfl)
    obtain ⟨f, required, s⟩ := c
    rw [Option.map_some, Block.mapTypes, Block.renderBehind, Block.renderBehind, Block.render, Block.render,
      renderParams_mapTypes hf, renderReturn_mapTypes hf,
      renderBinding_map fun t ht => (hs t (Option.mem_toList.mpr ht)).render]

theorem render_mapParts {t : TypeExpr} (hopt : ∀ u, t ≠ .optional u) (h : ∀ u ∈ t.parts, (g u).Alike u) :
    (t.mapParts g).render = t.render := by
  cases t with
  | optional u => exact absurd rfl (hopt u)
  | classSingleton | base | literal => rfl
  | classInstance n ts | interfaceInstance n ts | aliasUse n ts =>
    have hlist : TypeExpr.renderList (ts.map g) = _ := renderList_map fun t ht => (h t ht).render
    rw [TypeExpr.mapParts, TypeExpr.render, TypeExpr.render, hlist]
  | union ts =>
    have hlist : TypeExpr.renderOperands TypeExpr.looseInUnion (ts.map g) = _ :=
      renderOperands_map fun t ht => ⟨(h t ht).render, (h t ht).inUnion⟩
    rw [TypeExpr.mapParts, TypeExpr.render, TypeExpr.render, hlist]
  | intersection ts =>
    have hlist : TypeExpr.renderOperands TypeExpr.looseInIntersection (ts.map g) = _ :=
      renderOperands_map fun t ht => ⟨(h t ht).render, (h t ht).inIntersection⟩
    rw [TypeExpr.mapParts, TypeExpr.render, TypeExpr.render, hlist]
  | tuple ts =>
    cases ts with
    | nil => rfl
    | cons t ts =>
      have hlist : TypeExpr.renderList ((t :: ts).map g) = _ := renderList_map fun u hu => (h u hu).render
      rw [TypeExpr.mapParts, TypeExpr.render, TypeExpr.render, hlist] <;> exact List.cons_ne_nil _ _
  | record fs =>
    rw [TypeExpr.mapParts, TypeExpr.render, TypeExpr.render,
      renderList_fields_map fun f hf => (h _ (List.mem_map_of_mem hf)).render]
  | proc f b s =>
    obtain ⟨hfb, hs⟩ := List.forall_mem_append.mp h
    obtain ⟨hf, hb⟩ := List.forall_mem_append.mp hfb
    rw [TypeExpr.mapParts, TypeExpr.render, TypeExpr.render, renderParams_mapTypes hf,
      renderReturn_mapTypes hf, renderBinding_map fun t ht => (hs t (Option.mem_toList.mpr ht)).render,
      renderBehind_map fun c hc => List.forall_mem_flatMap.mp hb c (Option.mem_toList.mpr hc)]

/-- A type other than an optional is like one whose parts are like its own. -/
theorem mapParts_alike {t : TypeExpr} (hopt : ∀ u, t ≠ .optional u) (h : ∀ u ∈ t.parts, (g u).Alike u) :
    (t.mapParts g).Alike t := by
  refine ⟨render_mapParts hopt h, ?_, ?_, ?_⟩ <;> cases t <;> rfl

end

/-! ## Symbols in place of their optionals -/

def TypeExpr.isMarkedSymbol : TypeExpr → Bool
  | .optional (.literal s) => isBareSymbol s.toList
  | _ => false

theorem isMarkedSymbol_iff {t : TypeExpr} : t.isMarkedSymbol = true ↔ t.IsMarkedSymbol := by
  cases t with
  | optional u =>
    cases u with
    | literal s => exact isBareSymbol_iff
    | _ => exact ⟨fun h => (by cases h), False.elim⟩
  | _ => exact ⟨fun h => (by cases h), False.elim⟩

instance : DecidablePred TypeExpr.IsMarkedSymbol := fun _ => decidable_of_iff _ isMarkedSymbol_iff

/-- A type with longer symbols in place of its marked symbols, but for those right inside an optional. -/
def TypeExpr.fused (t : TypeExpr) : TypeExpr :=
  t.recode fun u v => if u.IsMarkedSymbol then .optional u else v.marked

/-- The same right inside an optional. -/
def TypeExpr.fusedInside (t : TypeExpr) : TypeExpr := if t.IsMarkedSymbol then t else t.fused

namespace TypeExpr

variable {t : TypeExpr}

theorem fused_eq (h : ∀ u, t ≠ .optional u) : t.fused = t.mapParts fused := recode_eq _ h

theorem fused_optional (t : TypeExpr) :
    (TypeExpr.optional t).fused = if t.IsMarkedSymbol then .optional t else t.fused.marked := by
  rw [fused, recode]
  rfl

theorem fused_marked {s : String} (h : IsBareSymbol s.toList) :
    (TypeExpr.optional (.literal s)).fused = .literal (s ++ "?") := if_pos h

/-- An optional stays one, unless it is a marked symbol. -/
theorem fused_unmarked (h : ¬ (TypeExpr.optional t).IsMarkedSymbol) :
    (TypeExpr.optional t).fused = .optional t.fusedInside := by
  rw [fused_optional, fusedInside]
  split
  · rfl
  · refine marked_eq ?_
    cases t with
    | literal s => exact h
    | optional u =>
      rw [fused_optional]
      split
      · exact id
      · rcases u.fused.marked_cases with he | ⟨s, -, -, he⟩ <;> rw [he]
        · exact id
        · exact not_isBareSymbol_mark s
    | _ => exact id

theorem looseBeforeOptional_fusedInside (t : TypeExpr) :
    t.fusedInside.looseBeforeOptional = t.looseBeforeOptional := by
  rw [fusedInside]
  split
  · rfl
  · next h =>
    cases t with
    | optional u =>
      rw [fused_unmarked h]
      rfl
    | _ => rfl

/-- What a type is: a marked symbol, another optional or no optional. -/
theorem optional_cases (t : TypeExpr) :
    (∃ s, t = .optional (.literal s) ∧ IsBareSymbol s.toList) ∨
      (∃ u, t = .optional u ∧ ¬ t.IsMarkedSymbol) ∨ ∀ u, t ≠ .optional u := by
  by_cases hmark : t.IsMarkedSymbol
  · cases t with
    | optional u =>
      cases u with
      | literal s => exact .inl ⟨s, rfl, hmark⟩
      | _ => cases hmark
    | _ => cases hmark
  · by_cases hopt : ∃ u, t = .optional u
    · obtain ⟨u, rfl⟩ := hopt
      exact .inr (.inl ⟨u, rfl, hmark⟩)
    · exact .inr (.inr fun u hu => hopt ⟨u, hu⟩)

/-- **The text is the same.** -/
theorem fused_alike (h : t.All Fits) : t.fused.Alike t := by
  induction h with
  | @mk t _ _ ih =>
    rcases t.optional_cases with ⟨s, rfl, hs⟩ | ⟨u, rfl, hmark⟩ | hopt
    · rw [fused_marked hs]
      refine ⟨?_, rfl, rfl, rfl⟩
      rw [render, render, render]
      exact congrArg (· ++ "?") (if_neg Bool.false_ne_true).symm
    · have hinner : u.fusedInside.render = u.render := by
        rw [fusedInside]
        split
        · rfl
        · exact (ih u List.mem_cons_self).render
      rw [fused_unmarked hmark]
      refine ⟨?_, rfl, rfl, rfl⟩
      rw [render, render, hinner, looseBeforeOptional_fusedInside]
    · rw [fused_eq hopt]
      exact mapParts_alike hopt ih

/-- **A type without marked symbols is left as it is.** -/
theorem fused_of_unmarked (h : t.All fun u => ¬ u.IsMarkedSymbol) : t.fused = t := by
  induction h with
  | @mk t h hparts ih =>
    rcases t.optional_cases with ⟨s, rfl, hs⟩ | ⟨u, rfl, hmark⟩ | hopt
    · exact absurd hs h
    · have hu : ¬ u.IsMarkedSymbol := by
        cases hparts u List.mem_cons_self
        assumption
      rw [fused_unmarked hmark, fusedInside, if_neg hu, ih u List.mem_cons_self]
    · rw [fused_eq hopt, mapParts_eq_self ih]

end TypeExpr

end RbsSynth.Signature
