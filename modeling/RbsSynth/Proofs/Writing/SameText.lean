import RbsSynth.Proofs.Reading.Fused
import RbsSynth.Proofs.Writing.RoundTrip

/-!
# Types with the same text

Types with the same text have the same reading.  The reading leaves open which parentheses stand before
the question marks, but these are in the text too, so the text of a type goes on where the text of another
one with the same reading ends:

    t.reading = u.reading,  t.render ++ x = u.render ++ y  →  t.fused = u.fused,  x = y
                                                                               (TypeExpr.All.cancels)
    t and u were read  →  (t.render = u.render  ↔  t.fused = u.fused)                  (render_eq_iff)
-/

namespace RbsSynth.Signature

open Text

/-! ## Texts that end at the same place -/

/-- Whether a text that starts with `a` starts with another `b` of the same shape only if the same is
kept of both, and goes on behind them alike. -/
def Cancels {α β γ : Type} (shape : α → β) (kept : α → γ) (text : α → String) (a : α) : Prop :=
  ∀ b x y, shape a = shape b → text a ++ x = text b ++ y → kept a = kept b ∧ x = y

section

variable {α β γ : Type} {shape : α → β} {kept : α → γ} {text : α → String}

theorem Cancels.after {a : α} (h : Cancels shape kept text a) (before : String) :
    Cancels shape kept (fun a => before ++ text a) a := by
  intro b x y hshape htext
  simp only [String.append_assoc, String.append_right_inj] at htext
  exact h b x y hshape htext

theorem Cancels.enclosed {a : α} (h : Cancels shape kept text a) (before behind : String) :
    Cancels shape kept (fun a => before ++ text a ++ behind) a := by
  intro b x y hshape htext
  simp only [String.append_assoc, String.append_right_inj] at htext
  obtain ⟨hkept, htext⟩ := h b _ _ hshape htext
  exact ⟨hkept, (String.append_right_inj _).mp htext⟩

theorem Cancels.join {as : List α} (h : ∀ a ∈ as, Cancels shape kept text a) (sep : String) :
    Cancels (List.map shape) (List.map kept) (fun as => Text.join sep (as.map text)) as := by
  induction as with
  | nil =>
    intro bs x y hshape htext
    obtain rfl := List.map_eq_nil_iff.mp hshape.symm
    exact ⟨rfl, (String.append_right_inj _).mp htext⟩
  | cons a as ih =>
    obtain ⟨ha, has⟩ := List.forall_mem_cons.mp h
    intro bs x y hshape htext
    obtain ⟨b, bs, rfl, hb, hbs⟩ := List.map_eq_cons_iff.mp hshape.symm
    cases as with
    | nil =>
      obtain rfl := List.map_eq_nil_iff.mp hbs
      obtain ⟨hkept, rfl⟩ := ha b x y hb.symm htext
      exact ⟨congrArg ([·]) hkept, rfl⟩
    | cons a' as =>
      obtain ⟨b', bs, rfl, -, -⟩ := List.map_eq_cons_iff.mp hbs
      simp only [List.map_cons, Text.join, String.append_assoc] at htext
      obtain ⟨hkept, htext⟩ := ha b _ _ hb.symm htext
      obtain ⟨hmore, rfl⟩ := ih has _ x y hbs.symm ((String.append_right_inj _).mp htext)
      exact ⟨congrArg₂ List.cons hkept hmore, rfl⟩

/-- Where nothing or one item stands. -/
theorem Cancels.option {whole : Option α → String} {o : Option α} (before behind : String)
    (hsome : ∀ a, whole (some a) = before ++ text a ++ behind)
    (h : ∀ a ∈ o, Cancels shape kept text a) :
    Cancels (Option.map shape) (Option.map kept) whole o := by
  intro p x y hshape htext
  cases o with
  | none =>
    obtain rfl := Option.map_eq_none_iff.mp hshape.symm
    exact ⟨rfl, (String.append_right_inj _).mp htext⟩
  | some a =>
    obtain ⟨b, rfl, hb⟩ := Option.map_eq_some_iff.mp hshape.symm
    rw [hsome, hsome] at htext
    obtain ⟨hkept, hrest⟩ := (h a rfl).enclosed before behind b x y hb.symm htext
    exact ⟨congrArg some hkept, hrest⟩

end

/-! ## Symbols with a mark -/

namespace TypeExpr

variable {t : TypeExpr} {s : String}

/-- What is read as a literal. -/
theorem cases_of_reading_literal (h : t.reading = .literal s) :
    t = .literal s ∨ ∃ r, t = .optional (.literal r) ∧ IsBareSymbol r.toList ∧ s = r ++ "?" := by
  rcases t.optional_cases with ⟨r, rfl, hr⟩ | ⟨u, rfl, hmark⟩ | hopt
  · refine .inr ⟨r, rfl, hr, ?_⟩
    rw [reading_marked hr] at h
    exact (literal.inj h).symm
  · rw [reading_unmarked hmark] at h
    cases h
  · rw [reading_eq hopt] at h
    cases t with
    | literal => exact .inl h
    | _ => cases h

theorem of_reading_literal (h : t.reading = .literal s) : t.fused = .literal s ∧ t.render = s := by
  rcases cases_of_reading_literal h with rfl | ⟨r, rfl, hr, rfl⟩
  · exact ⟨rfl, rfl⟩
  · refine ⟨fused_marked hr, ?_⟩
    rw [render, render]
    exact congrArg (· ++ "?") (if_neg Bool.false_ne_true)

/-- Anything else is read as itself, with the readings of its parts. -/
theorem reading_eq_mapParts (h : ∀ s, t.reading ≠ .literal s) :
    t.reading = t.mapParts reading ∧ ¬ t.IsMarkedSymbol := by
  rcases t.optional_cases with ⟨r, rfl, hr⟩ | ⟨u, rfl, hmark⟩ | hopt
  · exact absurd (reading_marked hr) (h _)
  · exact ⟨reading_unmarked hmark, hmark⟩
  · refine ⟨reading_eq hopt, fun hmark => ?_⟩
    cases t with
    | optional u => exact hopt u rfl
    | _ => exact hmark

/-- A form of types that shows in their readings. -/
theorem form_reading {form : TypeExpr → Bool} (hparts : ∀ t, form (t.mapParts reading) = form t)
    (hoptional : ∀ t, form (.optional t) = false) (hliteral : ∀ s, form (.literal s) = false)
    (t : TypeExpr) : form t.reading = form t := by
  rcases t.optional_cases with ⟨r, rfl, hr⟩ | ⟨u, rfl, hmark⟩ | hopt
  · rw [reading_marked hr, hoptional, hliteral]
  · rw [reading_unmarked hmark, hoptional, hoptional]
  · rw [reading_eq hopt, hparts]

theorem looseInUnion_reading (t : TypeExpr) : t.reading.looseInUnion = t.looseInUnion :=
  form_reading (fun t => by cases t <;> rfl) (fun _ => rfl) (fun _ => rfl) t

theorem looseInIntersection_reading (t : TypeExpr) :
    t.reading.looseInIntersection = t.looseInIntersection :=
  form_reading (fun t => by cases t <;> rfl) (fun _ => rfl) (fun _ => rfl) t

theorem looseInReturn_reading (t : TypeExpr) : t.reading.looseInReturn = t.looseInReturn :=
  form_reading (fun t => by cases t <;> rfl) (fun _ => rfl) (fun _ => rfl) t

/-! ## Types -/

/-- Whether the text of a type ends where that of another one with the same reading does. -/
def Cancels (t : TypeExpr) : Prop := Signature.Cancels reading fused render t

theorem Cancels.operand {loose : TypeExpr → Bool} (hloose : ∀ t, loose t.reading = loose t)
    (h : t.Cancels) : Signature.Cancels reading fused (Signature.operand loose) t := by
  intro u x y hread htext
  have hboth : loose t = loose u := by rw [← hloose t, hread, hloose u]
  rw [Signature.operand, Signature.operand, hboth] at htext
  split at htext
  · exact h.enclosed "(" ")" u x y hread htext
  · exact h u x y hread htext

/-- The text of a type before a question mark. -/
def beforeOptional (t : TypeExpr) : String := if t.looseBeforeOptional then inParens t.render else t.render

/-- A symbol with a mark is no symbol in parentheses. -/
theorem beforeOptional_mark_ne {r : String} (hr : IsBareSymbol r.toList) (x y : String) :
    (literal (r ++ "?")).beforeOptional ++ x ≠ (optional (literal r)).beforeOptional ++ y := by
  intro h
  obtain ⟨z, hz, -⟩ := hr
  have hleft : (r ++ "?" ++ x).toList.head? = some ':' := by
    rw [String.toList_append, String.toList_append, hz]
    rfl
  have hright : ("(" ++ (optional (literal r)).render ++ ")" ++ y).toList.head? = some '(' := by
    rw [String.toList_append, String.toList_append, String.toList_append]
    rfl
  have hsame : r ++ "?" ++ x = "(" ++ (optional (literal r)).render ++ ")" ++ y := h
  rw [hsame, hright] at hleft
  cases hleft

theorem Cancels.fusedInside (h : t.Cancels) :
    Signature.Cancels reading TypeExpr.fusedInside beforeOptional t := by
  intro u x y hread htext
  by_cases hlit : ∃ s, t.reading = .literal s
  -- here one of them could be a symbol and the other an optional of one, but for the parenthesis
  · obtain ⟨s, hs⟩ := hlit
    suffices htu : t = u by
      subst htu
      exact ⟨rfl, (String.append_right_inj _).mp htext⟩
    rcases cases_of_reading_literal hs with rfl | ⟨r, rfl, hr, rfl⟩ <;>
      rcases cases_of_reading_literal (hread ▸ hs) with rfl | ⟨q, rfl, hq, hmark⟩
    · rfl
    · subst hmark
      exact absurd htext (beforeOptional_mark_ne hq x y)
    · exact absurd htext.symm (beforeOptional_mark_ne hr y x)
    · rw [(String.append_left_inj _).mp hmark]
  · obtain ⟨ht, htmark⟩ := reading_eq_mapParts fun s hs => hlit ⟨s, hs⟩
    obtain ⟨hu, humark⟩ := reading_eq_mapParts (t := u) fun s hs => hlit ⟨s, hread.trans hs⟩
    have hkeep : ∀ t : TypeExpr, (t.mapParts reading).looseBeforeOptional = t.looseBeforeOptional :=
      fun t => by cases t <;> rfl
    have hboth : t.looseBeforeOptional = u.looseBeforeOptional := by
      rw [← hkeep t, ← hkeep u, ← ht, ← hu, hread]
    rw [TypeExpr.fusedInside, TypeExpr.fusedInside, if_neg htmark, if_neg humark]
    rw [beforeOptional, beforeOptional, hboth] at htext
    split at htext
    · exact h.enclosed "(" ")" u x y hread htext
    · exact h u x y hread htext

end TypeExpr

/-! ## Parts of types -/

open TypeExpr

section

variable {ts : List TypeExpr} {f : FunctionType}

theorem cancels_list (h : ∀ t ∈ ts, t.Cancels) :
    Cancels (List.map reading) (List.map fused) (fun ts => Text.join ", " (TypeExpr.renderList ts)) ts := by
  intro us x y hread htext
  simp only [renderList_eq] at htext
  exact Cancels.join h ", " us x y hread htext

theorem cancels_bracketed (h : ∀ t ∈ ts, t.Cancels) :
    Cancels (List.map reading) (List.map fused) (fun ts => bracketed (TypeExpr.renderList ts)) ts := by
  intro us x y hread htext
  cases ts with
  | nil =>
    obtain rfl := List.map_eq_nil_iff.mp hread.symm
    exact ⟨rfl, (String.append_right_inj _).mp htext⟩
  | cons t ts =>
    obtain ⟨u, us, rfl, -⟩ := List.map_eq_cons_iff.mp hread.symm
    exact (cancels_list h).enclosed "[" "]" _ x y hread htext

theorem cancels_tuple (h : ∀ t ∈ ts, t.Cancels) :
    Cancels (List.map reading) (List.map fused) (fun ts => (TypeExpr.tuple ts).render) ts := by
  intro us x y hread htext
  cases ts with
  | nil =>
    obtain rfl := List.map_eq_nil_iff.mp hread.symm
    exact ⟨rfl, (String.append_right_inj _).mp htext⟩
  | cons t ts =>
    obtain ⟨u, us, rfl, -⟩ := List.map_eq_cons_iff.mp hread.symm
    have hcons : ∀ t ts, (TypeExpr.tuple (t :: ts)).render
        = "[" ++ Text.join ", " (TypeExpr.renderList (t :: ts)) ++ "]" := fun t ts => by
      rw [TypeExpr.render]
      exact List.cons_ne_nil _ _
    simp only [hcons] at htext
    exact (cancels_list h).enclosed "[" "]" _ x y hread htext

theorem cancels_operands {loose : TypeExpr → Bool} (hloose : ∀ t, loose t.reading = loose t)
    (h : ∀ t ∈ ts, t.Cancels) (sep : String) : Cancels (List.map reading) (List.map fused)
      (fun ts => Text.join sep (TypeExpr.renderOperands loose ts)) ts := by
  intro us x y hread htext
  simp only [renderOperands_eq] at htext
  exact Cancels.join (fun t ht => (h t ht).operand hloose) sep us x y hread htext

theorem cancels_field {f : RecordField} (h : f.type.Cancels) :
    Cancels (RecordField.mapType reading) (RecordField.mapType fused) RecordField.render f := by
  intro g x y hread htext
  obtain ⟨key, t, required⟩ := f
  obtain ⟨key', u, required'⟩ := g
  obtain ⟨rfl, hread, rfl⟩ := RecordField.mk.inj hread
  rw [RecordField.render, RecordField.render] at htext
  obtain ⟨hfused, rfl⟩ := h.after _ u x y hread htext
  exact ⟨congrArg (RecordField.mk key · required) hfused, rfl⟩

theorem cancels_param {p : Param} (h : p.type.Cancels) :
    Cancels (Param.mapType reading) (Param.mapType fused) Param.render p := by
  intro q x y hread htext
  obtain ⟨t, name⟩ := p
  obtain ⟨u, name'⟩ := q
  obtain ⟨hread, rfl⟩ := Param.mk.inj hread
  suffices hsame : t.fused = u.fused ∧ x = y from ⟨congrArg (Param.mk · name) hsame.1, hsame.2⟩
  cases name with
  | none => exact h u x y hread htext
  | some name =>
    rw [Param.render, Param.render] at htext
    split at htext
    · exact h u x y hread htext
    · obtain ⟨hfused, htext⟩ := h u (" " ++ (name ++ x)) (" " ++ (name ++ y)) hread
        (by simpa only [String.append_assoc] using htext)
      exact ⟨hfused, by simpa only [String.append_right_inj] using htext⟩

theorem cancels_slot {w : WrittenParam} (h : w.param.type.Cancels) :
    Cancels (WrittenParam.mapType reading) (WrittenParam.mapType fused) (fun w => .ofList w.text) w := by
  intro v x y hread htext
  obtain ⟨kind, p⟩ := w
  obtain ⟨kind', q⟩ := v
  obtain ⟨rfl, hread⟩ := WrittenParam.mk.inj hread
  simp only [WrittenParam.text, String.ofList_append, String.ofList_toList] at htext
  obtain ⟨hfused, rfl⟩ := (cancels_param h).after (.ofList kind.sign) q x y hread htext
  exact ⟨congrArg (WrittenParam.mk kind) hfused, rfl⟩

theorem cancels_params (h : ∀ t ∈ f.types, t.Cancels) :
    Cancels (FunctionType.mapTypes reading) (fun f => f.written.map (WrittenParam.mapType fused))
      FunctionType.renderParams f := by
  intro g x y hread htext
  rw [renderParams_eq, renderParams_eq] at htext
  have hslots : f.written.map (WrittenParam.mapType reading)
      = g.written.map (WrittenParam.mapType reading) := by
    rw [← FunctionType.written_mapTypes, hread, FunctionType.written_mapTypes]
  refine Cancels.join (fun w hw => cancels_slot (h _ (List.mem_append_left _ (List.mem_map_of_mem ?_))))
    ", " _ x y hslots htext
  exact f.written_params ▸ List.mem_map_of_mem hw

theorem cancels_return (h : ∀ t ∈ f.types, t.Cancels) :
    Cancels (FunctionType.mapTypes reading) (fun f => f.returnType.fused) FunctionType.renderReturn f := by
  intro g x y hread htext
  rw [renderReturn_eq, renderReturn_eq] at htext
  exact (h _ (List.mem_append_right _ List.mem_cons_self)).operand looseInReturn_reading _ x y
    (congrArg FunctionType.returnType hread) htext

/-- The slots and the result make up the function. -/
theorem mapTypes_fused_eq {g : FunctionType} (hf : f.Fits) (hread : f.mapTypes reading = g.mapTypes reading)
    (hslots : f.written.map (WrittenParam.mapType fused) = g.written.map (WrittenParam.mapType fused))
    (hresult : f.returnType.fused = g.returnType.fused) : f.mapTypes fused = g.mapTypes fused := by
  have hg := g.trailing_mapTypes.mp (hread ▸ f.trailing_mapTypes.mpr hf.2.2)
  rw [← ofWritten_mapTypes hf.2.2, hslots, hresult, ofWritten_mapTypes hg]

theorem cancels_binding {s : Option TypeExpr} (h : ∀ t ∈ s, t.Cancels) :
    Cancels (Option.map reading) (Option.map fused) renderBinding s :=
  .option " [self: " "]" (fun _ => by rw [renderBinding]) h

theorem cancels_block {b : Block} (hb : b.Fits) (h : ∀ t ∈ b.types, t.Cancels) :
    Cancels (Block.mapTypes reading) (Block.mapTypes fused) Block.render b := by
  intro c x y hread htext
  obtain ⟨f, required, s⟩ := b
  obtain ⟨g, required', s'⟩ := c
  obtain ⟨hfunction, rfl, hself⟩ := Block.mk.inj hread
  obtain ⟨hf, hs⟩ := List.forall_mem_append.mp h
  simp only [Block.render, String.append_assoc, String.append_right_inj] at htext
  obtain ⟨hslots, htext⟩ := cancels_params hf g _ _ hfunction htext
  obtain ⟨hself, htext⟩ := cancels_binding (fun t ht => hs t (Option.mem_toList.mpr ht)) s' _ _ hself
    ((String.append_right_inj _).mp htext)
  obtain ⟨hresult, htext⟩ := cancels_return hf g _ _ hfunction ((String.append_right_inj _).mp htext)
  refine ⟨?_, (String.append_right_inj _).mp htext⟩
  rw [Block.mapTypes, Block.mapTypes, mapTypes_fused_eq hb hfunction hslots hresult, hself]

theorem cancels_behind {b : Option Block} (hb : ∀ c ∈ b, c.Fits) (h : ∀ c ∈ b, ∀ t ∈ c.types, t.Cancels) :
    Cancels (Option.map (Block.mapTypes reading)) (Option.map (Block.mapTypes fused)) Block.renderBehind b :=
  .option " " "" (fun _ => by rw [Block.renderBehind, String.append_empty])
    fun c hc => cancels_block (hb c hc) (h c hc)

end

/-! ## All types -/

namespace TypeExpr

variable {t u : TypeExpr}

/-- The same form around parts with the same readings. -/
theorem cancels_form (hfits : t.Fits) (h : ∀ u ∈ t.parts, u.Cancels) (hopt : ∀ v, t ≠ .optional v)
    {x y : String} (hread : t.mapParts reading = u.mapParts reading) (htext : t.render ++ x = u.render ++ y) :
    t.mapParts fused = u.mapParts fused ∧ x = y := by
  cases t with
  | optional v => exact absurd rfl (hopt v)
  | classSingleton | base | literal =>
    cases u with
    | classSingleton | base | literal =>
      cases hread <;> exact ⟨rfl, (String.append_right_inj _).mp htext⟩
    | _ => cases hread
  | classInstance n ts =>
    cases u with
    | classInstance m us =>
      obtain ⟨rfl, hargs⟩ := classInstance.inj hread
      rw [render, render] at htext
      obtain ⟨hargs, rfl⟩ := (cancels_bracketed h).after _ us x y hargs htext
      exact ⟨congrArg (classInstance n) hargs, rfl⟩
    | _ => cases hread
  | interfaceInstance n ts =>
    cases u with
    | interfaceInstance m us =>
      obtain ⟨rfl, hargs⟩ := interfaceInstance.inj hread
      rw [render, render] at htext
      obtain ⟨hargs, rfl⟩ := (cancels_bracketed h).after _ us x y hargs htext
      exact ⟨congrArg (interfaceInstance n) hargs, rfl⟩
    | _ => cases hread
  | aliasUse n ts =>
    cases u with
    | aliasUse m us =>
      obtain ⟨rfl, hargs⟩ := aliasUse.inj hread
      rw [render, render] at htext
      obtain ⟨hargs, rfl⟩ := (cancels_bracketed h).after _ us x y hargs htext
      exact ⟨congrArg (aliasUse n) hargs, rfl⟩
    | _ => cases hread
  | union ts =>
    cases u with
    | union us =>
      rw [render, render] at htext
      obtain ⟨hts, rfl⟩ := cancels_operands looseInUnion_reading h _ us x y (union.inj hread) htext
      exact ⟨congrArg union hts, rfl⟩
    | _ => cases hread
  | intersection ts =>
    cases u with
    | intersection us =>
      rw [render, render] at htext
      obtain ⟨hts, rfl⟩ := cancels_operands looseInIntersection_reading h _ us x y (intersection.inj hread)
        htext
      exact ⟨congrArg intersection hts, rfl⟩
    | _ => cases hread
  | tuple ts =>
    cases u with
    | tuple us =>
      obtain ⟨hts, rfl⟩ := cancels_tuple h us x y (tuple.inj hread) htext
      exact ⟨congrArg tuple hts, rfl⟩
    | _ => cases hread
  | record fs =>
    cases u with
    | record gs =>
      rw [render, render, renderList_fields, renderList_fields] at htext
      have hfields := Cancels.join (fun f hf => cancels_field (h _ (List.mem_map_of_mem hf))) ", "
      obtain ⟨hfs, rfl⟩ := hfields.enclosed _ _ gs x y (record.inj hread) htext
      exact ⟨congrArg record hfs, rfl⟩
    | _ => cases hread
  | proc f b s =>
    cases u with
    | proc g c s' =>
      obtain ⟨hfunction, hblock, hself⟩ := proc.inj hread
      obtain ⟨hfb, hs⟩ := List.forall_mem_append.mp h
      obtain ⟨hf, hb⟩ := List.forall_mem_append.mp hfb
      simp only [render, String.append_assoc, String.append_right_inj] at htext
      obtain ⟨hslots, htext⟩ := cancels_params hf g _ _ hfunction htext
      obtain ⟨hself, htext⟩ := cancels_binding (fun t ht => hs t (Option.mem_toList.mpr ht)) s' _ _ hself
        ((String.append_right_inj _).mp htext)
      obtain ⟨hblock, htext⟩ := cancels_behind hfits.2 (fun d hd => List.forall_mem_flatMap.mp hb d
        (Option.mem_toList.mpr hd)) c _ _ hblock htext
      obtain ⟨hresult, rfl⟩ := cancels_return hf g _ _ hfunction ((String.append_right_inj _).mp htext)
      refine ⟨?_, rfl⟩
      rw [mapParts, mapParts, mapTypes_fused_eq hfits.1 hfunction hslots hresult, hblock, hself]
    | _ => cases hread

theorem cancels_of_parts (hfits : t.Fits) (h : ∀ u ∈ t.parts, u.Cancels) : t.Cancels := by
  intro u x y hread htext
  by_cases hlit : ∃ s, t.reading = .literal s
  · obtain ⟨s, hs⟩ := hlit
    obtain ⟨htfused, htrender⟩ := of_reading_literal hs
    obtain ⟨hufused, hurender⟩ := of_reading_literal (hread ▸ hs)
    rw [htrender, hurender] at htext
    exact ⟨htfused.trans hufused.symm, (String.append_right_inj s).mp htext⟩
  · obtain ⟨ht, htmark⟩ := reading_eq_mapParts fun s hs => hlit ⟨s, hs⟩
    obtain ⟨hu, humark⟩ := reading_eq_mapParts (t := u) fun s hs => hlit ⟨s, hread.trans hs⟩
    have hparts : t.mapParts reading = u.mapParts reading := by rw [← ht, ← hu, hread]
    by_cases hopt : ∃ v, t = .optional v
    · obtain ⟨v, rfl⟩ := hopt
      cases u with
      | optional w =>
        rw [render, render, String.append_assoc, String.append_assoc] at htext
        obtain ⟨hinner, hrest⟩ := (h v List.mem_cons_self).fusedInside w _ _ (optional.inj hparts) htext
        rw [fused_unmarked htmark, fused_unmarked humark, hinner]
        exact ⟨rfl, (String.append_right_inj _).mp hrest⟩
      | _ => cases hparts
    · have htopt : ∀ v, t ≠ .optional v := fun v hv => hopt ⟨v, hv⟩
      have huopt : ∀ v, u ≠ .optional v := by
        rintro v rfl
        cases t with
        | optional w => exact htopt w rfl
        | _ => cases hparts
      rw [fused_eq htopt, fused_eq huopt]
      exact cancels_form hfits h htopt hparts htext

/-- **A text goes on where the text of a type with the same reading ends.** -/
theorem All.cancels (h : t.All Fits) : t.Cancels := by
  induction h with
  | mk hfits _ ih => exact cancels_of_parts hfits ih

end TypeExpr

/-! ## Types that were read -/

/-- Whether a type is written out in a declaration or in anything inside it. -/
inductive TypeExpr.StandsIn (t : TypeExpr) : Declaration → Prop
  | outside {d : Declaration} (h : t ∈ d.types) : StandsIn t d
  | member {d : Declaration} {m : Member} (hm : m ∈ d.members) (h : t ∈ m.types) : StandsIn t d
  | inside {d : Declaration} {e : Nestable} (he : e ∈ d.inside) (h : StandsIn t (.nestable e)) : StandsIn t d

/-- Whether some text is read as declarations with the type in them. -/
def TypeExpr.IsParsed (t : TypeExpr) : Prop :=
  ∃ text source ds, parse text source = .ok ds ∧ ∃ d ∈ ds, t.StandsIn d

theorem TypeExpr.StandsIn.allFit {t : TypeExpr} {d : Declaration} (h : t.StandsIn d) (hd : d.AllFit) :
    t.AllFit := by
  induction h with
  | outside ht =>
    cases hd with
    | mk hown => exact hown.types t ht
  | member hm ht =>
    cases hd with
    | mk _ hmembers => exact (hmembers _ hm).types t ht
  | inside he _ ih =>
    cases hd with
    | mk _ _ hinside => exact ih (hinside _ he)

theorem TypeExpr.IsParsed.allFit {t : TypeExpr} (h : t.IsParsed) : t.AllFit := by
  obtain ⟨text, source, ds, hparse, d, hd, ht⟩ := h
  exact ht.allFit (parse_fits hparse d hd)

/-- An alias of a type. -/
def aliasOf (t : TypeExpr) : Declaration := .nestable (.aliasDecl { name := ⟨"t", [], false⟩, type := t })

theorem aliasOf_readable {t : TypeExpr} (h : t.AllFit) :
    (aliasOf t).Throughout Declaration.Readable Member.Readable := by
  have hname : (⟨"t", [], false⟩ : TypeName).IsAlias :=
    ⟨List.forall_mem_nil _, isLowerName_of_isWord (k := "t".toList) (by decide)⟩
  exact .mk ⟨⟨⟨hname, List.forall_mem_nil _⟩, List.forall_mem_singleton.mpr h, Notes.fits_empty⟩, nofun⟩
    (List.forall_mem_nil _) (List.forall_mem_nil _)

/-- Types with the same text have the same reading. -/
theorem reading_eq_of_render_eq {t u : TypeExpr} (ht : t.AllFit) (hu : u.AllFit) (h : t.render = u.render) :
    t.reading = u.reading := by
  have hindent : IsIndent "".toList := List.forall_mem_nil _
  have hwrite : ∀ t : TypeExpr, write [aliasOf t] "" = .ok ("type t = " ++ t.render ++ "\n") :=
    fun _ => rfl
  obtain ⟨ds, hds, hread⟩ := parse_write_reading "" (List.forall_mem_singleton.mpr (aliasOf_readable ht))
    hindent (hwrite t)
  obtain ⟨es, hes, hread'⟩ := parse_write_reading "" (List.forall_mem_singleton.mpr (aliasOf_readable hu))
    hindent (hwrite u)
  rw [h, hes] at hds
  obtain rfl := Except.ok.inj hds
  have hsame : [aliasOf t.reading] = [aliasOf u.reading] := hread.symm.trans hread'
  exact List.singleton_inj.mp (congrArg (List.flatMap Declaration.types) hsame)

/-- **Types that were read have one text only if they differ in nothing but symbols with a mark**: where
one has an optional of a symbol, not in parentheses, the other may have the symbol with the mark.  Without
an optional of a symbol they are the same. -/
theorem render_eq_iff {t u : TypeExpr} (ht : t.IsParsed) (hu : u.IsParsed) :
    (t.render = u.render ↔ t.fused = u.fused) ∧
      (t.Unmarked → u.Unmarked → t.render = u.render → t = u) := by
  have hforward : t.render = u.render → t.fused = u.fused := by
    intro h
    have hread := reading_eq_of_render_eq ht.allFit hu.allFit h
    exact (ht.allFit.cancels u "" "" hread (by rw [h])).1
  refine ⟨⟨hforward, fun h => ?_⟩, fun hmark hmark' h => ?_⟩
  · rw [← (fused_alike ht.allFit).render, h, (fused_alike hu.allFit).render]
  · rw [← fused_of_unmarked hmark, hforward h, fused_of_unmarked hmark']

/-- An alias in the first line of a file. -/
def aliasInLine (t : TypeExpr) (column : Nat) : Declaration :=
  .nestable (.aliasDecl ⟨⟨"t", [], false⟩, t, [], ⟨[], none, some ⟨"a.rbs", 1, 1, 1, column⟩⟩⟩)

theorem isParsed_of_alias {t : TypeExpr} {text : String} {column : Nat}
    (h : parse text "a.rbs" = .ok [aliasInLine t column]) : t.IsParsed :=
  ⟨text, "a.rbs", _, h, _, List.mem_cons_self, .outside List.mem_cons_self⟩

/-- In a union, too, an optional of a symbol has the text of the longer symbol. -/
theorem render_eq_iff_union :
    (TypeExpr.union [.optional (.literal ":a"), .base .self]).render
      = (TypeExpr.union [.literal ":a?", .base .self]).render := by
  have ht : parse "type t = (:a)? | self\n" "a.rbs"
      = .ok [aliasInLine (.union [.optional (.literal ":a"), .base .self]) 22] := by decide +kernel
  have hu : parse "type t = :a? | self\n" "a.rbs"
      = .ok [aliasInLine (.union [.literal ":a?", .base .self]) 20] := by decide +kernel
  exact (render_eq_iff (isParsed_of_alias ht) (isParsed_of_alias hu)).1.mpr (by decide)

/-- Different types that were read have different texts. -/
def RenderingInjective : Prop :=
  ∀ t u : TypeExpr, t.IsParsed → u.IsParsed → t.render = u.render → t = u

/-- An optional of a symbol and the longer symbol have one text. -/
theorem not_renderingInjective : ¬ RenderingInjective := by
  intro h
  have ht : parse "type t = (:a)?\n" "a.rbs" = .ok [aliasInLine (.optional (.literal ":a")) 15] := by
    decide +kernel
  have hu : parse "type t = :a?\n" "a.rbs" = .ok [aliasInLine (.literal ":a?") 13] := by decide +kernel
  exact absurd (h _ _ (isParsed_of_alias ht) (isParsed_of_alias hu) (by decide)) (by decide)

end RbsSynth.Signature
