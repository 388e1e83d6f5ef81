import RbsSynth.Proofs.Reading.Functions

/-!
# Blocks, procs and all types are read

    f.IsRead  →  its parameters, a binding of self, an arrow and its result are read      (reads_inner)
    t fits throughout  →  t.IsRead                                                 (TypeExpr.All.isRead)
-/

namespace RbsSynth.Signature

open Terminal Text Value

variable {name : String} {cs : List Context} {rest y : List Char} {t : TypeExpr} {f : FunctionType}
  {s : Option TypeExpr} {b : Block}

/-! ## Results -/

theorem renderReturn_eq (f : FunctionType) :
    f.renderReturn = operand TypeExpr.looseInReturn f.returnType := by
  cases f
  rfl

theorem reads_return (h : t.IsRead name) (hrest : Stops rest) :
    Reads name typeOpens (operand TypeExpr.looseInReturn t).toList rest (.nonterminal .optional) true
      (.value (.type t.reading)) typeEnds := by
  rw [operand]
  split
  · exact (h.inParens rest).asOptional
  · next hloose => exact h.asOptional (Bool.not_eq_true _ ▸ hloose) hrest

/-- The contexts in which an arrow may stand. -/
def arrowOpens : List Context := [.behind rightParen, .behind rightBracket, .behind rightBrace]

/-- The text of an arrow and the result behind it. -/
def arrowText (t : TypeExpr) : List Char :=
  " -> ".toList ++ (operand TypeExpr.looseInReturn t).toList

theorem readsAll_arrow (h : t.IsRead name) (hrest : Stops rest) :
    ReadsAll name arrowOpens (arrowText t) rest [.terminal arrow, .nonterminal .optional] true
      [.token arrow ['-', '>'], .value (.type t.reading)] typeEnds := by
  have hresult : ReadsAll name [.behind arrow] (' ' :: (operand TypeExpr.looseInReturn t).toList) rest
      [.nonterminal .optional] true [.value (.type t.reading)] typeEnds :=
    ((ReadsAll.one (reads_return h hrest)).weaken (by decide) fun _ h => h).space
  exact .space (.sign (x := ['-', '>']) [.behind arrow] (by decide) hresult)

/-! ## Parameters and self -/

theorem FunctionType.IsRead.written (h : f.IsRead name) : ∀ w ∈ f.written, w.IsRead name := by
  intro w hw
  have hparam : w.param ∈ f.params := f.written_params ▸ List.mem_map_of_mem hw
  suffices hkind : w.kind.Fits by
    exact ⟨hkind, h.fits.1 _ hparam, h.types _ (List.mem_append_left _ (List.mem_map_of_mem hparam))⟩
  have hkeys := h.fits.2.1
  simp only [FunctionType.written, List.mem_append, List.mem_map] at hw hkeys
  rcases hw with (((((⟨p, -, rfl⟩ | ⟨p, -, rfl⟩) | ⟨p, -, rfl⟩) | ⟨p, -, rfl⟩) | ⟨k, hk, rfl⟩) |
    ⟨k, hk, rfl⟩) | ⟨p, -, rfl⟩
  · trivial
  · trivial
  · trivial
  · trivial
  · exact hkeys k (.inl hk)
  · exact hkeys k (.inr hk)
  · trivial

theorem FunctionType.IsRead.result (h : f.IsRead name) : f.returnType.IsRead name :=
  h.types _ (List.mem_append_right _ List.mem_cons_self)

/-- The parameters of a function in parentheses. -/
def groupText (f : FunctionType) : List Char := ['('] ++ (paramsText f.written ++ [')'])

theorem reads_group (h : f.IsRead name) (rest : List Char) :
    Reads name groupOpens (groupText f) rest (.nonterminal .parameterGroup) false
      (.value (.params (f.written.map (WrittenParam.mapType TypeExpr.reading)))) [.behind rightParen] :=
  reads_params h.written rest

theorem reads_binding (h : t.IsRead name) (rest : List Char) :
    Reads name [.behind rightParen] ("[self: ".toList ++ (t.render.toList ++ [']'])) rest
      (.nonterminal .selfBinding) false (.value (.binding t.reading)) [.behind rightBracket] := by
  have hclose : ReadsAll name typeEnds [']'] rest [.terminal rightBracket] false
      [.token rightBracket [']']] [.behind rightBracket] := .one (.sign (by decide))
  have htype : ReadsAll name [.behind colon] (' ' :: (t.render.toList ++ [']'])) rest
      [.nonterminal .type, .terminal rightBracket] false
      [.value (.type t.reading), .token rightBracket [']']] [.behind rightBracket] :=
    ((ReadsAll.cons (h.asType (.cons (by decide) rest)) hclose).weaken (by decide) fun _ h => h).space
  have hword : Reads name [.behind leftBracket] "self".toList
      ([':'] ++ ' ' :: (t.render.toList ++ [']']) ++ rest) (.terminal selfWord) false
      (.token selfWord "self".toList) [.behind selfWord] := by
    refine .token (fun c hc => ?_) (by decide)
    obtain rfl := List.mem_singleton.mp hc
    exact clear_word (by decide) (by decide) (by decide) (fun h => absurd h (by decide)) (by decide)
  have hself : ReadsAll name [.behind leftBracket] ("self".toList ++ ([':'] ++ ' ' :: (t.render.toList ++ [']'])))
      rest [.terminal selfWord, .terminal colon, .nonterminal .type, .terminal rightBracket] false
      [.token selfWord "self".toList, .token colon [':'], .value (.type t.reading),
        .token rightBracket [']']]
      [.behind rightBracket] :=
    .cons hword (.sign [.behind colon] (by decide) htype)
  have hbody := ReadsAll.sign (x := ['[']) [.behind leftBracket]
    (by decide : signAlone [.behind rightParen] leftBracket ['['] [.behind leftBracket] = true) hself
  exact .rule .selfBinding (by decide) hbody (by decide) fun _ _ _ _ _ => rfl

/-- The text of a binding of self, if there is one. -/
def bindingText (s : Option TypeExpr) : List Char :=
  s.toList.flatMap fun t => ' ' :: ("[self: ".toList ++ (t.render.toList ++ [']']))

theorem renderBinding_toList (s : Option TypeExpr) :
    (TypeExpr.renderBinding s).toList = bindingText s := by
  cases s with
  | none => rfl
  | some t =>
    rw [TypeExpr.renderBinding, String.toList_append, String.toList_append, List.append_assoc,
      bindingText, Option.toList_some, List.flatMap_singleton]
    rfl

theorem readsAll_binding (hs : ∀ t ∈ s, t.IsRead name) (rest : List Char) :
    ReadsAll name [.behind rightParen] (bindingText s) rest (symbolsOf .selfBinding s.toList) false
      (s.toList.map fun t => .value (.binding t.reading)) [.behind rightParen, .behind rightBracket] := by
  cases s with
  | none => exact ReadsAll.nil.weaken (fun _ h => h) (by decide)
  | some t =>
    rw [bindingText, Option.toList_some, List.flatMap_singleton]
    exact ((ReadsAll.one (reads_binding (hs t rfl) rest)).weaken (fun _ h => h) (by decide)).space

/-! ## Blocks -/

/-- What stands between the braces of a block. -/
def innerText (f : FunctionType) (s : Option TypeExpr) : List Char :=
  groupText f ++ (bindingText s ++ arrowText f.returnType)

theorem reads_inner (hf : f.IsRead name) (hs : ∀ t ∈ s, t.IsRead name) (hrest : Stops rest) :
    Reads name [.behind leftBrace] (innerText f s) rest (.nonterminal .blockInner) false
      (.value (.inner (f.mapTypes TypeExpr.reading) (s.map TypeExpr.reading))) typeEnds := by
  have harrow := (readsAll_arrow hf.result hrest).weaken
    (by decide : [.behind rightParen, .behind rightBracket] ⊆ arrowOpens) fun _ h => h
  have hgroup := (reads_group hf (bindingText s ++ arrowText f.returnType ++ rest)).weaken
    (by decide : [.behind leftBrace] ⊆ groupOpens) fun _ h => h
  have hbody := ReadsAll.cons hgroup ((readsAll_binding hs _).append harrow)
  refine .rule .blockInner (by decide) hbody ?_ fun sp => ?_
  · exact mem_bodies_with (mem_bodies_maybe s.toList
      (mem_bodies_must (mem_bodies_must mem_bodies_nil)))
  · have hslots := ofWritten_mapTypes (g := TypeExpr.reading) hf.fits.2.2
    cases s <;> exact fun _ => congrArg (fun f => some (Value.inner f _)) hslots

theorem Block.render_toList (b : Block) : b.render.toList = (if b.required then [] else ['?'])
    ++ (['\x7b'] ++ (' ' :: (innerText b.function b.selfType ++ (' ' :: ['\x7d'])))) := by
  obtain ⟨function, required, selfType⟩ := b
  rw [Block.render]
  simp only [String.toList_append, renderParams_toList, renderBinding_toList, renderReturn_eq]
  cases required <;>
    simp [innerText, groupText, arrowText]

/-- Whether the types of a block are read. -/
structure Block.IsRead (name : String) (b : Block) : Prop where
  function : b.function.IsRead name
  self : ∀ t ∈ b.selfType, t.IsRead name

theorem reads_block (h : b.IsRead name) (rest : List Char) :
    Reads name [.behind rightParen, .behind rightBracket] b.render.toList rest (.nonterminal .block)
      false (.value (.block (b.mapTypes TypeExpr.reading))) [.behind rightBrace] := by
  rw [Block.render_toList]
  obtain ⟨f, required, s⟩ := b
  obtain ⟨hf, hs⟩ := h
  have hclose : ReadsAll name typeEnds ['\x7d'] rest [.terminal rightBrace] false
      [.token rightBrace ['\x7d']] [.behind rightBrace] := .one (.sign (by decide))
  have hinner := ReadsAll.cons (reads_inner hf hs (.cons (by decide) _)) hclose.space
  cases required with
  | true =>
    have hbody := ReadsAll.sign (x := ['\x7b']) [.behind leftBrace]
      (by decide : signAlone [.behind rightParen, .behind rightBracket] leftBrace ['\x7b']
        [.behind leftBrace] = true) hinner.space
    exact .rule .block (by decide) hbody (by decide) fun _ _ _ => rfl
  | false =>
    have hopen := ReadsAll.sign (x := ['\x7b']) [.behind leftBrace]
      (by decide : signAlone [.behind question] leftBrace ['\x7b'] [.behind leftBrace] = true)
      hinner.space
    have hbody := ReadsAll.sign (x := ['?']) [.behind question]
      (by decide : signAlone [.behind rightParen, .behind rightBracket] question ['?']
        [.behind question] = true) hopen
    exact .rule .optionalBlock (by decide) hbody (by decide) fun _ _ _ _ => rfl

/-- The text of a block, if there is one. -/
def blockText (b : Option Block) : List Char := b.toList.flatMap fun b => ' ' :: b.render.toList

theorem renderBehind_toList (b : Option Block) : (Block.renderBehind b).toList = blockText b := by
  cases b with
  | none => rfl
  | some b =>
    rw [Block.renderBehind, String.toList_append, blockText, Option.toList_some, List.flatMap_singleton]
    rfl

theorem readsAll_block {b : Option Block} (hb : ∀ c ∈ b, c.IsRead name) (rest : List Char) :
    ReadsAll name [.behind rightParen, .behind rightBracket] (blockText b) rest
      (symbolsOf .block b.toList) false
      (b.toList.map fun b => .value (.block (b.mapTypes TypeExpr.reading))) arrowOpens := by
  cases b with
  | none => exact ReadsAll.nil.weaken (fun _ h => h) (by decide)
  | some b =>
    rw [blockText, Option.toList_some, List.flatMap_singleton]
    exact ((ReadsAll.one (reads_block (hb b rfl) rest)).weaken (fun _ h => h) (by decide)).space

/-! ## Procs -/

theorem renderProc_toList (f : FunctionType) (b : Option Block) (s : Option TypeExpr) :
    (TypeExpr.proc f b s).render.toList
      = ['^'] ++ (groupText f ++ (bindingText s ++ (blockText b ++ arrowText f.returnType))) := by
  rw [TypeExpr.render]
  simp only [String.toList_append, renderParams_toList, renderBinding_toList, renderBehind_toList,
    renderReturn_eq]
  simp [groupText, arrowText]

theorem isRead_proc {b : Option Block} (hf : f.IsRead name) (hb : ∀ c ∈ b, c.IsRead name)
    (hs : ∀ t ∈ s, t.IsRead name) : (TypeExpr.proc f b s).IsRead name where
  starts := ⟨'^', _, renderProc_toList f b s, by decide⟩
  reads := by
    intro rest hrest
    have hstops : Stops rest := by
      rcases hrest with h | ⟨hm, _⟩
      · exact h
      · cases hm
    have hgroup := (reads_group hf (bindingText s ++ (blockText b ++ arrowText f.returnType) ++ rest)).weaken
      (by decide : [.behind caret] ⊆ groupOpens) fun _ h => h
    have hsign := ReadsAll.sign (x := ['^']) [.behind caret]
      (by decide : signAlone typeOpens caret ['^'] [.behind caret] = true)
      (.cons hgroup ((readsAll_binding hs _).append
        ((readsAll_block hb _).append (readsAll_arrow hf.result hstops))))
    rw [renderProc_toList, TypeExpr.reading_eq fun _ h => by cases h]
    refine .rule .proc (by decide) hsign ?_ fun sp => ?_
    · exact mem_bodies_must (mem_bodies_with (mem_bodies_maybe s.toList (mem_bodies_maybe b.toList
        (mem_bodies_must (mem_bodies_must mem_bodies_nil)))))
    · have hslots := ofWritten_mapTypes (g := TypeExpr.reading) hf.fits.2.2
      cases s <;> cases b <;>
        exact fun _ _ => congrArg (fun f => some (Value.type (TypeExpr.proc f _ _))) hslots

/-! ## All types -/

/-- **The text of a type that fits is read as its reading.** -/
theorem TypeExpr.All.isRead (name : String) (h : t.All TypeExpr.Fits) : t.IsRead name := by
  induction h with
  | @mk t hfits _ ih =>
    cases t with
    | classInstance n args => exact isRead_classInstance hfits ih
    | classSingleton n => exact isRead_classSingleton hfits
    | interfaceInstance n args => exact isRead_interfaceInstance hfits ih
    | aliasUse n args => exact isRead_aliasUse hfits.1 hfits.2 ih
    | base w => exact isRead_base w
    | literal s =>
      rcases hfits with h | h | h | h
      · exact isRead_string h
      · exact isRead_symbol (.inl h)
      · exact isRead_symbol (.inr h)
      · exact isRead_integer h
    | optional u => exact isRead_optional (ih u List.mem_cons_self)
    | union ts =>
      obtain ⟨a, b, us, rfl, ha⟩ := hfits
      exact isRead_union ha ih
    | intersection ts =>
      obtain ⟨a, b, us, rfl, ha⟩ := hfits
      exact isRead_intersection ha ih
    | tuple ts => exact isRead_tuple ih
    | record fs =>
      obtain ⟨hne, hkeys⟩ := hfits
      obtain ⟨f, fs, rfl⟩ := List.exists_cons_of_ne_nil hne
      exact isRead_record hkeys fun g hg => ih _ (List.mem_map_of_mem hg)
    | proc f b s =>
      have hparts : ∀ u ∈ f.types ++ b.toList.flatMap Block.types ++ s.toList, u.IsRead name := ih
      refine isRead_proc ⟨hfits.1, fun u hu => ?_⟩ (fun c hc => ⟨⟨hfits.2 c hc, fun u hu => ?_⟩,
        fun u hu => ?_⟩) fun u hu => ?_
      · exact hparts u (List.mem_append_left _ (List.mem_append_left _ hu))
      · exact hparts u (List.mem_append_left _ (List.mem_append_right _
          (List.mem_flatMap.mpr ⟨c, Option.mem_toList.mpr hc, List.mem_append_left _ hu⟩)))
      · exact hparts u (List.mem_append_left _ (List.mem_append_right _
          (List.mem_flatMap.mpr ⟨c, Option.mem_toList.mpr hc,
            List.mem_append_right _ (Option.mem_toList.mpr hu)⟩)))
      · exact hparts u (List.mem_append_right _ (Option.mem_toList.mpr hu))

end RbsSynth.Signature
