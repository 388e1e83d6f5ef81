import RbsSynth.Proofs.Reading.Slots
import RbsSynth.Proofs.Reading.Written

/-!
# What the text of a type is read as

The text of a type is read as the type itself, but for one thing: a question mark right behind a plain
symbol belongs to the symbol.  So the text of an optional applied to a plain symbol is read as a longer
symbol, and `t.reading` has that symbol everywhere in `t`:

    (.optional t).reading = t.reading.marked,  any other t.reading = t.mapParts reading     (reading_eq)
    no type in t is a marked symbol  →  t.reading = t                              (reading_of_unmarked)
-/

namespace RbsSynth.Signature

/-! ## Other types in the same places -/

section

variable (g : TypeExpr → TypeExpr)

def RecordField.mapType (f : RecordField) : RecordField := ⟨f.key, g f.type, f.required⟩

def Param.mapType (p : Param) : Param := ⟨g p.type, p.name⟩

def WrittenParam.mapType (w : WrittenParam) : WrittenParam := ⟨w.kind, w.param.mapType g⟩

def KeywordParam.mapType (k : KeywordParam) : KeywordParam := ⟨k.key, k.param.mapType g⟩

def FunctionType.mapTypes (f : FunctionType) : FunctionType :=
  ⟨f.required.map (Param.mapType g), f.optional.map (Param.mapType g), f.rest.map (Param.mapType g),
    f.trailing.map (Param.mapType g), f.requiredKeywords.map (KeywordParam.mapType g),
    f.optionalKeywords.map (KeywordParam.mapType g), f.restKeywords.map (Param.mapType g), g f.returnType⟩

def Block.mapTypes (b : Block) : Block := ⟨b.function.mapTypes g, b.required, b.selfType.map g⟩

/-- Other types right inside a type. -/
def TypeExpr.mapParts : TypeExpr → TypeExpr
  | .classInstance n args => .classInstance n (args.map g)
  | .classSingleton n => .classSingleton n
  | .interfaceInstance n args => .interfaceInstance n (args.map g)
  | .aliasUse n args => .aliasUse n (args.map g)
  | .base w => .base w
  | .literal s => .literal s
  | .optional t => .optional (g t)
  | .union ts => .union (ts.map g)
  | .intersection ts => .intersection (ts.map g)
  | .tuple ts => .tuple (ts.map g)
  | .record fs => .record (fs.map (RecordField.mapType g))
  | .proc f b s => .proc (f.mapTypes g) (b.map (Block.mapTypes g)) (s.map g)

def TypeParam.mapTypes (p : TypeParam) : TypeParam := { p with upperBound := p.upperBound.map g }

def MethodType.mapTypes (m : MethodType) : MethodType :=
  ⟨m.function.mapTypes g, m.block.map (Block.mapTypes g), m.typeParams.map (TypeParam.mapTypes g)⟩

end

section

variable {g h : TypeExpr → TypeExpr}

/-- The slots hold the parameters, in order. -/
theorem FunctionType.written_params (f : FunctionType) : f.written.map (·.param) = f.params := by
  simp only [written, params, List.map_append, List.map_map, Function.comp_def, List.map_id',
    List.append_assoc]

theorem FunctionType.written_mapTypes (f : FunctionType) :
    (f.mapTypes g).written = f.written.map (WrittenParam.mapType g) := by
  simp only [written, mapTypes, List.map_append, Option.toList_map, List.map_map]
  rfl

/-- Other types leave the trailing parameters where they may stand. -/
theorem FunctionType.trailing_mapTypes (f : FunctionType) :
    ((f.mapTypes g).trailing ≠ [] → (f.mapTypes g).rest.isSome ∨ (f.mapTypes g).optional ≠ []) ↔
      (f.trailing ≠ [] → f.rest.isSome ∨ f.optional ≠ []) := by
  simp only [mapTypes, ne_eq, List.map_eq_nil_iff, Option.isSome_map]

/-- The slots of a function with other types. -/
theorem ofWritten_mapTypes {f : FunctionType} (h : f.trailing ≠ [] → f.rest.isSome ∨ f.optional ≠ []) :
    FunctionType.ofWritten (f.written.map (WrittenParam.mapType g)) (g f.returnType) = f.mapTypes g := by
  rw [← FunctionType.written_mapTypes]
  exact ofWritten_written (f.trailing_mapTypes.mpr h)

theorem map_eq_self {α : Type} {f : α → α} {as : List α} (h : ∀ a ∈ as, f a = a) : as.map f = as :=
  (List.map_congr_left h).trans (List.map_id as)

theorem option_map_eq_self {α : Type} {f : α → α} {a : Option α} (h : ∀ b ∈ a, f b = b) :
    a.map f = a := by
  cases a with
  | none => rfl
  | some a => rw [Option.map_some, h a rfl]

theorem RecordField.mapType_eq_self {f : RecordField} (h : g f.type = f.type) : f.mapType g = f := by
  cases f
  exact congrArg (RecordField.mk _ · _) h

theorem Param.mapType_eq_self {p : Param} (h : g p.type = p.type) : p.mapType g = p := by
  cases p
  exact congrArg (Param.mk · _) h

theorem KeywordParam.mapType_eq_self {k : KeywordParam} (h : k.param.mapType g = k.param) :
    k.mapType g = k := by
  cases k
  exact congrArg (KeywordParam.mk _) h

theorem FunctionType.mapTypes_eq_self {f : FunctionType} (h : ∀ t ∈ f.types, g t = t) :
    f.mapTypes g = f := by
  have hparam : ∀ p ∈ f.params, p.mapType g = p := fun p hp =>
    Param.mapType_eq_self (h _ (List.mem_append_left _ (List.mem_map_of_mem hp)))
  have hresult : g f.returnType = f.returnType := h _ (List.mem_append_right _ List.mem_cons_self)
  obtain ⟨required, optional, rest, trailing, keywords, optionalKeywords, restKeywords, result⟩ := f
  simp only [params, List.mem_append, List.mem_map, Option.mem_toList] at hparam hresult
  rw [mapTypes, hresult, map_eq_self fun p hp => hparam p (by simp only [hp, true_or]),
    map_eq_self fun p hp => hparam p (by simp only [hp, true_or, or_true]),
    option_map_eq_self fun p hp => hparam p (.inl (.inl (.inl (.inr hp)))),
    map_eq_self fun p hp => hparam p (by simp only [hp, true_or, or_true]),
    map_eq_self fun k hk => KeywordParam.mapType_eq_self (hparam k.param (.inl (.inr ⟨k, .inl hk, rfl⟩))),
    map_eq_self fun k hk => KeywordParam.mapType_eq_self (hparam k.param (.inl (.inr ⟨k, .inr hk, rfl⟩))),
    option_map_eq_self fun p hp => hparam p (.inr hp)]

theorem Block.mapTypes_eq_self {b : Block} (h : ∀ t ∈ b.types, g t = t) : b.mapTypes g = b := by
  obtain ⟨function, required, selfType⟩ := b
  obtain ⟨hf, hs⟩ := List.forall_mem_append.mp h
  rw [mapTypes, FunctionType.mapTypes_eq_self hf,
    option_map_eq_self fun t ht => hs t (Option.mem_toList.mpr ht)]

theorem TypeExpr.mapParts_eq_self {t : TypeExpr} (h : ∀ u ∈ t.parts, g u = u) : t.mapParts g = t := by
  cases t with
  | classSingleton | base | literal => rfl
  | classInstance n args => exact congrArg (TypeExpr.classInstance n) (map_eq_self h)
  | interfaceInstance n args => exact congrArg (TypeExpr.interfaceInstance n) (map_eq_self h)
  | aliasUse n args => exact congrArg (TypeExpr.aliasUse n) (map_eq_self h)
  | optional t => exact congrArg TypeExpr.optional (h t List.mem_cons_self)
  | union ts => exact congrArg TypeExpr.union (map_eq_self h)
  | intersection ts => exact congrArg TypeExpr.intersection (map_eq_self h)
  | tuple ts => exact congrArg TypeExpr.tuple (map_eq_self h)
  | record fs =>
    exact congrArg TypeExpr.record (map_eq_self fun f hf =>
      RecordField.mapType_eq_self (h _ (List.mem_map_of_mem hf)))
  | proc f b s =>
    obtain ⟨hfb, hs⟩ := List.forall_mem_append.mp h
    obtain ⟨hf, hb⟩ := List.forall_mem_append.mp hfb
    rw [mapParts, FunctionType.mapTypes_eq_self hf,
      option_map_eq_self fun t ht => hs t (Option.mem_toList.mpr ht),
      option_map_eq_self fun c hc => Block.mapTypes_eq_self
        (List.forall_mem_flatMap.mp hb c (Option.mem_toList.mpr hc))]

theorem TypeParam.mapTypes_eq_self {p : TypeParam} (h : ∀ t ∈ p.types, g t = t) : p.mapTypes g = p := by
  rw [mapTypes, option_map_eq_self fun t ht => h t (Option.mem_toList.mpr ht)]

theorem MethodType.mapTypes_eq_self {m : MethodType} (h : ∀ t ∈ m.types, g t = t) : m.mapTypes g = m := by
  obtain ⟨hfb, hps⟩ := List.forall_mem_append.mp h
  obtain ⟨hf, hb⟩ := List.forall_mem_append.mp hfb
  rw [mapTypes, FunctionType.mapTypes_eq_self hf,
    option_map_eq_self fun c hc => Block.mapTypes_eq_self
      (List.forall_mem_flatMap.mp hb c (Option.mem_toList.mpr hc)),
    map_eq_self fun p hp => TypeParam.mapTypes_eq_self (List.forall_mem_flatMap.mp hps p hp)]

end

/-! ## Types from the inside out -/

mutual

/-- A type with `o` in place of every optional: `o` is given the operand and what became of it. -/
def TypeExpr.recode (o : TypeExpr → TypeExpr → TypeExpr) : TypeExpr → TypeExpr
  | .classInstance n args => .classInstance n (TypeExpr.recodeList o args)
  | .classSingleton n => .classSingleton n
  | .interfaceInstance n args => .interfaceInstance n (TypeExpr.recodeList o args)
  | .aliasUse n args => .aliasUse n (TypeExpr.recodeList o args)
  | .base w => .base w
  | .literal s => .literal s
  | .optional t => o t (t.recode o)
  | .union ts => .union (TypeExpr.recodeList o ts)
  | .intersection ts => .intersection (TypeExpr.recodeList o ts)
  | .tuple ts => .tuple (TypeExpr.recodeList o ts)
  | .record fs => .record (RecordField.recodeList o fs)
  | .proc f b s => .proc (f.recode o) (Block.recodeOption o b) (TypeExpr.recodeOption o s)
  termination_by structural t => t

def TypeExpr.recodeList (o : TypeExpr → TypeExpr → TypeExpr) : List TypeExpr → List TypeExpr
  | [] => []
  | t :: ts => t.recode o :: TypeExpr.recodeList o ts
  termination_by structural ts => ts

def TypeExpr.recodeOption (o : TypeExpr → TypeExpr → TypeExpr) : Option TypeExpr → Option TypeExpr
  | none => none
  | some t => some (t.recode o)
  termination_by structural t => t

def RecordField.recode (o : TypeExpr → TypeExpr → TypeExpr) : RecordField → RecordField
  | ⟨key, type, required⟩ => ⟨key, type.recode o, required⟩
  termination_by structural f => f

def RecordField.recodeList (o : TypeExpr → TypeExpr → TypeExpr) : List RecordField → List RecordField
  | [] => []
  | f :: fs => f.recode o :: RecordField.recodeList o fs
  termination_by structural fs => fs

def Param.recode (o : TypeExpr → TypeExpr → TypeExpr) : Param → Param
  | ⟨type, name⟩ => ⟨type.recode o, name⟩
  termination_by structural p => p

def Param.recodeList (o : TypeExpr → TypeExpr → TypeExpr) : List Param → List Param
  | [] => []
  | p :: ps => p.recode o :: Param.recodeList o ps
  termination_by structural ps => ps

def Param.recodeOption (o : TypeExpr → TypeExpr → TypeExpr) : Option Param → Option Param
  | none => none
  | some p => some (p.recode o)
  termination_by structural p => p

def KeywordParam.recode (o : TypeExpr → TypeExpr → TypeExpr) : KeywordParam → KeywordParam
  | ⟨key, param⟩ => ⟨key, param.recode o⟩
  termination_by structural p => p

def KeywordParam.recodeList (o : TypeExpr → TypeExpr → TypeExpr) : List KeywordParam → List KeywordParam
  | [] => []
  | k :: ks => k.recode o :: KeywordParam.recodeList o ks
  termination_by structural ks => ks

def FunctionType.recode (o : TypeExpr → TypeExpr → TypeExpr) : FunctionType → FunctionType
  | ⟨required, optional, rest, trailing, keywords, optionalKeywords, restKeywords, result⟩ =>
    ⟨Param.recodeList o required, Param.recodeList o optional, Param.recodeOption o rest,
      Param.recodeList o trailing, KeywordParam.recodeList o keywords,
      KeywordParam.recodeList o optionalKeywords, Param.recodeOption o restKeywords, result.recode o⟩
  termination_by structural f => f

def Block.recode (o : TypeExpr → TypeExpr → TypeExpr) : Block → Block
  | ⟨function, required, selfType⟩ => ⟨function.recode o, required, TypeExpr.recodeOption o selfType⟩
  termination_by structural b => b

def Block.recodeOption (o : TypeExpr → TypeExpr → TypeExpr) : Option Block → Option Block
  | none => none
  | some b => some (b.recode o)
  termination_by structural b => b

end

section

variable (o : TypeExpr → TypeExpr → TypeExpr)

theorem recodeList_types (ts : List TypeExpr) : TypeExpr.recodeList o ts = ts.map (TypeExpr.recode o) := by
  induction ts with
  | nil => rfl
  | cons t ts ih => rw [TypeExpr.recodeList, ih, List.map_cons]

theorem recodeOption_types (t : Option TypeExpr) :
    TypeExpr.recodeOption o t = t.map (TypeExpr.recode o) := by
  cases t <;> rfl

theorem recodeList_fields (fs : List RecordField) :
    RecordField.recodeList o fs = fs.map (RecordField.mapType (TypeExpr.recode o)) := by
  induction fs with
  | nil => rfl
  | cons f fs ih =>
    cases f
    rw [RecordField.recodeList, ih, List.map_cons]
    rfl

theorem Param.recode_eq (p : Param) : p.recode o = p.mapType (TypeExpr.recode o) := by
  cases p
  rfl

theorem recodeList_params (ps : List Param) :
    Param.recodeList o ps = ps.map (Param.mapType (TypeExpr.recode o)) := by
  induction ps with
  | nil => rfl
  | cons p ps ih =>
    rw [Param.recodeList, ih, List.map_cons, Param.recode_eq]

theorem recodeOption_params (p : Option Param) :
    Param.recodeOption o p = p.map (Param.mapType (TypeExpr.recode o)) := by
  cases p with
  | none => rfl
  | some p => rw [Param.recodeOption, Param.recode_eq, Option.map_some]

theorem recodeList_keywords (ks : List KeywordParam) :
    KeywordParam.recodeList o ks = ks.map (KeywordParam.mapType (TypeExpr.recode o)) := by
  induction ks with
  | nil => rfl
  | cons k ks ih =>
    cases k
    rw [KeywordParam.recodeList, ih, List.map_cons, KeywordParam.recode, Param.recode_eq]
    rfl

theorem FunctionType.recode_eq (f : FunctionType) : f.recode o = f.mapTypes (TypeExpr.recode o) := by
  obtain ⟨required, optional, rest, trailing, keywords, optionalKeywords, restKeywords, result⟩ := f
  rw [FunctionType.recode]
  simp only [recodeList_params, recodeOption_params, recodeList_keywords]
  rfl

theorem recodeOption_blocks (b : Option Block) :
    Block.recodeOption o b = b.map (Block.mapTypes (TypeExpr.recode o)) := by
  cases b with
  | none => rfl
  | some b =>
    obtain ⟨function, required, selfType⟩ := b
    rw [Block.recodeOption, Block.recode, FunctionType.recode_eq, recodeOption_types]
    rfl

/-- Only an optional is replaced. -/
theorem TypeExpr.recode_eq {t : TypeExpr} (h : ∀ u, t ≠ .optional u) :
    t.recode o = t.mapParts (TypeExpr.recode o) := by
  cases t with
  | optional u => exact absurd rfl (h u)
  | classSingleton | base | literal => rfl
  | classInstance | interfaceInstance | aliasUse | union | intersection | tuple =>
    rw [recode, recodeList_types]
    rfl
  | record fs =>
    rw [recode, recodeList_fields]
    rfl
  | proc f b s =>
    rw [recode, FunctionType.recode_eq, recodeOption_blocks, recodeOption_types]
    rfl

end

/-! ## Question marks behind symbols -/

def isBareSymbol : List Char → Bool
  | c :: d :: y => c == ':' && isNameStart d && y.all isNameChar
  | _ => false

theorem isBareSymbol_iff {x : List Char} : isBareSymbol x = true ↔ IsBareSymbol x := by
  constructor
  · intro h
    match x with
    | c :: d :: y =>
      rw [isBareSymbol, Bool.and_eq_true, Bool.and_eq_true, beq_iff_eq, List.all_eq_true] at h
      obtain ⟨⟨rfl, hd⟩, hy⟩ := h
      exact ⟨d :: y, rfl, d, y, rfl, hd, hy⟩
  · rintro ⟨_, rfl, d, y, rfl, hd, hy⟩
    rw [isBareSymbol, hd, List.all_eq_true.mpr hy]
    rfl

instance : DecidablePred IsBareSymbol := fun _ => decidable_of_iff _ isBareSymbol_iff

theorem isClosedSymbol_mark {s : String} (h : IsBareSymbol s.toList) :
    IsClosedSymbol (s ++ "?").toList := by
  obtain ⟨y, he, hy⟩ := h
  refine .inl ⟨y, '?', ?_, hy, rfl⟩
  rw [String.toList_append, he]
  rfl

theorem not_isBareSymbol_mark (s : String) : ¬ IsBareSymbol (s ++ "?").toList := by
  rintro ⟨_, he, d, y, rfl, hd, hy⟩
  have hlast : '?' ∈ d :: y := by
    have hmem : '?' ∈ (s ++ "?").toList := by
      rw [String.toList_append]
      exact List.mem_append_right _ List.mem_cons_self
    rw [he] at hmem
    exact (List.mem_cons.mp hmem).resolve_left (by decide)
  rcases List.mem_cons.mp hlast with rfl | h
  · exact absurd hd (by decide)
  · exact absurd (hy _ h) (by decide)

/-- A type with a question mark right behind its text. -/
def TypeExpr.marked : TypeExpr → TypeExpr
  | .literal s => if IsBareSymbol s.toList then .literal (s ++ "?") else .optional (.literal s)
  | t => .optional t

/-- What the text of a type is read as. -/
def TypeExpr.reading (t : TypeExpr) : TypeExpr := t.recode fun _ u => u.marked

namespace TypeExpr

variable {t : TypeExpr}

theorem marked_cases (t : TypeExpr) : t.marked = .optional t ∨
    ∃ s, t = .literal s ∧ IsBareSymbol s.toList ∧ t.marked = .literal (s ++ "?") := by
  cases t with
  | literal s =>
    by_cases h : IsBareSymbol s.toList
    · exact .inr ⟨s, rfl, h, if_pos h⟩
    · exact .inl (if_neg h)
  | _ => exact .inl rfl

theorem marked_eq (h : ¬ (TypeExpr.optional t).IsMarkedSymbol) : t.marked = .optional t := by
  cases t with
  | literal s => exact if_neg h
  | _ => rfl

theorem reading_optional (t : TypeExpr) : (TypeExpr.optional t).reading = t.reading.marked := by
  rw [reading, recode]
  rfl

theorem reading_eq (h : ∀ u, t ≠ .optional u) : t.reading = t.mapParts reading := recode_eq _ h

/-- Only a marked symbol is read as a symbol with a mark. -/
theorem marked_reading (h : ¬ (TypeExpr.optional t).IsMarkedSymbol) :
    t.reading.marked = .optional t.reading := by
  refine marked_eq ?_
  cases t with
  | literal s => exact h
  | optional u =>
    rw [reading_optional]
    rcases u.reading.marked_cases with he | ⟨s, -, -, he⟩ <;> rw [he]
    · exact id
    · exact not_isBareSymbol_mark s
  | _ => exact id

theorem reading_marked {s : String} (h : IsBareSymbol s.toList) :
    (TypeExpr.optional (.literal s)).reading = .literal (s ++ "?") := if_pos h

theorem reading_unmarked (h : ¬ (TypeExpr.optional t).IsMarkedSymbol) :
    (TypeExpr.optional t).reading = .optional t.reading := by
  rw [reading_optional, marked_reading h]

theorem reading_ne_union (h : ∀ us, t ≠ .union us) (us : List TypeExpr) : t.reading ≠ .union us := by
  cases t with
  | union ts => exact absurd rfl (h ts)
  | optional t =>
    rw [reading_optional]
    rcases t.reading.marked_cases with he | ⟨s, -, -, he⟩ <;> rw [he] <;> exact fun h => by cases h
  | _ => exact fun h => by cases h

theorem reading_ne_intersection (h : ∀ us, t ≠ .intersection us) (us : List TypeExpr) :
    t.reading ≠ .intersection us := by
  cases t with
  | intersection ts => exact absurd rfl (h ts)
  | optional t =>
    rw [reading_optional]
    rcases t.reading.marked_cases with he | ⟨s, -, -, he⟩ <;> rw [he] <;> exact fun h => by cases h
  | _ => exact fun h => by cases h

/-- **A type without marked symbols is read as itself.** -/
theorem reading_of_unmarked (h : t.All fun u => ¬ u.IsMarkedSymbol) : t.reading = t := by
  induction h with
  | @mk t h _ ih =>
    by_cases hopt : ∃ u, t = .optional u
    · obtain ⟨u, rfl⟩ := hopt
      rw [reading_unmarked h, ih u List.mem_cons_self]
    · rw [reading_eq fun u hu => hopt ⟨u, hu⟩, mapParts_eq_self ih]

end TypeExpr

end RbsSynth.Signature
