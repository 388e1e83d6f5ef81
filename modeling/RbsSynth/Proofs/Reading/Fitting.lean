import RbsSynth.Proofs.Reading.Declared
import RbsSynth.Proofs.Reading.IndexNames
import RbsSynth.Proofs.Reading.Reserved

/-!
# Types that are built from parts that fit

`Told q x v` says that a value fits, and of a name what its symbol tells in the state below it: a class
has the name of one, and where a keyword may stand the name is none (`reservedAt`).

    the parts of a rule's body are told  →  the rule builds a value that is             (Rule.KeepsFit)

Here this is shown of the rules for names, types and functions.
-/

namespace RbsSynth.Signature

open Terminal Value

/-! ## Values -/

/-- Whether the parameter can be written; the key of a keyword is a part of its kind. -/
structure WrittenParam.Fits (w : WrittenParam) : Prop where
  type : w.param.type.AllFit
  name : ∀ s ∈ w.param.name, IsParamName s
  key : ∀ k, w.kind = .keyword k ∨ w.kind = .optionalKeyword k → IsKey k.toList

def Application.AllFit (names : TypeName → Prop) (a : Application) : Prop :=
  names a.name ∧ ∀ t ∈ a.args, t.AllFit

def RecordField.AllFit (f : RecordField) : Prop := IsKey f.key.toList ∧ f.type.AllFit

def FunctionType.AllFit (f : FunctionType) : Prop := f.Fits ∧ ∀ t ∈ f.types, t.AllFit

def Block.AllFit (b : Block) : Prop := b.Fits ∧ ∀ t ∈ b.types, t.AllFit

def TypeParam.AllFit (p : TypeParam) : Prop := p.Fits ∧ ∀ t ∈ p.types, t.AllFit

def MethodType.AllFit (m : MethodType) : Prop := m.Fits ∧ ∀ t ∈ m.types, t.AllFit

def Value.Fits : Value → Prop
  | .token k => k.terminal.Takes k.text.toList
  | .name _ | .methodKind _ => True
  | .type t | .binding t => t.AllFit
  | .types ts => ∀ t ∈ ts, t.AllFit
  | .field f => f.AllFit
  | .fields fs => ∀ f ∈ fs, f.AllFit
  | .param w => w.Fits
  | .moreParams ws | .params ws => ∀ w ∈ ws, w.Fits
  | .inner f s => f.AllFit ∧ ∀ t ∈ s, t.AllFit
  | .block b => b.AllFit
  | .typeParam p => p.AllFit
  | .typeParams ps => ∀ p ∈ ps, p.AllFit
  | .superclass a => a.AllFit TypeName.IsClass
  | .selfType a => a.AllFit TypeName.IsModule
  | .selfTypes as => ∀ a ∈ as, a.AllFit TypeName.IsModule
  | .methodName s => IsMethodName s
  | .methodType m => m.AllFit
  | .methodTypes ms => ∀ m ∈ ms, m.AllFit
  | .overloads ms more => (ms ≠ [] ∨ more = true) ∧ ∀ m ∈ ms, m.AllFit
  | .annotations as => ∀ a ∈ as, a.Fits
  | .member m => m.AllFit
  | .members ms => ∀ m ∈ ms, m.AllFit
  | .nestable d => (Declaration.nestable d).AllFit
  | .declaration d => d.AllFit
  | .declarations ds => ∀ d ∈ ds, d.AllFit

/-- What a symbol tells of its value in the state where it is pushed. -/
def Symbol.Tells (q : Nat) : Symbol → Value → Prop
  | .terminal t, v => t = lowerName → ∀ k, v = .token k → k.text ∉ reservedAt q
  | .nonterminal .className, v => ∀ n, v = .name n → n.IsClass
  | .nonterminal .interfacePath, v => ∀ n, v = .name n → n.IsInterface
  | .nonterminal .aliasName, v => ∀ n, v = .name n →
    n.IsAlias ∧ (n.path = [] → n.absolute = false → n.name ∉ reservedAt q)
  | .nonterminal .methodName, v => ∀ s, v = .methodName s → s ∉ reservedAt q
  | .nonterminal _, _ => True

structure Told (q : Nat) (x : Symbol) (v : Value) : Prop where
  means : x.Means v
  fits : v.Fits
  tells : x.Tells q v

/-! ## Parts that may be left out -/

/-- What is told of the parts that are found by their kind. -/
structure PartsFit (vs : List Value) : Prop where
  types : ∀ t ∈ typesIn vs, t.AllFit
  params : ∀ w ∈ paramsIn vs, w.Fits
  binding : ∀ t ∈ bindingIn? vs, t.AllFit
  block : ∀ b ∈ blockIn? vs, b.AllFit
  type : ∀ t ∈ typeIn? vs, t.AllFit
  typeParams : ∀ p ∈ typeParamsIn vs, p.AllFit
  superclass : ∀ a ∈ superclassIn? vs, a.AllFit TypeName.IsClass
  selfTypes : ∀ a ∈ selfTypesIn vs, a.AllFit TypeName.IsModule
  members : ∀ m ∈ membersIn vs, m.AllFit
  methodTypes : ∀ m ∈ methodTypesIn vs, m.AllFit
  token : ∀ t, ∀ s ∈ tokenIn? t vs, t.Takes s.toList

theorem partsFit {vs : List Value} (h : ∀ v ∈ vs, v.Fits) : PartsFit vs := by
  induction vs with
  | nil => constructor <;> simp [typesIn, paramsIn, bindingIn?, blockIn?, typeIn?, typeParamsIn,
      superclassIn?, selfTypesIn, membersIn, methodTypesIn, tokenIn?]
  | cons v vs ih =>
    obtain ⟨hv, hvs⟩ := List.forall_mem_cons.mp h
    have ih := ih hvs
    cases v with
    | types ts => exact { ih with types := hv }
    | params ws => exact { ih with params := hv }
    | binding t => exact { ih with binding := fun _ hu => Option.some.inj hu ▸ hv }
    | block b => exact { ih with block := fun _ hu => Option.some.inj hu ▸ hv }
    | type t =>
      refine { ih with type := fun u hu => ?_ }
      rcases Option.or_eq_some_iff.mp hu with hu | ⟨-, hu⟩
      · exact ih.type u hu
      · exact Option.some.inj hu ▸ hv
    | typeParams ps => exact { ih with typeParams := hv }
    | superclass a => exact { ih with superclass := fun _ hu => Option.some.inj hu ▸ hv }
    | selfTypes as => exact { ih with selfTypes := hv }
    | members ms => exact { ih with members := hv }
    | methodTypes ms => exact { ih with methodTypes := hv }
    | token k =>
      refine { ih with token := fun t s hs => ?_ }
      have hs : (if k.terminal = t then some k.text else tokenIn? t vs) = some s := hs
      split at hs
      · next hk => exact Option.some.inj hs ▸ hk ▸ hv
      · exact ih.token t s hs
    | _ => exact { ih with }

/-! ## Functions -/

namespace FunctionType

variable {f : FunctionType} {w : WrittenParam}

theorem mem_params_addParam {p : Param} (h : p ∈ (f.addParam w).params) :
    p = w.param ∨ p ∈ f.params := by
  obtain ⟨kind, param⟩ := w
  cases kind with
  | required =>
    simp only [addParam] at h
    split at h <;>
    · simp only [params, List.mem_append, List.mem_singleton] at h ⊢
      tauto
  | _ =>
    simp only [addParam, params, List.mem_append, List.map_append, List.map_singleton, Option.toList_some,
      List.mem_singleton] at h ⊢
    tauto

theorem key_of_mem_addParam {k : KeywordParam}
    (h : k ∈ (f.addParam w).requiredKeywords ++ (f.addParam w).optionalKeywords) :
    (w.kind = .keyword k.key ∨ w.kind = .optionalKeyword k.key) ∨
      k ∈ f.requiredKeywords ++ f.optionalKeywords := by
  obtain ⟨kind, param⟩ := w
  cases kind with
  | required =>
    simp only [addParam] at h
    split at h <;> exact .inr h
  | keyword key =>
    simp only [addParam, List.mem_append, List.mem_singleton] at h ⊢
    rcases h with (h | rfl) | h
    · exact .inr (.inl h)
    · exact .inl (.inl rfl)
    · exact .inr (.inr h)
  | optionalKeyword key =>
    simp only [addParam, List.mem_append, List.mem_singleton] at h ⊢
    rcases h with h | h | rfl
    · exact .inr (.inl h)
    · exact .inr (.inr h)
    · exact .inl (.inr rfl)
  | _ => exact .inr h

theorem trailing_addParam (h : f.trailing ≠ [] → f.rest.isSome ∨ f.optional ≠ []) :
    (f.addParam w).trailing ≠ [] → (f.addParam w).rest.isSome ∨ (f.addParam w).optional ≠ [] := by
  obtain ⟨kind, param⟩ := w
  cases kind with
  | required =>
    simp only [addParam]
    split
    · next hbehind =>
      rw [Bool.or_eq_true, Bool.not_eq_true', List.isEmpty_eq_false_iff] at hbehind
      exact fun _ => hbehind
    · exact h
  | _ => simp_all [addParam]

theorem returnType_addParam : (f.addParam w).returnType = f.returnType := by
  obtain ⟨kind, param⟩ := w
  cases kind <;> simp only [addParam]
  split <;> rfl

theorem AllFit.addParam (h : f.AllFit) (hw : w.Fits) : (f.addParam w).AllFit := by
  obtain ⟨⟨hnames, hkeys, htrailing⟩, htypes⟩ := h
  obtain ⟨hparams, hresult⟩ := List.forall_mem_append.mp htypes
  refine ⟨⟨fun p hp => ?_, fun k hk => ?_, trailing_addParam htrailing⟩,
    List.forall_mem_append.mpr ⟨List.forall_mem_map.mpr fun p hp => ?_, ?_⟩⟩
  · rcases mem_params_addParam hp with rfl | hp
    · exact hw.name
    · exact hnames p hp
  · rcases key_of_mem_addParam hk with hk | hk
    · exact hw.key k.key hk
    · exact hkeys k hk
  · rcases mem_params_addParam hp with rfl | hp
    · exact hw.type
    · exact hparams _ (List.mem_map_of_mem hp)
  · rw [returnType_addParam]
    exact hresult

theorem allFit_ofWritten {ws : List WrittenParam} {t : TypeExpr} (hws : ∀ w ∈ ws, w.Fits)
    (ht : t.AllFit) : (FunctionType.ofWritten ws t).AllFit := by
  have hnone : (FunctionType.returning t).AllFit := by
    refine ⟨⟨List.forall_mem_nil _, List.forall_mem_nil _, fun h => absurd rfl h⟩, ?_⟩
    exact List.forall_mem_singleton.mpr ht
  rw [FunctionType.ofWritten]
  induction ws using List.reverseRecOn with
  | nil => exact hnone
  | append_singleton ws w ih =>
    obtain ⟨hws, hw⟩ := List.forall_mem_append.mp hws
    rw [List.foldl_append]
    exact (ih hws).addParam (hw w List.mem_cons_self)

end FunctionType

/-! ## Types -/

theorem TypeExpr.AllFit.orElse {l r : TypeExpr} (hl : l.AllFit) (hr : r.AllFit) :
    (l.orElse r).AllFit := by
  by_cases hu : ∃ ts, l = .union ts
  · obtain ⟨ts, rfl⟩ := hu
    cases hl with
    | mk hfits hparts =>
      obtain ⟨a, b, us, rfl, ha⟩ := hfits
      exact .mk ⟨a, b, us ++ [r], rfl, ha⟩ (forall_mem_snoc hparts hr)
  · have he : l.orElse r = .union [l, r] := by
      cases l with
      | union ts => exact absurd ⟨ts, rfl⟩ hu
      | _ => rfl
    rw [he]
    refine .mk ⟨l, r, [], rfl, fun ts he => hu ⟨ts, he⟩⟩ ?_
    exact List.forall_mem_cons.mpr ⟨hl, List.forall_mem_singleton.mpr hr⟩

theorem TypeExpr.AllFit.andAlso {l r : TypeExpr} (hl : l.AllFit) (hr : r.AllFit) :
    (l.andAlso r).AllFit := by
  by_cases hu : ∃ ts, l = .intersection ts
  · obtain ⟨ts, rfl⟩ := hu
    cases hl with
    | mk hfits hparts =>
      obtain ⟨a, b, us, rfl, ha⟩ := hfits
      exact .mk ⟨a, b, us ++ [r], rfl, ha⟩ (forall_mem_snoc hparts hr)
  · have he : l.andAlso r = .intersection [l, r] := by
      cases l with
      | intersection ts => exact absurd ⟨ts, rfl⟩ hu
      | _ => rfl
    rw [he]
    refine .mk ⟨l, r, [], rfl, fun ts he => hu ⟨ts, he⟩⟩ ?_
    exact List.forall_mem_cons.mpr ⟨hl, List.forall_mem_singleton.mpr hr⟩

theorem TypeExpr.AllFit.record {fs : List RecordField} (hne : fs ≠ []) (h : ∀ f ∈ fs, f.AllFit) :
    (TypeExpr.record fs).AllFit :=
  .mk ⟨hne, fun f hf => (h f hf).1⟩ (List.forall_mem_map.mpr fun f hf => (h f hf).2)

theorem TypeExpr.AllFit.proc {f : FunctionType} {b : Option Block} {s : Option TypeExpr}
    (hf : f.AllFit) (hb : ∀ c ∈ b, c.AllFit) (hs : ∀ t ∈ s, t.AllFit) : (TypeExpr.proc f b s).AllFit := by
  refine .mk ⟨hf.1, fun c hc => (hb c hc).1⟩ (List.forall_mem_append.mpr ⟨List.forall_mem_append.mpr
    ⟨hf.2, ?_⟩, fun t ht => hs t (Option.mem_toList.mp ht)⟩)
  intro t ht
  obtain ⟨c, hc, ht⟩ := List.mem_flatMap.mp ht
  exact (hb c (Option.mem_toList.mp hc)).2 t ht

/-! ## Rules -/

/-- Whether `f` gives a value of which `M` holds for all that is told of the values of a body from the
state `q`. -/
def TotalFrom (M : Value → Prop) : (List Value → Option Value) → Nat → List Symbol → Prop
  | f, _, [] => ∃ v, f [] = some v ∧ M v
  | f, q, x :: xs => ∀ v, Told q x v → ∀ q', next? q x = some q' →
    TotalFrom M (fun vs => f (v :: vs)) q' xs

/-- Where neither the states nor the order of the parts matter. -/
theorem TotalFrom.of_forall {M : Value → Prop} {f : List Value → Option Value} {q : Nat}
    {xs : List Symbol} (h : ∀ vs, List.Forall₂ Symbol.Means xs vs → (∀ v ∈ vs, v.Fits) →
      ∃ v, f vs = some v ∧ M v) : TotalFrom M f q xs := by
  induction xs generalizing f q with
  | nil => exact h [] .nil (List.forall_mem_nil _)
  | cons x xs ih =>
    intro v hv q' _
    exact ih fun vs hmeans hvs =>
      h (v :: vs) (.cons hv.means hmeans) (List.forall_mem_cons.mpr ⟨hv.fits, hvs⟩)

/-- Whether what a rule builds is told all that its nonterminal tells, but for the kind. -/
def Rule.KeepsFit (r : Rule) : Prop :=
  ∀ name sp q, (next? q (.nonterminal r.shape.1)).isSome = true → ∀ body ∈ RulePart.bodies r.shape.2,
    TotalFrom (fun v => v.Fits ∧ (Symbol.nonterminal r.shape.1).Tells q v) (r.build name sp) q body

variable {q : Nat}

theorem forall_bodies_must {x : Symbol} {ps : List RulePart} {C : List Symbol → Prop}
    (h : ∀ body ∈ RulePart.bodies ps, C (x :: body)) : ∀ body ∈ RulePart.bodies (.must x :: ps), C body :=
  List.forall_mem_map.mpr h

theorem forall_bodies_may {xs : List Symbol} {ps : List RulePart} {C : List Symbol → Prop}
    (h : ∀ body ∈ RulePart.bodies ps, C (xs ++ body)) (h' : ∀ body ∈ RulePart.bodies ps, C body) :
    ∀ body ∈ RulePart.bodies (.may xs :: ps), C body :=
  List.forall_mem_append.mpr ⟨List.forall_mem_map.mpr h, h'⟩

theorem forall_bodies_nil {C : List Symbol → Prop} (h : C []) : ∀ body ∈ RulePart.bodies [], C body :=
  List.forall_mem_singleton.mpr h

/-! ### Names -/

/-- A name is told by its path and its last token. -/
theorem total_ofName {t : Terminal} {M : Value → Prop} (hlast : ∀ s : String, t.Takes s.toList → IsSegment s)
    (hM : ∀ n : TypeName, (∀ s ∈ n.path, IsUpperName s.toList) → t.Takes n.name.toList →
      (t = lowerName → n.path = [] → n.absolute = false → n.name ∉ reservedAt q) → M (.name n)) :
    ∀ body ∈ RulePart.bodies [.maybeToken namespacePath, .token t],
      TotalFrom M (fun vs => (TypeName.parse? (tokensText vs)).map .name) q body := by
  refine forall_bodies_may (forall_bodies_must (forall_bodies_nil ?_))
    (forall_bodies_must (forall_bodies_nil ?_))
  · rintro _ ⟨⟨path, _, rfl, hpath⟩, -, -⟩ _ _ _ ⟨⟨x, _, rfl, hx⟩, -, -⟩ _ _
    obtain ⟨n, hn, rfl, hs, hroot⟩ := parse?_path hlast (.inr hpath) hx
    refine ⟨.name n, ?_, hM n hs hx fun _ hnil habsolute => ?_⟩
    · show (TypeName.parse? (path ++ (n.name ++ ""))).map Value.name = _
      rw [String.append_empty, hn]
      rfl
    · have hne : path ≠ "" := fun he => hpath.1 (by rw [he]; rfl)
      rw [hroot hne hnil] at habsolute
      cases habsolute
  · rintro _ ⟨⟨x, _, rfl, hx⟩, -, htells⟩ _ _
    obtain ⟨n, hn, rfl, hs, -⟩ := parse?_path hlast (.inl rfl) hx
    refine ⟨.name n, ?_, hM n hs hx fun ht _ _ => htells ht _ rfl⟩
    show (TypeName.parse? (n.name ++ "")).map Value.name = _
    rw [String.append_empty, ← String.empty_append (s := n.name), hn]
    rfl

theorem keepsFit_className : Rule.KeepsFit .className := fun _ _ _ _ =>
  total_ofName (fun _ h => IsUpperName.segment h) fun _ hs hx _ =>
    ⟨trivial, fun _ he => Value.name.inj he ▸ ⟨hs, hx⟩⟩

theorem keepsFit_interfacePath : Rule.KeepsFit .interfacePath := fun _ _ _ _ =>
  total_ofName (fun _ h => IsInterfaceName.segment h) fun _ hs hx _ =>
    ⟨trivial, fun _ he => Value.name.inj he ▸ ⟨hs, hx⟩⟩

theorem keepsFit_aliasName : Rule.KeepsFit .aliasName := fun _ _ _ _ =>
  total_ofName (fun _ h => IsLowerName.segment h) fun _ hs hx hres =>
    ⟨trivial, fun _ he => Value.name.inj he ▸ ⟨⟨hs, hx⟩, hres rfl⟩⟩

/-- The reserved words look like lower-case names. -/
theorem word_of_reserved {w : String} (hw : w ∈ reservedAt q) : isWord w.toList = true := by
  have hall : (∀ w ∈ memberWords, isWord w.toList = true) ∧ ∀ w ∈ typeWords, isWord w.toList = true := by
    decide
  rw [reservedAt] at hw
  split at hw
  · exact hall.1 w hw
  · split at hw
    · exact hall.2 w hw
    · cases hw

theorem reservedAt_of_simple (h : (next? q (.nonterminal .simple)).isSome = true) :
    reservedAt q = typeWords := by
  have hbehind : behindTerminal (past q) = true := by
    refine Bool.of_not_eq_false fun hb => ?_
    rw [next?, Option.isSome_bind, Option.any_eq_true] at h
    obtain ⟨row, hrow, h⟩ := h
    have hcheck := reservesAt_of_row? hrow
    simp only [reservesAt, hb, cond_false, Bool.and_eq_true, h, Bool.not_true] at hcheck
    cases hcheck.1
  rw [reservedAt, behindTypeOrName_eq_false hbehind, if_neg Bool.false_ne_true, if_pos h]

theorem reservedAt_behind {q' : Nat} {m : Nonterminal} (h : next? q (.nonterminal m) = some q')
    (hm : m = .type ∨ m = .methodName) : reservedAt q' = memberWords := by
  have hbehind : behindTypeOrName (past q') = true := by
    rw [behindTypeOrName, head?_past h]
    rcases hm with rfl | rfl <;> decide
  rw [reservedAt, if_pos hbehind]

theorem isLower_eq_false {c : Char} (h : c.isUpper = true) : c.isLower = false := by
  refine Bool.eq_false_iff.mpr fun hlower => ?_
  have hupper : 65 ≤ c.toNat ∧ c.toNat ≤ 90 := of_decide_eq_true h
  have hrange : (decide (97 ≤ c.toNat) && decide (c.toNat ≤ 122)) = true := hlower
  rw [Bool.and_eq_true, decide_eq_true_eq, decide_eq_true_eq] at hrange
  omega

theorem isWord_eq_false {x : List Char} (h : ∀ c ∈ x.head?, c.isLower = false) : isWord x = false := by
  cases x with
  | nil => rfl
  | cons c cs => rw [isWord, h c rfl, Bool.false_and]

theorem keepsFit_methodName : ∀ r ∈ [Rule.lowerMethodName, .upperMethodName, .suffixedMethodName,
    .operatorMethodName], r.KeepsFit := by
  have hone : ∀ {r : Rule} {t : Terminal}, r.shape = (.methodName, [.token t]) →
      (∀ name sp x s, r.build name sp [.token ⟨t, x, s⟩] = some (.methodName x)) →
      (∀ x : String, t.Takes x.toList → IsMethodName x ∧ (t = lowerName ∨ isWord x.toList = false)) →
      r.KeepsFit := by
    intro r t hshape hbuild ht name sp q _
    rw [hshape]
    refine forall_bodies_must (forall_bodies_nil ?_)
    rintro _ ⟨⟨x, s, rfl, hx⟩, -, htells⟩ _ _
    obtain ⟨hname, hword⟩ := ht x hx
    refine ⟨.methodName x, hbuild name sp x s, hname, fun y he hy => ?_⟩
    obtain rfl := Value.methodName.inj he
    rcases hword with hlower | hword
    · exact htells hlower _ rfl hy
    · rw [word_of_reserved hy] at hword
      cases hword
  have hupper : ∀ x : String, IsUpperName x.toList → isWord x.toList = false := by
    rintro x ⟨c, cs, hx, hc, -⟩
    rw [hx]
    refine isWord_eq_false fun d hd => ?_
    obtain rfl := Option.some.inj hd
    exact isLower_eq_false hc
  have hsuffixed : ∀ x : String, IsSuffixedName x.toList → isWord x.toList = false := by
    rintro x ⟨y, s, hx, -, hs⟩
    refine Bool.eq_false_iff.mpr fun hword => ?_
    have hname := (isLowerName_of_isWord hword).nameChars s (by rw [hx]; simp)
    rw [isSuffix, Bool.or_eq_true, Bool.or_eq_true, beq_iff_eq, beq_iff_eq, beq_iff_eq] at hs
    rcases hs with (rfl | rfl) | rfl <;> exact absurd hname (by decide)
  intro r hr
  simp only [List.mem_cons, List.not_mem_nil, or_false] at hr
  rcases hr with rfl | rfl | rfl | rfl
  · exact hone (t := lowerName) rfl (fun _ _ _ _ => rfl) fun x hx => ⟨.inl hx, .inl rfl⟩
  · exact hone (t := upperName) rfl (fun _ _ _ _ => rfl) fun x hx => ⟨.inr (.inl hx), .inr (hupper x hx)⟩
  · exact hone (t := suffixedName) rfl (fun _ _ _ _ => rfl)
      fun x hx => ⟨.inr (.inr (.inl hx)), .inr (hsuffixed x hx)⟩
  · refine hone (t := operator) rfl (fun _ _ _ _ => rfl) fun x hx => ?_
    obtain ⟨o, ho, hx⟩ := hx
    obtain rfl := String.toList_inj.mp hx
    exact ⟨.inr (.inr (.inr ho)), .inr ((by decide : ∀ o ∈ operators, isWord o.toList = false) _ ho)⟩

/-! ### Types -/

theorem keepsFit_head : ∀ r ∈ [Rule.root, .classBody, .moduleBody, .interfaceBody, .aliasBody,
    .constantBody, .globalBody, .methodBody, .attributeBody, .mixinBody, .variableBody, .aliasMemberBody,
    .visibilityBody, .nestedClassBody, .nestedModuleBody, .nestedInterfaceBody, .nestedAliasBody,
    .nestedConstantBody, .type, .plainUnion, .plainIntersection, .plainOptional], r.KeepsFit := by
  intro r hr
  simp only [List.mem_cons, List.not_mem_nil, or_false] at hr
  rcases hr with rfl | rfl | rfl | rfl | rfl | rfl | rfl | rfl | rfl | rfl | rfl | rfl | rfl | rfl | rfl |
    rfl | rfl | rfl | rfl | rfl | rfl | rfl <;>
  exact fun _ _ _ _ => forall_bodies_must (forall_bodies_nil fun v hv _ _ => ⟨v, rfl, hv.fits, trivial⟩)

theorem keepsFit_applied : ∀ r ∈ [Rule.classInstance, .interfaceInstance, .aliasUse], r.KeepsFit := by
  intro r hr
  simp only [List.mem_cons, List.not_mem_nil, or_false] at hr
  rcases hr with rfl | rfl | rfl
  · rintro _ _ q _
    refine forall_bodies_must fun body _ => ?_
    rintro _ ⟨⟨n, rfl⟩, -, htells⟩ _ _
    exact .of_forall fun vs _ hvs =>
      ⟨_, rfl, .mk (htells n rfl) (partsFit hvs).types, trivial⟩
  · rintro _ _ q _
    refine forall_bodies_must fun body _ => ?_
    rintro _ ⟨⟨n, rfl⟩, -, htells⟩ _ _
    exact .of_forall fun vs _ hvs =>
      ⟨_, rfl, .mk (htells n rfl) (partsFit hvs).types, trivial⟩
  · rintro _ _ q hq
    refine forall_bodies_must fun body _ => ?_
    rintro _ ⟨⟨n, rfl⟩, -, htells⟩ _ _
    have hn := htells n rfl
    rw [reservedAt_of_simple hq] at hn
    exact .of_forall fun vs _ hvs => ⟨_, rfl, .mk hn (partsFit hvs).types, trivial⟩

theorem keepsFit_literal : ∀ r ∈ [Rule.stringLiteral, .symbolLiteral, .integerLiteral], r.KeepsFit := by
  intro r hr
  simp only [List.mem_cons, List.not_mem_nil, or_false] at hr
  rcases hr with rfl | rfl | rfl
  · refine fun _ _ _ _ => forall_bodies_must (forall_bodies_nil ?_)
    rintro _ ⟨⟨x, _, rfl, hx⟩, -, -⟩ _ _
    exact ⟨_, rfl, .mk (.inl hx) (List.forall_mem_nil _), trivial⟩
  · refine fun _ _ _ _ => forall_bodies_must (forall_bodies_nil ?_)
    rintro _ ⟨⟨x, _, rfl, hx⟩, -, -⟩ _ _
    exact ⟨_, rfl, .mk (.inr (or_assoc.mp (.inl hx))) (List.forall_mem_nil _), trivial⟩
  · refine fun _ _ _ _ => forall_bodies_must (forall_bodies_nil ?_)
    rintro _ ⟨⟨x, _, rfl, hx⟩, -, -⟩ _ _
    exact ⟨_, rfl, .mk (.inr (.inr (.inr hx))) (List.forall_mem_nil _), trivial⟩

/-! ### Lists -/

/-- A list that starts behind a sign. -/
theorem keepsFit_one : ∀ r ∈ [Rule.moreTypes, .moreTypeParameters, .moreParameters, .moreRecordFields,
    .moreSelfTypes, .moreMethodTypes], r.KeepsFit := by
  intro r hr
  simp only [List.mem_cons, List.not_mem_nil, or_false] at hr
  rcases hr with rfl | rfl | rfl | rfl | rfl | rfl <;>
  · refine fun _ _ _ _ => forall_bodies_must (forall_bodies_must (forall_bodies_nil ?_))
    rintro _ ⟨⟨_, _, rfl, _⟩, -, -⟩ _ _ _ ⟨⟨a, rfl⟩, ha, -⟩ _ _
    exact ⟨_, rfl, List.forall_mem_singleton.mpr ha, trivial⟩

/-- A list that goes on behind a sign. -/
theorem keepsFit_more : ∀ r ∈ [Rule.moreTypesMore, .moreTypeParametersMore, .moreParametersMore,
    .moreRecordFieldsMore, .moreSelfTypesMore, .moreMethodTypesMore], r.KeepsFit := by
  intro r hr
  simp only [List.mem_cons, List.not_mem_nil, or_false] at hr
  rcases hr with rfl | rfl | rfl | rfl | rfl | rfl <;>
  · refine fun _ _ _ _ => forall_bodies_must (forall_bodies_must (forall_bodies_must
      (forall_bodies_nil ?_)))
    rintro _ ⟨⟨as, rfl⟩, has, -⟩ _ _ _ ⟨⟨_, _, rfl, _⟩, -, -⟩ _ _ _ ⟨⟨a, rfl⟩, ha, -⟩ _ _
    exact ⟨_, rfl, forall_mem_snoc has ha, trivial⟩

/-- A list without signs. -/
theorem keepsFit_first : ∀ r ∈ [Rule.declarations, .members], r.KeepsFit := by
  intro r hr
  simp only [List.mem_cons, List.not_mem_nil, or_false] at hr
  rcases hr with rfl | rfl <;>
  · refine fun _ _ _ _ => forall_bodies_must (forall_bodies_nil ?_)
    rintro _ ⟨⟨a, rfl⟩, ha, -⟩ _ _
    exact ⟨_, rfl, List.forall_mem_singleton.mpr ha, trivial⟩

theorem keepsFit_next : ∀ r ∈ [Rule.declarationsMore, .membersMore], r.KeepsFit := by
  intro r hr
  simp only [List.mem_cons, List.not_mem_nil, or_false] at hr
  rcases hr with rfl | rfl <;>
  · refine fun _ _ _ _ => forall_bodies_must (forall_bodies_must (forall_bodies_nil ?_))
    rintro _ ⟨⟨as, rfl⟩, has, -⟩ _ _ _ ⟨⟨a, rfl⟩, ha, -⟩ _ _
    exact ⟨_, rfl, forall_mem_snoc has ha, trivial⟩

/-! ### Types -/

/-- The types with brackets or signs around them. -/
theorem keepsFit_enclosed : ∀ r ∈ [Rule.classSingleton, .base, .parenthesized, .emptyTuple, .tuple,
    .typeArguments], r.KeepsFit := by
  intro r hr
  simp only [List.mem_cons, List.not_mem_nil, or_false] at hr
  rcases hr with rfl | rfl | rfl | rfl | rfl | rfl
  · refine fun _ _ _ _ => forall_bodies_must (forall_bodies_must (forall_bodies_must
      (forall_bodies_must (forall_bodies_nil ?_))))
    rintro _ ⟨⟨_, _, rfl, _⟩, -, -⟩ _ _ _ ⟨⟨_, _, rfl, _⟩, -, -⟩ _ _ _ ⟨⟨n, rfl⟩, -, hn⟩ _ _ _
      ⟨⟨_, _, rfl, _⟩, -, -⟩ _ _
    exact ⟨_, rfl, .mk (hn n rfl) (List.forall_mem_nil _), trivial⟩
  · refine fun _ _ _ _ => forall_bodies_must (forall_bodies_nil ?_)
    rintro _ ⟨⟨x, _, rfl, hx⟩, -, -⟩ _ _
    exact Total.of_map (isSome_of_takes (t := baseType) id (by decide) hx) fun w =>
      ⟨.mk trivial (List.forall_mem_nil _), trivial⟩
  · refine fun _ _ _ _ => forall_bodies_must (forall_bodies_must (forall_bodies_must
      (forall_bodies_nil ?_)))
    rintro _ ⟨⟨_, _, rfl, _⟩, -, -⟩ _ _ _ ⟨⟨t, rfl⟩, ht, -⟩ _ _ _ ⟨⟨_, _, rfl, _⟩, -, -⟩ _ _
    exact ⟨_, rfl, ht, trivial⟩
  · exact fun _ _ _ _ => forall_bodies_must (forall_bodies_must (forall_bodies_nil
      (.of_forall fun vs _ _ => ⟨_, rfl, .mk trivial (List.forall_mem_nil _), trivial⟩)))
  · refine fun _ _ _ _ => forall_bodies_must (forall_bodies_must fun body _ => ?_)
    rintro _ ⟨⟨_, _, rfl, _⟩, -, -⟩ _ _ _ ⟨⟨t, rfl⟩, ht, -⟩ _ _
    exact .of_forall fun vs _ hvs =>
      ⟨_, rfl, .mk trivial (List.forall_mem_cons.mpr ⟨ht, (partsFit hvs).types⟩), trivial⟩
  · refine fun _ _ _ _ => forall_bodies_must (forall_bodies_must fun body _ => ?_)
    rintro _ ⟨⟨_, _, rfl, _⟩, -, -⟩ _ _ _ ⟨⟨t, rfl⟩, ht, -⟩ _ _
    exact .of_forall fun vs _ hvs =>
      ⟨_, rfl, List.forall_mem_cons.mpr ⟨ht, (partsFit hvs).types⟩, trivial⟩

theorem keepsFit_operands : ∀ r ∈ [Rule.union, .intersection, .optional], r.KeepsFit := by
  intro r hr
  simp only [List.mem_cons, List.not_mem_nil, or_false] at hr
  rcases hr with rfl | rfl | rfl
  · refine fun _ _ _ _ => forall_bodies_must (forall_bodies_must (forall_bodies_must
      (forall_bodies_nil ?_)))
    rintro _ ⟨⟨l, rfl⟩, hl, -⟩ _ _ _ ⟨⟨_, _, rfl, _⟩, -, -⟩ _ _ _ ⟨⟨r, rfl⟩, hr, -⟩ _ _
    exact ⟨_, rfl, TypeExpr.AllFit.orElse hl hr, trivial⟩
  · refine fun _ _ _ _ => forall_bodies_must (forall_bodies_must (forall_bodies_must
      (forall_bodies_nil ?_)))
    rintro _ ⟨⟨l, rfl⟩, hl, -⟩ _ _ _ ⟨⟨_, _, rfl, _⟩, -, -⟩ _ _ _ ⟨⟨r, rfl⟩, hr, -⟩ _ _
    exact ⟨_, rfl, TypeExpr.AllFit.andAlso hl hr, trivial⟩
  · refine fun _ _ _ _ => forall_bodies_must (forall_bodies_must (forall_bodies_nil ?_))
    rintro _ ⟨⟨t, rfl⟩, ht, -⟩ _ _ _ ⟨⟨_, _, rfl, _⟩, -, -⟩ _ _
    exact ⟨_, rfl, .mk trivial (List.forall_mem_singleton.mpr ht), trivial⟩

theorem isKey_of_takes {x : String} (h : label.Takes x.toList) : IsKey (dropLast x).toList := by
  obtain ⟨k, hx, hk⟩ := h
  rw [dropLast, hx, List.dropLast_concat, String.toList_ofList]
  exact hk

theorem keepsFit_record : ∀ r ∈ [Rule.recordField, .optionalRecordField, .record], r.KeepsFit := by
  intro r hr
  simp only [List.mem_cons, List.not_mem_nil, or_false] at hr
  rcases hr with rfl | rfl | rfl
  · refine fun _ _ _ _ => forall_bodies_must (forall_bodies_must (forall_bodies_nil ?_))
    rintro _ ⟨⟨_, _, rfl, hx⟩, -, -⟩ _ _ _ ⟨⟨t, rfl⟩, ht, -⟩ _ _
    exact ⟨_, rfl, ⟨isKey_of_takes hx, ht⟩, trivial⟩
  · refine fun _ _ _ _ => forall_bodies_must (forall_bodies_must (forall_bodies_must
      (forall_bodies_nil ?_)))
    rintro _ ⟨⟨_, _, rfl, _⟩, -, -⟩ _ _ _ ⟨⟨_, _, rfl, hx⟩, -, -⟩ _ _ _ ⟨⟨t, rfl⟩, ht, -⟩ _ _
    exact ⟨_, rfl, ⟨isKey_of_takes hx, ht⟩, trivial⟩
  · refine fun _ _ _ _ => forall_bodies_must (forall_bodies_must (forall_bodies_may
      (forall_bodies_must (forall_bodies_nil ?_)) (forall_bodies_must (forall_bodies_nil ?_))))
    · rintro _ ⟨⟨_, _, rfl, _⟩, -, -⟩ _ _ _ ⟨⟨f, rfl⟩, hf, -⟩ _ _ _ ⟨⟨fs, rfl⟩, hfs, -⟩ _ _ _
        ⟨⟨_, _, rfl, _⟩, -, -⟩ _ _
      exact ⟨_, rfl, TypeExpr.AllFit.record (List.cons_ne_nil _ _)
        (List.forall_mem_cons.mpr ⟨hf, hfs⟩), trivial⟩
    · rintro _ ⟨⟨_, _, rfl, _⟩, -, -⟩ _ _ _ ⟨⟨f, rfl⟩, hf, -⟩ _ _ _ ⟨⟨_, _, rfl, _⟩, -, -⟩ _ _
      exact ⟨_, rfl, TypeExpr.AllFit.record (List.cons_ne_nil _ _)
        (List.forall_mem_singleton.mpr hf), trivial⟩

/-! ### Functions -/

/-- The last part is told by the last symbol. -/
theorem getLast?_of_means {xs : List Symbol} {vs : List Value} (h : List.Forall₂ Symbol.Means xs vs)
    {x : Symbol} (hx : xs.getLast? = some x) : ∃ v, vs.getLast? = some v ∧ x.Means v ∧ v ∈ vs := by
  induction h with
  | nil => cases hx
  | @cons y v ys vs hy hys ih =>
    cases hys with
    | nil =>
      obtain rfl := Option.some.inj hx
      exact ⟨v, rfl, hy, List.mem_cons_self⟩
    | cons hz hzs =>
      obtain ⟨u, hu, hm, hmem⟩ := ih hx
      exact ⟨u, hu, hm, List.mem_cons_of_mem _ hmem⟩

/-- The rules that end with what a function returns. -/
theorem keepsFit_returns : ∀ r ∈ [Rule.proc, .blockInner, .methodType], r.KeepsFit := by
  have hlast : ∀ r ∈ [Rule.proc, .blockInner, .methodType], ∀ body ∈ RulePart.bodies r.shape.2,
      body.getLast? = some (.nonterminal .optional) := by decide
  intro r hr name sp q _ body hbody
  refine .of_forall fun vs hmeans hvs => ?_
  obtain ⟨_, hv, ⟨t, rfl⟩, hmem⟩ := getLast?_of_means hmeans (hlast r hr body hbody)
  have hparts := partsFit hvs
  have hf := FunctionType.allFit_ofWritten hparts.params (hvs _ hmem)
  simp only [List.mem_cons, List.not_mem_nil, or_false] at hr
  rcases hr with rfl | rfl | rfl
  · refine ⟨.type (.proc (.ofWritten (paramsIn vs) t) (blockIn? vs) (bindingIn? vs)), ?_,
      TypeExpr.AllFit.proc hf hparts.block hparts.binding, trivial⟩
    simp only [Rule.build, hv]
  · refine ⟨.inner (.ofWritten (paramsIn vs) t) (bindingIn? vs), ?_, ⟨hf, hparts.binding⟩, trivial⟩
    simp only [Rule.build, hv]
  · refine ⟨.methodType ⟨.ofWritten (paramsIn vs) t, blockIn? vs, typeParamsIn vs⟩, ?_,
      ⟨⟨hf.1, fun b hb => (hparts.block b hb).1, fun p hp => (hparts.typeParams p hp).1⟩, ?_⟩, trivial⟩
    · simp only [Rule.build, hv]
    · simp only [MethodType.types, List.forall_mem_append, List.forall_mem_flatMap]
      exact ⟨⟨hf.2, fun b hb => (hparts.block b (Option.mem_toList.mp hb)).2⟩,
        fun p hp => (hparts.typeParams p hp).2⟩

theorem keepsFit_blocks : ∀ r ∈ [Rule.block, .optionalBlock, .selfBinding], r.KeepsFit := by
  have hblock : ∀ {f : FunctionType} {s : Option TypeExpr} (required : Bool),
      Value.Fits (.inner f s) → Value.Fits (.block ⟨f, required, s⟩) := fun _ h =>
    ⟨h.1.1, List.forall_mem_append.mpr ⟨h.1.2, fun t ht => h.2 t (Option.mem_toList.mp ht)⟩⟩
  intro r hr
  simp only [List.mem_cons, List.not_mem_nil, or_false] at hr
  rcases hr with rfl | rfl | rfl
  · refine fun _ _ _ _ => forall_bodies_must (forall_bodies_must (forall_bodies_must
      (forall_bodies_nil ?_)))
    rintro _ ⟨⟨_, _, rfl, _⟩, -, -⟩ _ _ _ ⟨⟨f, s, rfl⟩, hf, -⟩ _ _ _ ⟨⟨_, _, rfl, _⟩, -, -⟩ _ _
    exact ⟨_, rfl, hblock true hf, trivial⟩
  · refine fun _ _ _ _ => forall_bodies_must (forall_bodies_must (forall_bodies_must
      (forall_bodies_must (forall_bodies_nil ?_))))
    rintro _ ⟨⟨_, _, rfl, _⟩, -, -⟩ _ _ _ ⟨⟨_, _, rfl, _⟩, -, -⟩ _ _ _ ⟨⟨f, s, rfl⟩, hf, -⟩ _ _ _
      ⟨⟨_, _, rfl, _⟩, -, -⟩ _ _
    exact ⟨_, rfl, hblock false hf, trivial⟩
  · refine fun _ _ _ _ => forall_bodies_must (forall_bodies_must (forall_bodies_must
      (forall_bodies_must (forall_bodies_must (forall_bodies_nil ?_)))))
    rintro _ ⟨⟨_, _, rfl, _⟩, -, -⟩ _ _ _ ⟨⟨_, _, rfl, _⟩, -, -⟩ _ _ _ ⟨⟨_, _, rfl, _⟩, -, -⟩ _ _ _
      ⟨⟨t, rfl⟩, ht, -⟩ _ _ _ ⟨⟨_, _, rfl, _⟩, -, -⟩ _ _
    exact ⟨_, rfl, ht, trivial⟩

theorem keepsFit_groups : ∀ r ∈ [Rule.noParameters, .oneParameter, .manyParameters], r.KeepsFit := by
  intro r hr
  simp only [List.mem_cons, List.not_mem_nil, or_false] at hr
  rcases hr with rfl | rfl | rfl
  · exact fun _ _ _ _ => forall_bodies_must (forall_bodies_must (forall_bodies_nil
      (.of_forall fun vs _ _ => ⟨_, rfl, List.forall_mem_nil _, trivial⟩)))
  · refine fun _ _ _ _ => forall_bodies_must (forall_bodies_must (forall_bodies_must
      (forall_bodies_nil ?_)))
    rintro _ ⟨⟨_, _, rfl, _⟩, -, -⟩ _ _ _ ⟨⟨w, rfl⟩, hw, -⟩ _ _ _ ⟨⟨_, _, rfl, _⟩, -, -⟩ _ _
    exact ⟨_, rfl, List.forall_mem_singleton.mpr hw, trivial⟩
  · refine fun _ _ _ _ => forall_bodies_must (forall_bodies_must (forall_bodies_must
      (forall_bodies_must (forall_bodies_nil ?_))))
    rintro _ ⟨⟨_, _, rfl, _⟩, -, -⟩ _ _ _ ⟨⟨w, rfl⟩, hw, -⟩ _ _ _ ⟨⟨ws, rfl⟩, hws, -⟩ _ _ _
      ⟨⟨_, _, rfl, _⟩, -, -⟩ _ _
    exact ⟨_, rfl, List.forall_mem_cons.mpr ⟨hw, hws⟩, trivial⟩

/-- A type with a name behind it, where no member may start. -/
theorem total_named {M : Value → Prop} {f : List Value → Option Value}
    (h : ∀ t : TypeExpr, t.AllFit → (∃ v, f [.type t] = some v ∧ M v) ∧
      ∀ x s, IsParamName x → ∃ v, f [.type t, .token ⟨lowerName, x, s⟩] = some v ∧ M v) :
    ∀ body ∈ RulePart.bodies [.one .type, .maybeToken lowerName], TotalFrom M f q body := by
  refine forall_bodies_must (forall_bodies_may (forall_bodies_nil ?_) (forall_bodies_nil ?_))
  · rintro _ ⟨⟨t, rfl⟩, ht, -⟩ q' hq _ ⟨⟨x, s, rfl, hx⟩, -, hres⟩ _ _
    have hnot := hres rfl _ rfl
    rw [reservedAt_behind hq (.inl rfl)] at hnot
    exact (h t ht).2 x s ⟨hx, hnot⟩
  · rintro _ ⟨⟨t, rfl⟩, ht, -⟩ _ _
    exact (h t ht).1

/-- Parameters but for keywords. -/
theorem keepsFit_positional : ∀ r ∈ [Rule.required, .optionalPositional, .rest, .restKeywords],
    r.KeepsFit := by
  have hfits : ∀ {kind : ParamKind} {t : TypeExpr} {x : Option String}, t.AllFit →
      (∀ s ∈ x, IsParamName s) → (∀ k, kind ≠ .keyword k ∧ kind ≠ .optionalKeyword k) →
      Value.Fits (.param ⟨kind, t, x⟩) := fun ht hx hkind =>
    ⟨ht, hx, fun k hk => absurd hk (not_or.mpr (hkind k))⟩
  have hnone : ∀ s ∈ (none : Option String), IsParamName s := fun _ hs => nomatch hs
  have hsome : ∀ {x : String}, IsParamName x → ∀ s ∈ some x, IsParamName s :=
    fun hx _ hs => Option.some.inj hs ▸ hx
  intro r hr
  simp only [List.mem_cons, List.not_mem_nil, or_false] at hr
  rcases hr with rfl | hr
  · exact fun _ _ _ _ => total_named fun t ht =>
      ⟨⟨_, rfl, hfits ht hnone (fun _ => ⟨nofun, nofun⟩), trivial⟩,
        fun x s hx => ⟨_, rfl, hfits ht (hsome hx) (fun _ => ⟨nofun, nofun⟩), trivial⟩⟩
  · rcases hr with rfl | rfl | rfl <;>
    · intro _ _ _ _
      refine forall_bodies_must fun body hbody => ?_
      rintro _ ⟨⟨_, _, rfl, _⟩, -, -⟩ _ _
      exact total_named (fun t ht =>
        ⟨⟨_, rfl, hfits ht hnone (fun _ => ⟨nofun, nofun⟩), trivial⟩,
          fun x s hx => ⟨_, rfl, hfits ht (hsome hx) (fun _ => ⟨nofun, nofun⟩), trivial⟩⟩) body hbody

theorem keepsFit_keywords : ∀ r ∈ [Rule.keyword, .optionalKeyword], r.KeepsFit := by
  have hnone : ∀ s ∈ (none : Option String), IsParamName s := fun _ hs => nomatch hs
  have hsome : ∀ {x : String}, IsParamName x → ∀ s ∈ some x, IsParamName s :=
    fun hx _ hs => Option.some.inj hs ▸ hx
  intro r hr
  simp only [List.mem_cons, List.not_mem_nil, or_false] at hr
  rcases hr with rfl | rfl
  · intro _ _ _ _
    refine forall_bodies_must fun body hbody => ?_
    rintro _ ⟨⟨key, _, rfl, hkey⟩, -, -⟩ _ _
    have hk : ∀ k, ParamKind.keyword (dropLast key) = .keyword k ∨
        ParamKind.keyword (dropLast key) = .optionalKeyword k → IsKey k.toList := by
      rintro k (h | h) <;> cases h
      exact isKey_of_takes hkey
    exact total_named (fun t ht => ⟨⟨_, rfl, ⟨ht, hnone, hk⟩, trivial⟩,
      fun x s hx => ⟨_, rfl, ⟨ht, hsome hx, hk⟩, trivial⟩⟩) body hbody
  · intro _ _ _ _
    refine forall_bodies_must (forall_bodies_must fun body hbody => ?_)
    rintro _ ⟨⟨_, _, rfl, _⟩, -, -⟩ _ _ _ ⟨⟨key, _, rfl, hkey⟩, -, -⟩ _ _
    have hk : ∀ k, ParamKind.optionalKeyword (dropLast key) = .keyword k ∨
        ParamKind.optionalKeyword (dropLast key) = .optionalKeyword k → IsKey k.toList := by
      rintro k (h | h) <;> cases h
      exact isKey_of_takes hkey
    exact total_named (fun t ht => ⟨⟨_, rfl, ⟨ht, hnone, hk⟩, trivial⟩,
      fun x s hx => ⟨_, rfl, ⟨ht, hsome hx, hk⟩, trivial⟩⟩) body hbody

/-! ### Generic methods -/

theorem isSome_tokenIn? {xs : List Symbol} {vs : List Value} (h : List.Forall₂ Symbol.Means xs vs)
    {t : Terminal} (ht : .terminal t ∈ xs) : (tokenIn? t vs).isSome = true := by
  induction h with
  | nil => cases ht
  | @cons x v xs vs hx _ ih =>
    have hcons : (tokenIn? t vs).isSome = true → (tokenIn? t (v :: vs)).isSome = true := by
      intro hs
      cases v with
      | token k =>
        rw [tokenIn?]
        split
        · rfl
        · exact hs
      | _ => exact hs
    rcases List.mem_cons.mp ht with rfl | ht
    · obtain ⟨y, s, rfl, -⟩ := hx
      rw [tokenIn?, if_pos rfl]
      rfl
    · exact hcons (ih ht)

theorem keepsFit_typeParameters : ∀ r ∈ [Rule.typeParameter, .typeParameters], r.KeepsFit := by
  have hupper : ∀ body ∈ RulePart.bodies Rule.typeParameter.shape.2,
      Symbol.terminal upperName ∈ body := by decide
  intro r hr
  simp only [List.mem_cons, List.not_mem_nil, or_false] at hr
  rcases hr with rfl | rfl
  · intro _ _ _ _ body hbody
    refine .of_forall fun vs hmeans hvs => ?_
    have hparts := partsFit hvs
    obtain ⟨x, hx⟩ := Option.isSome_iff_exists.mp (isSome_tokenIn? hmeans (hupper body hbody))
    simp only [Rule.build, hx, Option.map_some]
    exact ⟨_, rfl, ⟨hparts.token upperName x hx, fun t ht => hparts.type t (Option.mem_toList.mp ht)⟩,
      trivial⟩
  · refine fun _ _ _ _ => forall_bodies_must (forall_bodies_must fun body _ => ?_)
    rintro _ ⟨⟨_, _, rfl, _⟩, -, -⟩ _ _ _ ⟨⟨p, rfl⟩, hp, -⟩ _ _
    exact .of_forall fun vs _ hvs =>
      ⟨_, rfl, List.forall_mem_cons.mpr ⟨hp, (partsFit hvs).typeParams⟩, trivial⟩

theorem keepsFit_overloads : ∀ r ∈ [Rule.methodTypes, .onlyDots], r.KeepsFit := by
  intro r hr
  simp only [List.mem_cons, List.not_mem_nil, or_false] at hr
  rcases hr with rfl | rfl
  · refine fun _ _ _ _ => forall_bodies_must fun body _ => ?_
    rintro _ ⟨⟨m, rfl⟩, hm, -⟩ _ _
    exact .of_forall fun vs _ hvs => ⟨_, rfl, ⟨.inl (List.cons_ne_nil _ _),
      List.forall_mem_cons.mpr ⟨hm, (partsFit hvs).methodTypes⟩⟩, trivial⟩
  · exact fun _ _ _ _ => forall_bodies_must (forall_bodies_nil
      (.of_forall fun vs _ _ => ⟨_, rfl, ⟨.inr rfl, List.forall_mem_nil _⟩, trivial⟩))

end RbsSynth.Signature
