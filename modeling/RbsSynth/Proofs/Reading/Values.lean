import RbsSynth.Proofs.Reading.TypeNames
import RbsSynth.Proofs.Scanning.Taken
import RbsSynth.Proofs.Table.Soundness

/-!
# The kinds of values

`X.Means v` says that `v` is such a value as the symbol `X` has.

    the parts of a rule's body mean their symbols  →  the rule builds a value that means its nonterminal
                                                                              (Rule.total)
    Derives name X b w n,  every token in w looks as its terminal does  →  X.Means n.value
                                                                              (Derives.means)
-/

namespace RbsSynth.Signature

open Terminal

/-- What the values of a nonterminal are. -/
def Nonterminal.Means : Nonterminal → Value → Prop
  | .root, v | .file, v | .declarations, v => ∃ ds, v = .declarations ds
  | .declaration, v | .globalDeclaration, v => ∃ d, v = .declaration d
  | .annotations, v | .annotationTokens, v => ∃ as, v = .annotations as
  | .declarationBody, v => (∃ d, v = .nestable d) ∨ ∃ d, v = .declaration d
  | .classDeclaration, v | .moduleDeclaration, v | .interfaceDeclaration, v | .aliasDeclaration, v
  | .constantDeclaration, v => ∃ d, v = .nestable d
  | .superclass, v => ∃ a, v = .superclass a
  | .selfTypes, v | .moreSelfTypes, v => ∃ as, v = .selfTypes as
  | .selfType, v => ∃ a, v = .selfType a
  | .members, v => ∃ ms, v = .members ms
  | .member, v | .methodMember, v | .attributeMember, v | .mixinMember, v | .variableMember, v
  | .aliasMember, v | .visibilityMember, v => ∃ m, v = .member m
  | .memberBody, v => (∃ m, v = .member m) ∨ ∃ d, v = .nestable d
  | .methodKind, v => ∃ k, v = .methodKind k
  | .methodName, v => ∃ s, v = .methodName s
  | .methodTypes, v => ∃ ms more, v = .overloads ms more
  | .moreMethodTypes, v => ∃ ms, v = .methodTypes ms
  | .methodType, v => ∃ m, v = .methodType m
  | .parameterGroup, v => ∃ ps, v = .params ps
  | .moreParameters, v => ∃ ps, v = .moreParams ps
  | .parameter, v => ∃ p, v = .param p
  | .block, v => ∃ b, v = .block b
  | .blockInner, v => ∃ f s, v = .inner f s
  | .selfBinding, v => ∃ t, v = .binding t
  | .typeParameters, v | .moreTypeParameters, v => ∃ ps, v = .typeParams ps
  | .typeParameter, v => ∃ p, v = .typeParam p
  | .typeArguments, v | .moreTypes, v => ∃ ts, v = .types ts
  | .type, v | .union, v | .intersection, v | .optional, v | .simple, v => ∃ t, v = .type t
  | .recordField, v => ∃ f, v = .field f
  | .moreRecordFields, v => ∃ fs, v = .fields fs
  | .className, v | .interfacePath, v | .aliasName, v => ∃ n, v = .name n

def Symbol.Means : Symbol → Value → Prop
  | .terminal t, v => ∃ x s, v = .token ⟨t, x, s⟩ ∧ t.Takes x.toList
  | .nonterminal n, v => n.Means v

/-- Whether `f` gives a value of which `M` holds for all values of a body. -/
def Total (M : Value → Prop) (f : List Value → Option Value) : List Symbol → Prop
  | [] => ∃ v, f [] = some v ∧ M v
  | x :: xs => ∀ v, x.Means v → Total M (fun vs => f (v :: vs)) xs

theorem Total.of_map {α : Type} {M : Value → Prop} {o : Option α} {f : α → Value}
    (h : o.isSome = true) (hf : ∀ a, M (f a)) : ∃ v, o.map f = some v ∧ M v := by
  obtain ⟨a, ha⟩ := Option.isSome_iff_exists.mp h
  exact ⟨f a, by rw [ha]; rfl, hf a⟩

/-! ## Words and names -/

/-- What is told of each word is told of the text of a token of words. -/
theorem isSome_of_takes {α : Type} {f : String → Option α} {t : Terminal} {x : String}
    (ht : t.Takes x.toList → ∃ w ∈ wordsOf t, x.toList = w.toList)
    (hall : (wordsOf t).all fun w => (f w).isSome) (h : t.Takes x.toList) : (f x).isSome = true := by
  obtain ⟨w, hw, he⟩ := ht h
  rw [String.toList_inj.mp he]
  exact List.all_eq_true.mp hall w hw

/-- A path and a name behind it are read as a name of these segments. -/
theorem parse?_path {last : List Char → Prop} (hlast : ∀ s : String, last s.toList → IsSegment s)
    {path x : String} (hpath : path = "" ∨ IsPath path.toList) (hx : last x.toList) :
    ∃ n : TypeName, TypeName.parse? (path ++ x) = some n ∧ n.name = x ∧
      (∀ s ∈ n.path, IsUpperName s.toList) ∧ (path ≠ "" → n.path = [] → n.absolute = true) := by
  obtain ⟨absolute, segments, hp, hs⟩ : ∃ (absolute : Bool) (segments : List (List Char)),
      path.toList = (if absolute then colons else []) ++ pathText segments ∧
        ∀ s ∈ segments, IsUpperName s := by
    rcases hpath with rfl | h
    · exact ⟨false, [], rfl, List.forall_mem_nil _⟩
    · exact h.2
  have hmap : (segments.map String.ofList).map String.toList = segments := by
    rw [List.map_map]
    exact (List.map_congr_left fun s _ => String.toList_ofList).trans (List.map_id _)
  have he : path ++ x = TypeName.render ⟨x, segments.map .ofList, absolute⟩ := by
    rw [← String.toList_inj, TypeName.render_toList, String.toList_append, hp, TypeName.pathPart, hmap]
  have hupper : ∀ s ∈ segments.map String.ofList, IsUpperName s.toList := by
    intro s h
    obtain ⟨y, hy, rfl⟩ := List.mem_map.mp h
    rw [String.toList_ofList]
    exact hs y hy
  refine ⟨⟨x, segments.map .ofList, absolute⟩, ?_, rfl, hupper, fun hne hnil => ?_⟩
  · rw [he]
    exact TypeName.parse?_render (segments_of_path hupper (hlast x hx))
  · refine Bool.of_not_eq_false fun habsolute => hne ?_
    have hnil : segments = [] := List.map_eq_nil_iff.mp hnil
    rw [hnil, show absolute = false from habsolute] at hp
    exact String.toList_inj.mp hp

/-- The texts of a path, if there is one, and of a name behind it. -/
theorem total_name {M : Value → Prop} {t : Terminal}
    (hM : ∀ n : TypeName, (∀ s ∈ n.path ++ [n.name], IsSegment s) → M (.name n))
    (hlast : ∀ s : String, t.Takes s.toList → IsSegment s) :
    ∀ body ∈ RulePart.bodies [.maybeToken namespacePath, .token t],
      Total M (fun vs => (TypeName.parse? (tokensText vs)).map .name) body := by
  refine List.forall_mem_cons.mpr ⟨?_, List.forall_mem_cons.mpr ⟨?_, List.forall_mem_nil _⟩⟩
  · rintro _ ⟨path, _, rfl, hpath⟩ _ ⟨x, _, rfl, hx⟩
    obtain ⟨n, hn, rfl, hs, -⟩ := parse?_path hlast (.inr hpath) hx
    refine ⟨.name n, ?_, hM n (segments_of_path hs (hlast n.name hx))⟩
    show (TypeName.parse? (path ++ (n.name ++ ""))).map Value.name = _
    rw [String.append_empty, hn]
    rfl
  · rintro _ ⟨x, _, rfl, hx⟩
    obtain ⟨n, hn, rfl, hs, -⟩ := parse?_path hlast (.inl rfl) hx
    refine ⟨.name n, ?_, hM n (segments_of_path hs (hlast n.name hx))⟩
    show (TypeName.parse? (n.name ++ "")).map Value.name = _
    rw [String.append_empty, ← String.empty_append (s := n.name), hn]
    rfl

/-! ## Rules -/

variable {name : String} {sp : Option Span}

theorem total_mixin {p : Symbol} (hp : p = .nonterminal .className ∨ p = .nonterminal .interfacePath) :
    ∀ body ∈ RulePart.bodies [.token mixinWord, .must p, .maybe .typeArguments],
      Total Nonterminal.mixinMember.Means buildMixin body := by
  have hn : ∀ v, p.Means v → ∃ n, v = .name n := by rcases hp with rfl | rfl <;> exact fun _ h => h
  refine List.forall_mem_cons.mpr ⟨?_, List.forall_mem_cons.mpr ⟨?_, List.forall_mem_nil _⟩⟩
  · rintro _ ⟨x, _, rfl, hx⟩ v hv _ ⟨ts, rfl⟩
    obtain ⟨n, rfl⟩ := hn v hv
    exact Total.of_map (isSome_of_takes (t := mixinWord) id (by decide) hx) fun k => ⟨_, rfl⟩
  · rintro _ ⟨x, _, rfl, hx⟩ v hv
    obtain ⟨n, rfl⟩ := hn v hv
    exact Total.of_map (isSome_of_takes (t := mixinWord) id (by decide) hx) fun k => ⟨_, rfl⟩

/-- **No rule fails.** -/
theorem Rule.total (name : String) (sp : Option Span) (r : Rule) :
    ∀ body ∈ RulePart.bodies r.shape.2, Total r.shape.1.Means (r.build name sp) body := by
  have hnone : ∀ M f, ∀ body ∈ ([] : List (List Symbol)), Total M f body :=
    fun _ _ => List.forall_mem_nil _
  cases r
  case declaration =>
    refine List.forall_mem_cons.mpr ⟨?_, hnone _ _⟩
    rintro _ ⟨_, rfl⟩ _ (⟨_, rfl⟩ | ⟨_, rfl⟩) <;> exact ⟨_, rfl, _, rfl⟩
  case member =>
    refine List.forall_mem_cons.mpr ⟨?_, hnone _ _⟩
    rintro _ ⟨_, rfl⟩ _ (⟨_, rfl⟩ | ⟨_, rfl⟩) <;> exact ⟨_, rfl, _, rfl⟩
  case className => exact total_name (fun _ _ => ⟨_, rfl⟩) fun _ h => IsUpperName.segment h
  case interfacePath => exact total_name (fun _ _ => ⟨_, rfl⟩) fun _ h => IsInterfaceName.segment h
  case aliasName => exact total_name (fun _ _ => ⟨_, rfl⟩) fun _ h => IsLowerName.segment h
  case classMixin => exact total_mixin (.inl rfl)
  case interfaceMixin => exact total_mixin (.inr rfl)
  case visibilityMember =>
    refine List.forall_mem_cons.mpr ⟨?_, hnone _ _⟩
    rintro _ ⟨x, _, rfl, hx⟩
    exact Total.of_map (isSome_of_takes (t := visibilityWord) id (by decide) hx) fun k => ⟨_, rfl⟩
  case base =>
    refine List.forall_mem_cons.mpr ⟨?_, hnone _ _⟩
    rintro _ ⟨x, _, rfl, hx⟩
    exact Total.of_map (isSome_of_takes (t := baseType) id (by decide) hx) fun k => ⟨_, rfl⟩
  case attributeMember =>
    refine List.forall_mem_cons.mpr ⟨?_, List.forall_mem_cons.mpr ⟨?_, hnone _ _⟩⟩
    · rintro _ ⟨x, _, rfl, hx⟩ _ ⟨_, _, rfl, _⟩ _ ⟨_, _, rfl, _⟩ _ ⟨_, rfl⟩
      exact Total.of_map (isSome_of_takes (t := attributeWord) id (by decide) hx) fun k => ⟨_, rfl⟩
    · rintro _ ⟨x, _, rfl, hx⟩ _ ⟨_, _, rfl, _⟩ _ ⟨_, rfl⟩
      exact Total.of_map (isSome_of_takes (t := attributeWord) id (by decide) hx) fun k => ⟨_, rfl⟩
  -- The others look at no text; their parts are told apart by their kinds.
  all_goals
    repeat' (first | exact hnone _ _ | refine List.forall_mem_cons.mpr ⟨?_, ?_⟩)
  all_goals
    repeat' (first
      | exact ⟨_, rfl, _, rfl⟩ | exact ⟨_, rfl, _, _, rfl⟩
      | exact ⟨_, rfl, .inl ⟨_, rfl⟩⟩ | exact ⟨_, rfl, .inr ⟨_, rfl⟩⟩
      | rintro _ ⟨_, _, rfl, _⟩)

/-! ## Derivations -/

theorem Total.of_means {xs : List Symbol} {M : Value → Prop} {f : List Value → Option Value} {vs : List Value}
    (hvs : List.Forall₂ Symbol.Means xs vs) (h : Total M f xs) : ∃ v, f vs = some v ∧ M v := by
  induction hvs generalizing f with
  | nil => exact h
  | cons hv _ ih => exact ih (h _ hv)

mutual

theorem Derives.means {x : Symbol} {b : Bool} {w : List Token} {n : Node} (h : Derives name x b w n)
    (hw : ∀ k ∈ w, k.terminal.Takes k.text.toList) : x.Means n.value :=
  match h with
  | .token t => ⟨t.text, t.span, rfl, hw t List.mem_cons_self⟩
  | @Derives.node _ p _ w ns v hp _ hall hv => by
    have hparts := hall.means hw
    obtain ⟨r, -, hr⟩ := List.mem_flatMap.mp hp
    obtain ⟨body, hbody, rfl⟩ := List.mem_map.mp hr
    obtain ⟨u, hu, hm⟩ := (r.total name (hull ns) body hbody).of_means hparts
    obtain rfl : u = v := Option.some.inj (hu.symm.trans hv)
    exact hm

theorem DerivesAll.means {xs : List Symbol} {b : Bool} {w : List Token} {ns : List Node}
    (h : DerivesAll name xs b w ns) (hw : ∀ k ∈ w, k.terminal.Takes k.text.toList) :
    List.Forall₂ Symbol.Means xs (ns.map (·.value)) :=
  match h with
  | .nil => .nil
  | @DerivesAll.cons _ _ _ _ _ w ws _ _ hx hxs _ => by
    obtain ⟨hfirst, hrest⟩ := List.forall_mem_append.mp hw
    exact .cons (hx.means hfirst) (hxs.means hrest)

end

/-! ## Stacks -/

/-- A node with a value of its symbol. -/
def Meant (_ : Nat) (x : Symbol) (n : Node) : Prop := x.Means n.value

theorem Along.builds {q : Nat} {xs : List Symbol} {ns : List Node} {M : Value → Prop}
    {f : List Value → Option Value} (h : Along Meant q xs ns) (hf : Total M f xs) :
    ∃ v, f (ns.map (·.value)) = some v ∧ M v := by
  induction xs generalizing q ns f with
  | nil =>
    match ns, h with
    | [], _ => exact hf
  | cons x xs ih =>
    match ns, h with
    | n :: ns, ⟨hn, r, _, h⟩ =>
      have ⟨v, hv, hm⟩ := ih (f := fun vs => f (n.value :: vs)) h (hf n.value hn)
      exact ⟨v, hv, hm⟩

/-- Every production builds a value from the nodes of its body. -/
theorem builds_of_along (name : String) {i q : Nat} {p : Production} {ns : List Node}
    (hp : productions[i]? = some p) (h : Along Meant q p.body ns) :
    ∃ n, buildNode name i ns = some n ∧ (Symbol.nonterminal p.head).Means n.value := by
  obtain ⟨r, -, hr⟩ := List.mem_flatMap.mp (List.mem_of_getElem? hp)
  obtain ⟨body, hbody, rfl⟩ := List.mem_map.mp hr
  obtain ⟨v, hv, hm⟩ := h.builds (r.total name (hull ns) body hbody)
  exact ⟨⟨v, hull ns⟩, buildNode_eq hp hv, hm⟩

end RbsSynth.Signature
