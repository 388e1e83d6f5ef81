import RbsSynth.Analysis.Types
import RbsSynth.Proofs.Environment.Reached
import RbsSynth.Proofs.Index

/-!
# Type variables of methods

A type variable is written like the name of a class.  Only the type arguments of the receiver tell them
apart: the type parameters of the method's owner are bound to them, in order (`BoundTo`), when the
receiver is of the owner itself.  For a method type that is just a name,

    the name is bound to an argument  →  it is what is known of the argument
    it is not bound  →  it is the class or module that it means in the scope of the method (`Means`),
                        and unknown exactly if there is none                     (named_resolved)

So a variable that is not bound is unknown as long as no class or module of its name can be seen from
the method, whether it is a parameter of the owner or of the overload.
-/

namespace RbsSynth

/-- What was put last under a name is found there. -/
theorem Index.find?_foldl_put {α β : Type} (f : β → α) {x : String} (b : β)
    (before after : List (String × β)) (index : Index α) (hlast : ∀ p ∈ after, p.1 ≠ x) :
    Index.find? x ((before ++ (x, b) :: after).foldl (fun known p => put p.1 (f p.2) known) index)
      = some (f b) := by
  rw [List.foldl_append, List.foldl_cons]
  generalize hknown : put x (f b) _ = known
  have hfind : known.find? x = some (f b) := by
    rw [← hknown, find?_put, if_pos rfl]
  clear hknown
  induction after generalizing known with
  | nil => exact hfind
  | cons p after ih =>
    rw [List.foldl_cons]
    apply ih (fun q hq => hlast q (List.mem_cons_of_mem p hq))
    rw [find?_put, if_neg (hlast p List.mem_cons_self), hfind]

theorem Index.find?_foldl_put_of_not_mem {α β : Type} (f : β → α) {x : String}
    (ps : List (String × β)) (index : Index α) (hps : ∀ p ∈ ps, p.1 ≠ x) :
    Index.find? x (ps.foldl (fun known p => put p.1 (f p.2) known) index) = index.find? x := by
  induction ps generalizing index with
  | nil => rfl
  | cons p ps ih =>
    rw [List.foldl_cons, ih _ (fun q hq => hps q (List.mem_cons_of_mem p hq)), find?_put,
      if_neg (hps p List.mem_cons_self)]

namespace Environment

open Signature

/-- A type that is just a name. -/
def named (x : String) : TypeExpr := .classInstance { name := x } []

/-- What is known of a type argument. -/
def argumentType : TypeExpr → Option TypeExpr
  | .base _ => none
  | t => some t

/-- The name and the type arguments of a receiver that may have such. -/
def typeArguments? : Option TypeExpr → Option (TypeName × List TypeExpr)
  | some (.classInstance n args) => some (n, args)
  | some (.interfaceInstance n args) => some (n, args)
  | _ => none

/-- A receiver of a method's owner has an argument for a type parameter of the owner.  Where two
parameters have one name, it is the last that has an argument. -/
inductive BoundTo (env : Environment) (e : MethodEntry) (receiver : Option TypeExpr) (x : String)
    (a : TypeExpr) : Prop
  | argument {n : TypeName} {args : List TypeExpr} {before after : List (String × TypeExpr)}
    (hreceiver : typeArguments? receiver = some (n, args)) (hn : n.qualified = e.owner)
    (hargs : (env.typeParamsOf e.owner).zip args = before ++ (x, a) :: after)
    (hlast : ∀ p ∈ after, p.1 ≠ x)

/-- The types in an overload of a method, each with what it is for calls on a receiver: what the
overload returns, what it yields to its block, and what `self` is in the block. -/
inductive TypeOf (env : Environment) (e : MethodEntry) (m : MethodType) (receiver : Option TypeExpr) :
    TypeExpr → Option TypeExpr → Prop
  | returned : TypeOf env e m receiver m.function.returnType (env.returnType e m receiver)
  | yielded {b : Block} (hb : m.block = some b) {i : Nat} {p : Param}
    (hp : (b.function.required ++ b.function.optional)[i]? = some p) {o : Option TypeExpr}
    (ho : (env.blockParamTypes e m receiver)[i]? = some o) : TypeOf env e m receiver p.type o
  | blockSelf {b : Block} (hb : m.block = some b) {t : TypeExpr} (ht : b.selfType = some t) :
    TypeOf env e m receiver t (env.blockSelfType e m receiver)

/-- Something is declared as a class, module, interface or constant. -/
def Declared (env : Environment) (name : String) : Prop :=
  env.hasModule name = true ∨ env.constants.has name = true

/-- A class or module that a name means: behind each enclosing name, innermost first, and then by
itself, the first that is declared. -/
structure Means (env : Environment) (nesting : List String) (x q : String) : Prop where
  first : ∃ before after, nesting.map (· ++ "::" ++ x) ++ [x] = before ++ q :: after ∧
    (∀ c ∈ before, ¬ env.Declared c) ∧ env.Declared q
  kind : env.kindOf? q = some .ofClass ∨ env.kindOf? q = some .ofModule

variable {env : Environment} {e : MethodEntry} {m : MethodType} {receiver : Option TypeExpr}
  {x : String}

/-! ## Bindings -/

/-- What the type parameters of the owner stand for: one argument after the other is put. -/
theorem substitution_of_owner {n : TypeName} {args : List TypeExpr}
    (hreceiver : typeArguments? receiver = some (n, args)) (hn : n.qualified = e.owner) :
    env.substitution e receiver = ((env.typeParamsOf e.owner).zip args).foldl
      (fun known p => Index.put p.1 (argumentType p.2) known) [] := by
  unfold typeArguments? at hreceiver
  split at hreceiver
  · obtain ⟨rfl, rfl⟩ := Prod.mk.inj (Option.some.inj hreceiver)
    exact if_pos hn
  · obtain ⟨rfl, rfl⟩ := Prod.mk.inj (Option.some.inj hreceiver)
    exact if_pos hn
  · cases hreceiver

/-- On any other receiver no type parameter stands for something. -/
theorem substitution_of_not_owner (h : ∀ n args, typeArguments? receiver = some (n, args) →
    n.qualified ≠ e.owner) : env.substitution e receiver = [] := by
  unfold substitution
  split
  · exact if_neg (h _ _ rfl)
  · exact if_neg (h _ _ rfl)
  · rfl

theorem find?_substitution {a : TypeExpr} (h : env.BoundTo e receiver x a) :
    (env.substitution e receiver).find? x = some (argumentType a) := by
  obtain ⟨hreceiver, hn, hargs, hlast⟩ := h
  rw [substitution_of_owner hreceiver hn, hargs]
  exact Index.find?_foldl_put argumentType _ _ _ _ hlast

/-- A name among others stands last somewhere. -/
theorem exists_last {ps : List (String × TypeExpr)} (h : ∃ p ∈ ps, p.1 = x) :
    ∃ a before after, ps = before ++ (x, a) :: after ∧ ∀ p ∈ after, p.1 ≠ x := by
  induction ps with
  | nil =>
    obtain ⟨p, hp, -⟩ := h
    cases hp
  | cons q ps ih =>
    by_cases hps : ∃ p ∈ ps, p.1 = x
    · obtain ⟨a, before, after, rfl, hlast⟩ := ih hps
      exact ⟨a, q :: before, after, rfl, hlast⟩
    · obtain ⟨p, hp, hx⟩ := h
      rcases List.mem_cons.mp hp with rfl | hp
      · refine ⟨p.2, [], ps, by rw [← hx]; rfl, ?_⟩
        intro q hq hx
        exact hps ⟨q, hq, hx⟩
      · exact absurd ⟨p, hp, hx⟩ hps

theorem find?_substitution_of_unbound (h : ∀ a, ¬ env.BoundTo e receiver x a) :
    (env.substitution e receiver).find? x = none := by
  by_cases howner : ∃ n args, typeArguments? receiver = some (n, args) ∧ n.qualified = e.owner
  · obtain ⟨n, args, hreceiver, hn⟩ := howner
    rw [substitution_of_owner hreceiver hn]
    apply Index.find?_foldl_put_of_not_mem argumentType
    intro p hp hx
    obtain ⟨a, before, after, hargs, hlast⟩ := exists_last ⟨p, hp, hx⟩
    exact h a ⟨hreceiver, hn, hargs, hlast⟩
  · rw [substitution_of_not_owner]
    · rfl
    · intro n args hreceiver hn
      exact howner ⟨n, args, hreceiver, hn⟩

/-! ## Names -/

theorem TypeOf.eq_resolveType {t : TypeExpr} {o : Option TypeExpr}
    (h : env.TypeOf e m receiver t o) : o = env.resolveType (env.placeOf e receiver) t := by
  cases h with
  | returned => rfl
  | yielded hb hp ho =>
    unfold blockParamTypes at ho
    rw [hb] at ho
    simp only [List.getElem?_map, hp, Option.map_some, Option.some.injEq] at ho
    exact ho.symm
  | blockSelf hb ht =>
    unfold blockSelfType
    rw [hb, Option.bind_some, ht, Option.bind_some]

/-- A name by itself is a variable if it is bound, and else a class or module. -/
theorem resolveType_named (place : Place) (x : String) :
    env.resolveType place (named x) = (place.assigned.find? x).getD
      ((env.resolveKind? place { name := x } [.ofClass, .ofModule]).map (.classInstance · [])) := by
  show env.resolveWith place _ (.classInstance { name := x } []) = _
  have hvariable : place.variable_ { name := x } = place.assigned.find? x := rfl
  rw [resolveWith, hvariable]
  cases place.assigned.find? x <;> rfl

theorem candidates_simple (x : String) (nesting : List String) :
    candidates { name := x } nesting = nesting.map (· ++ "::" ++ x) ++ [x] := by
  have hqualified : TypeName.qualified { name := x } = x := by
    simp [TypeName.qualified, Text.join]
  simp [candidates, hqualified]

theorem means_iff (nesting : List String) (q : String) :
    env.Means nesting x q ↔ env.resolveConstant? { name := x } nesting = some q ∧
      (env.kindOf? q).any [ModuleKind.ofClass, .ofModule].contains = true := by
  have hdeclared : ∀ c, (env.modules.has c || env.constants.has c) = true ↔ env.Declared c :=
    fun c => Bool.or_eq_true_iff
  have hkind : (env.kindOf? q).any [ModuleKind.ofClass, .ofModule].contains = true ↔
      env.kindOf? q = some .ofClass ∨ env.kindOf? q = some .ofModule := by
    cases env.kindOf? q with
    | none => simp
    | some k => cases k <;> simp
  unfold resolveConstant?
  rw [hkind, candidates_simple, List.find?_eq_some_iff_append, hdeclared]
  constructor
  · rintro ⟨⟨before, after, hsplit, hbefore, hq⟩, hkind⟩
    refine ⟨⟨hq, before, after, hsplit, ?_⟩, hkind⟩
    intro c hc
    rw [Bool.not_eq_true', ← Bool.not_eq_true, hdeclared]
    exact hbefore c hc
  · rintro ⟨⟨hq, before, after, hsplit, hbefore⟩, hkind⟩
    refine ⟨⟨before, after, hsplit, ?_, hq⟩, hkind⟩
    intro c hc
    have hnot := hbefore c hc
    rwa [Bool.not_eq_true', ← Bool.not_eq_true, hdeclared] at hnot

theorem resolveKind_of_means (place : Place) {q : String} (h : env.Means place.nesting x q) :
    env.resolveKind? place { name := x } [.ofClass, .ofModule] = some (declaredName q) := by
  obtain ⟨hq, hkind⟩ := (means_iff _ _).mp h
  unfold resolveKind?
  rw [hq]
  exact if_pos hkind

theorem resolveKind_of_not_means (place : Place) (h : ∀ q, ¬ env.Means place.nesting x q) :
    env.resolveKind? place { name := x } [.ofClass, .ofModule] = none := by
  unfold resolveKind?
  split
  · rfl
  · next q hq =>
    rw [if_neg]
    intro hkind
    exact h q ((means_iff _ _).mpr ⟨hq, hkind⟩)

/-- **Names in method types.**  Where the type of a method is just a name, that is the argument which the
name is bound to.  If it is bound to none it is the class or module that the name means in the scope of
the method, and it is unknown exactly if there is no such. -/
theorem named_resolved {o : Option TypeExpr} (h : env.TypeOf e m receiver (named x) o) :
    (∀ a, env.BoundTo e receiver x a → o = argumentType a) ∧
      ((∀ a, ¬ env.BoundTo e receiver x a) →
        (o = none ↔ ∀ q, ¬ env.Means e.context x q) ∧
        ∀ q, env.Means e.context x q → o = some (.classInstance (declaredName q) [])) := by
  have ho := h.eq_resolveType
  rw [resolveType_named] at ho
  constructor
  · intro a ha
    rw [ho]
    show Option.getD ((env.substitution e receiver).find? x) _ = _
    rw [find?_substitution ha, Option.getD_some]
  · intro hunbound
    have hnone : (env.placeOf e receiver).assigned.find? x = none :=
      find?_substitution_of_unbound hunbound
    rw [hnone, Option.getD_none] at ho
    have hmeans : ∀ q, env.Means e.context x q → o = some (.classInstance (declaredName q) []) := by
      intro q hq
      rw [ho, resolveKind_of_means (env.placeOf e receiver) hq, Option.map_some]
    refine ⟨⟨?_, ?_⟩, hmeans⟩
    · intro honone q hq
      rw [hmeans q hq] at honone
      cases honone
    · intro hq
      rw [ho, resolveKind_of_not_means (env.placeOf e receiver) hq, Option.map_none]

/-! ## A class with the name of a type variable -/

/-- A method returns a type variable of its class, whose name is also that of a class. -/
def variableText : String :=
  "class A[T]
  def x: () -> T
end
class T
end
class B < A
end
"

/-- What the two classes have of the method, and what it returns on `B`. -/
theorem variableText_added :
    ∃ env ds, addSignature { marker := ⟨"siggen:", by decide⟩ } variableText = .ok (env, ds) ∧
      env.typeParamsOf "A" = ["T"] ∧
      ∃ e m, env.findMethod? "A" "x" .ofInstance = some e ∧
        env.findMethod? "B" "x" .ofInstance = some e ∧ e.owner = "A" ∧ e.overloads = [m] ∧
        m.function.returnType = named "T" ∧ env.returnType e m (some (named "B")) = some (named "T") := by
  obtain ⟨env, ds, hadd, hparams, hboth, hmethod⟩ := exists_added variableText
    (P := fun env => env.typeParamsOf "A" = ["T"] ∧
      env.findMethod? "A" "x" .ofInstance = env.findMethod? "B" "x" .ofInstance ∧
      (env.findMethod? "B" "x" .ofInstance).map (fun e => (e.owner,
        e.overloads.map fun m => (m.function.returnType, env.returnType e m (some (named "B")))))
          = some ("A", [(named "T", some (named "T"))])) (by decide +kernel)
  obtain ⟨e, he, hfound⟩ := Option.map_eq_some_iff.mp hmethod
  obtain ⟨howner, htypes⟩ := Prod.mk.inj hfound
  obtain ⟨m, hm, htype⟩ := List.map_eq_singleton_iff.mp htypes
  obtain ⟨hwritten, hreturned⟩ := Prod.mk.inj htype
  exact ⟨env, ds, hadd, hparams, e, m, hboth.trans he, he, howner, hm, hwritten, hreturned⟩

/-- On `A[B]` the variable is `B`. -/
theorem named_resolved_argument :
    ∃ env ds, addSignature { marker := ⟨"siggen:", by decide⟩ } variableText = .ok (env, ds) ∧
      ∃ e m, env.findMethod? "A" "x" .ofInstance = some e ∧ m ∈ e.overloads ∧
        m.function.returnType = named "T" ∧
        env.returnType e m (some (.classInstance ⟨"A", [], false⟩ [named "B"])) = some (named "B") := by
  obtain ⟨env, ds, hadd, hparams, e, m, he, -, howner, hm, hwritten, -⟩ := variableText_added
  have hreturned : env.TypeOf e m (some (.classInstance ⟨"A", [], false⟩ [named "B"])) (named "T")
      (env.returnType e m (some (.classInstance ⟨"A", [], false⟩ [named "B"]))) :=
    hwritten ▸ .returned
  have hargs : (env.typeParamsOf e.owner).zip [named "B"] = [] ++ ("T", named "B") :: [] := by
    rw [howner, hparams]
    rfl
  refine ⟨env, ds, hadd, e, m, he, hm ▸ List.mem_cons_self, hwritten, ?_⟩
  exact (named_resolved hreturned).1 (named "B") (.argument rfl howner.symm hargs nofun)

/-- On `B`, which has no argument for the variable, it is not unknown but the class. -/
theorem unbound_captured :
    ∃ env ds, addSignature { marker := ⟨"siggen:", by decide⟩ } variableText = .ok (env, ds) ∧
      ∃ e m, env.findMethod? "B" "x" .ofInstance = some e ∧ m ∈ e.overloads ∧
        "T" ∈ env.typeParamsOf e.owner ∧ (∀ a, ¬ env.BoundTo e (some (named "B")) "T" a) ∧
        m.function.returnType = named "T" ∧ env.returnType e m (some (named "B")) = some (named "T") := by
  obtain ⟨env, ds, hadd, hparams, e, m, -, he, howner, hm, hwritten, hreturned⟩ := variableText_added
  have hparam : "T" ∈ env.typeParamsOf e.owner := by
    rw [howner, hparams]
    exact List.mem_cons_self
  have hunbound : ∀ a, ¬ env.BoundTo e (some (named "B")) "T" a := by
    rintro a ⟨hreceiver, hn, -, -⟩
    obtain ⟨rfl, -⟩ := Prod.mk.inj (Option.some.inj hreceiver)
    rw [howner] at hn
    exact absurd hn (by decide)
  exact ⟨env, ds, hadd, e, m, he, hm ▸ List.mem_cons_self, hparam, hunbound, hwritten, hreturned⟩

end Environment

end RbsSynth
