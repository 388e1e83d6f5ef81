import RbsSynth.Analysis.Types
import RbsSynth.Proofs.Environment.Reached

/-!
# Where the types behind aliases are read

An alias stands for its right side, which is read at the place of the use, one level further down:

    env.resolveType place (.aliasUse n args) depth = env.resolveType place d.type (depth + 1)
                                                                         (resolveType_aliasUse)

Nothing is known of the place at which the alias was declared.  So what a use gives is decided by what
its place makes of the names that are read on the way, those of further aliases included (`Reads`).
Where two places make the same of all of them (`SameHead`), two uses of one alias give the same:

    (∀ u, env.Reads place t u → env.SameHead place place' u)  →
      env.resolveType place t depth = env.resolveType place' t depth        (resolveType_congr)

Absolute names mean the same everywhere.  Relative ones may not, and a type variable of the use may
have the name of a class of the declaration.
-/

namespace RbsSynth.Environment

open Signature

/-- The types that are read to resolve a type: itself, its parts and arguments, and what the aliases
among them stand for. -/
inductive Reads (env : Environment) (place : Place) : TypeExpr → TypeExpr → Prop
  | self (t : TypeExpr) : Reads env place t t
  | classArgument {n : TypeName} {args : List TypeExpr} {a u : TypeExpr}
    (hn : place.variable_ n = none) (ha : a ∈ args) (h : Reads env place a u) :
    Reads env place (.classInstance n args) u
  | interfaceArgument {n : TypeName} {args : List TypeExpr} {a u : TypeExpr} (ha : a ∈ args)
    (h : Reads env place a u) : Reads env place (.interfaceInstance n args) u
  | meaning {n : TypeName} {args : List TypeExpr} {d : AliasDecl} {u : TypeExpr}
    (hd : env.resolveAlias? n place.nesting = some d) (h : Reads env place d.type u) :
    Reads env place (.aliasUse n args) u
  | inner {t u : TypeExpr} (h : Reads env place t u) : Reads env place (.optional t) u
  | unionMember {ts : List TypeExpr} {t u : TypeExpr} (ht : t ∈ ts) (h : Reads env place t u) :
    Reads env place (.union ts) u
  | intersectionMember {ts : List TypeExpr} {t u : TypeExpr} (ht : t ∈ ts)
    (h : Reads env place t u) : Reads env place (.intersection ts) u

/-- The name at the head of a type means the same at two places. -/
def SameHead (env : Environment) (place place' : Place) : TypeExpr → Prop
  | .classInstance n _ => place.variable_ n = place'.variable_ n ∧
    (place.variable_ n = none →
      env.resolveConstant? n place.nesting = env.resolveConstant? n place'.nesting)
  | .interfaceInstance n _ =>
    env.resolveConstant? n place.nesting = env.resolveConstant? n place'.nesting
  | .classSingleton n =>
    env.resolveConstant? n place.nesting = env.resolveConstant? n place'.nesting
  | .aliasUse n _ => env.resolveAlias? n place.nesting = env.resolveAlias? n place'.nesting
  | _ => True

variable {env : Environment} {place place' : Place}

theorem Reads.trans {t u v : TypeExpr} (h : env.Reads place t u) (h' : env.Reads place u v) :
    env.Reads place t v := by
  induction h with
  | self => exact h'
  | classArgument hn ha _ ih => exact .classArgument hn ha (ih h')
  | interfaceArgument ha _ ih => exact .interfaceArgument ha (ih h')
  | meaning hd _ ih => exact .meaning hd (ih h')
  | inner _ ih => exact .inner (ih h')
  | unionMember ht _ ih => exact .unionMember ht (ih h')
  | intersectionMember ht _ ih => exact .intersectionMember ht (ih h')

/-! ## Absolute names -/

theorem candidates_of_absolute {n : TypeName} (h : n.absolute = true) (nesting : List String) :
    candidates n nesting = [n.qualified] := by
  unfold candidates
  rw [if_pos h]

theorem variable_of_absolute {n : TypeName} (h : n.absolute = true) (place : Place) :
    place.variable_ n = none := by
  simp [Place.variable_, h]

/-- An absolute class name means the same everywhere. -/
theorem sameHead_of_absolute {n : TypeName} (h : n.absolute = true) (args : List TypeExpr) :
    env.SameHead place place' (.classInstance n args) := by
  constructor
  · rw [variable_of_absolute h, variable_of_absolute h]
  · intro _
    unfold resolveConstant?
    rw [candidates_of_absolute h, candidates_of_absolute h]

/-! ## Types at two places -/

theorem resolveBase_congr (hreceiver : place.receiver = place'.receiver) (w : BaseType) :
    env.resolveBase place w = env.resolveBase place' w := by
  cases w with
  | self => exact hreceiver
  | instanceOf => exact congrArg (Option.bind · instanceOf) hreceiver
  | classOf => exact congrArg (Option.bind · env.singletonOf) hreceiver
  | _ => rfl

theorem resolveKind_congr {n : TypeName}
    (h : env.resolveConstant? n place.nesting = env.resolveConstant? n place'.nesting)
    (kinds : List ModuleKind) :
    env.resolveKind? place n kinds = env.resolveKind? place' n kinds := by
  unfold resolveKind?
  rw [h]

section

variable {deeper deeper' : TypeExpr → Option TypeExpr}

theorem arguments_congr {args : List TypeExpr} (h : ∀ a ∈ args, deeper a = deeper' a) :
    args.map (fun a => (deeper a).getD untyped) = args.map fun a => (deeper' a).getD untyped := by
  apply List.map_congr_left
  intro a ha
  rw [h a ha]

mutual

/-- The step: one level is the same when the names read there and all that is deeper are. -/
theorem resolveWith_congr (hreceiver : place.receiver = place'.receiver) :
    (t : TypeExpr) → (∀ u, env.Reads place t u → env.SameHead place place' u) →
      (∀ u, env.Reads place t u → deeper u = deeper' u) →
      env.resolveWith place deeper t = env.resolveWith place' deeper' t
  | .base w, _, _ => by
    rw [resolveWith, resolveWith, resolveBase_congr hreceiver]
  | .classInstance n args, hsame, hdeeper => by
    obtain ⟨hvariable, hconstant⟩ := hsame _ (.self _)
    rw [resolveWith, resolveWith, ← hvariable]
    cases hn : place.variable_ n with
    | some known => rfl
    | none =>
      have hargs : ∀ a ∈ args, deeper a = deeper' a := by
        intro a ha
        exact hdeeper a (.classArgument hn ha (.self a))
      simp only [resolveKind_congr (hconstant hn), arguments_congr hargs]
  | .interfaceInstance n args, hsame, hdeeper => by
    have hconstant := hsame _ (.self _)
    have hargs : ∀ a ∈ args, deeper a = deeper' a := by
      intro a ha
      exact hdeeper a (.interfaceArgument ha (.self a))
    rw [resolveWith, resolveWith, resolveKind_congr hconstant, arguments_congr hargs]
  | .classSingleton n, hsame, _ => by
    have hconstant := hsame _ (.self _)
    rw [resolveWith, resolveWith, resolveKind_congr hconstant]
  | .aliasUse n args, hsame, hdeeper => by
    have halias : env.resolveAlias? n place.nesting = env.resolveAlias? n place'.nesting :=
      hsame _ (.self _)
    rw [resolveWith, resolveWith, ← halias]
    cases hd : env.resolveAlias? n place.nesting with
    | none => rfl
    | some d => exact hdeeper d.type (.meaning hd (.self _))
  | .optional t, hsame, hdeeper => by
    rw [resolveWith, resolveWith]
    exact resolveWith_congr hreceiver t (fun u hu => hsame u (.inner hu))
      fun u hu => hdeeper u (.inner hu)
  | .union ts, hsame, hdeeper => by
    rw [resolveWith, resolveWith, resolveEach_congr hreceiver ts]
    · intro t ht u hu
      exact hsame u (.unionMember ht hu)
    · intro t ht u hu
      exact hdeeper u (.unionMember ht hu)
  | .intersection ts, hsame, hdeeper => by
    rw [resolveWith, resolveWith, resolveEach_congr hreceiver ts]
    · intro t ht u hu
      exact hsame u (.intersectionMember ht hu)
    · intro t ht u hu
      exact hdeeper u (.intersectionMember ht hu)
  | .literal _, _, _ => by rw [resolveWith, resolveWith]
  | .tuple _, _, _ => by rw [resolveWith, resolveWith]
  | .record _, _, _ => by rw [resolveWith, resolveWith]
  | .proc _ _ _, _, _ => by rw [resolveWith, resolveWith]
termination_by structural t => t

theorem resolveEach_congr (hreceiver : place.receiver = place'.receiver) :
    (ts : List TypeExpr) →
      (∀ t ∈ ts, ∀ u, env.Reads place t u → env.SameHead place place' u) →
      (∀ t ∈ ts, ∀ u, env.Reads place t u → deeper u = deeper' u) →
      env.resolveEach place deeper ts = env.resolveEach place' deeper' ts
  | [], _, _ => rfl
  | t :: ts, hsame, hdeeper => by
    have htail : env.resolveEach place deeper ts = env.resolveEach place' deeper' ts :=
      resolveEach_congr hreceiver ts (fun s hs => hsame s (List.mem_cons_of_mem t hs))
        fun s hs => hdeeper s (List.mem_cons_of_mem t hs)
    rw [resolveEach, resolveEach, htail,
      resolveWith_congr hreceiver t (hsame t List.mem_cons_self) (hdeeper t List.mem_cons_self)]
termination_by structural ts => ts

end

end

/-- The run: all levels, where what is deeper reads no more names than what is above. -/
theorem resolveWithin_congr (hreceiver : place.receiver = place'.receiver) (k : Nat) {t : TypeExpr}
    (hsame : ∀ u, env.Reads place t u → env.SameHead place place' u) :
    env.resolveWithin place k t = env.resolveWithin place' k t := by
  induction k generalizing t with
  | zero => rfl
  | succ k ih =>
    apply resolveWith_congr hreceiver t hsame
    intro u hu
    exact ih fun v hv => hsame v (hu.trans hv)

theorem resolveType_congr (hreceiver : place.receiver = place'.receiver) {t : TypeExpr}
    (hsame : ∀ u, env.Reads place t u → env.SameHead place place' u) (depth : Nat) :
    env.resolveType place t depth = env.resolveType place' t depth :=
  resolveWithin_congr hreceiver _ hsame

/-! ## Uses of aliases -/

theorem resolveType_aliasUse {n : TypeName} {d : AliasDecl}
    (hd : env.resolveAlias? n place.nesting = some d) (args : List TypeExpr) (depth : Nat) :
    env.resolveType place (.aliasUse n args) depth = env.resolveType place d.type (depth + 1) := by
  unfold resolveType
  by_cases hdepth : depth ≤ aliasDepth
  · have hlevels : aliasDepth + 1 - depth = aliasDepth + 1 - (depth + 1) + 1 := by omega
    rw [hlevels, resolveWithin, resolveWith, hd]
    rfl
  · have hnone : aliasDepth + 1 - depth = 0 := by omega
    have hnone' : aliasDepth + 1 - (depth + 1) = 0 := by omega
    rw [hnone, hnone', resolveWithin, resolveWithin]

/-- **Aliases are read where they are used.**  A use gives what the right side gives at its place, one
level further down; two uses of one alias give the same if their places make the same of all names that
are read. -/
theorem aliasUse_readWhereUsed {n n' : TypeName} {d : AliasDecl}
    (hd : env.resolveAlias? n place.nesting = some d)
    (hd' : env.resolveAlias? n' place'.nesting = some d)
    (hreceiver : place.receiver = place'.receiver) (args args' : List TypeExpr) (depth : Nat) :
    env.resolveType place (.aliasUse n args) depth = env.resolveType place d.type (depth + 1) ∧
      ((∀ u, env.Reads place d.type u → env.SameHead place place' u) →
        env.resolveType place (.aliasUse n args) depth
          = env.resolveType place' (.aliasUse n' args') depth) := by
  constructor
  · exact resolveType_aliasUse hd args depth
  · intro hsame
    rw [resolveType_aliasUse hd, resolveType_aliasUse hd']
    exact resolveType_congr hreceiver hsame (depth + 1)

/-! ## Two classes with an inner class of one name -/

/-- Two classes that both have a class `B`.  In the first there are an alias of `B` and one of the `B`
outside. -/
def aliasText : String :=
  "class A
  type inside = B
  type outside = ::B
  class B
  end
end
class B
end
class C
  class B
  end
end
"

/-- An alias of the first class, as it is named from anywhere. -/
def aliasOf (name : String) : TypeName := ⟨name, ["A"], false⟩

/-- The place inside of a class. -/
def placeIn (name : String) : Place := { nesting := [name] }

/-- Both aliases are found from both classes, and what the one of the inner class gives there. -/
theorem aliasText_added :
    ∃ env ds, addSignature { marker := ⟨"siggen:", by decide⟩ } aliasText = .ok (env, ds) ∧
      (∃ d, env.resolveAlias? (aliasOf "outside") (placeIn "A").nesting = some d ∧
        env.resolveAlias? (aliasOf "outside") (placeIn "C").nesting = some d ∧
        d.type = .classInstance ⟨"B", [], true⟩ []) ∧
      ∃ d, env.resolveAlias? (aliasOf "inside") (placeIn "A").nesting = some d ∧
        env.resolveAlias? (aliasOf "inside") (placeIn "C").nesting = some d ∧ d.typeParams = [] ∧
        env.resolveType (placeIn "A") (.aliasUse (aliasOf "inside") [])
          = some (.classInstance ⟨"B", ["A"], false⟩ []) ∧
        env.resolveType (placeIn "C") (.aliasUse (aliasOf "inside") [])
          = some (.classInstance ⟨"B", ["C"], false⟩ []) := by
  obtain ⟨env, ds, hadd, hboth, htype, hparams, hfirst, hsecond⟩ := exists_added aliasText
    (P := fun env =>
      (∀ name ∈ ["inside", "outside"], env.resolveAlias? (aliasOf name) (placeIn "A").nesting
        = env.resolveAlias? (aliasOf name) (placeIn "C").nesting) ∧
      (env.resolveAlias? (aliasOf "outside") (placeIn "A").nesting).map (·.type)
        = some (.classInstance ⟨"B", [], true⟩ []) ∧
      (env.resolveAlias? (aliasOf "inside") (placeIn "A").nesting).map (·.typeParams.length)
        = some 0 ∧
      env.resolveType (placeIn "A") (.aliasUse (aliasOf "inside") [])
        = some (.classInstance ⟨"B", ["A"], false⟩ []) ∧
      env.resolveType (placeIn "C") (.aliasUse (aliasOf "inside") [])
        = some (.classInstance ⟨"B", ["C"], false⟩ [])) (by decide +kernel)
  obtain ⟨d, hd, htype⟩ := Option.map_eq_some_iff.mp htype
  obtain ⟨d', hd', hparams⟩ := Option.map_eq_some_iff.mp hparams
  exact ⟨env, ds, hadd, ⟨d, hd, (hboth "outside" (by decide)).symm.trans hd, htype⟩, d', hd',
    (hboth "inside" (by decide)).symm.trans hd', List.length_eq_zero_iff.mp hparams, hfirst, hsecond⟩

/-- The alias of the absolute name gives the same in both classes. -/
theorem aliasUse_readWhereUsed_absolute :
    ∃ env ds, addSignature { marker := ⟨"siggen:", by decide⟩ } aliasText = .ok (env, ds) ∧
      (env.resolveAlias? (aliasOf "outside") (placeIn "A").nesting).isSome = true ∧
      env.resolveAlias? (aliasOf "outside") (placeIn "A").nesting
        = env.resolveAlias? (aliasOf "outside") (placeIn "C").nesting ∧
      env.resolveType (placeIn "A") (.aliasUse (aliasOf "outside") [])
        = env.resolveType (placeIn "C") (.aliasUse (aliasOf "outside") []) := by
  obtain ⟨env, ds, hadd, ⟨d, hd, hd', htype⟩, -⟩ := aliasText_added
  refine ⟨env, ds, hadd, by rw [hd]; rfl, hd.trans hd'.symm, ?_⟩
  apply (aliasUse_readWhereUsed hd hd' rfl [] [] 0).2
  intro u hu
  rw [htype] at hu
  cases hu with
  | self => exact sameHead_of_absolute rfl []
  | classArgument _ ha _ => cases ha

/-- The other one gives the class of each: it is not read where it is declared. -/
theorem aliasUse_differs :
    ∃ env ds, addSignature { marker := ⟨"siggen:", by decide⟩ } aliasText = .ok (env, ds) ∧
      ∃ d, env.resolveAlias? (aliasOf "inside") (placeIn "A").nesting = some d ∧
        env.resolveAlias? (aliasOf "inside") (placeIn "C").nesting = some d ∧ d.typeParams = [] ∧
        env.resolveType (placeIn "A") (.aliasUse (aliasOf "inside") [])
          = some (.classInstance ⟨"B", ["A"], false⟩ []) ∧
        env.resolveType (placeIn "C") (.aliasUse (aliasOf "inside") [])
          = some (.classInstance ⟨"B", ["C"], false⟩ []) := by
  obtain ⟨env, ds, hadd, -, hinside⟩ := aliasText_added
  exact ⟨env, ds, hadd, hinside⟩

end RbsSynth.Environment
