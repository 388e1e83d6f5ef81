import RbsSynth.Proofs.Analysis.AliasScope

/-!
# Types that lead back to themselves

To resolve a type, parts of it are resolved, and the right sides of aliases.  An alias may lead back to
itself, so the types do not get smaller; but with an alias or an argument the depth grows, and with any
other part it stays while the type gets smaller.  So what one resolution asks for is well-founded, by the
levels that are left and then by the size of the type:

    WellFounded (env.Asks place)                                                     (asks_wellFounded)
    env.Resolves place depth t r  ↔  r = env.resolveType place t depth                  (resolves_iff)

`Resolves` is how a resolution goes, step by step, with no bound on their number: every type has just one
run, for any aliases.  A type that only leads to aliases has no class at its head, and its run comes to nothing
(`Resolves.eq_none`).
-/

namespace RbsSynth.Environment

open Relation (ReflTransGen)
open Signature

variable {env : Environment} {place : Place}

/-! ## What a resolution asks for -/

/-- The types that are resolved for a type at some depth, each with its own depth. -/
inductive Asks (env : Environment) (place : Place) : Nat × TypeExpr → Nat × TypeExpr → Prop
  | classArgument {depth : Nat} {n : TypeName} {args : List TypeExpr} {a : TypeExpr}
    (h : depth ≤ aliasDepth) (ha : a ∈ args) : Asks env place (depth + 1, a) (depth, .classInstance n args)
  | interfaceArgument {depth : Nat} {n : TypeName} {args : List TypeExpr} {a : TypeExpr}
    (h : depth ≤ aliasDepth) (ha : a ∈ args) :
    Asks env place (depth + 1, a) (depth, .interfaceInstance n args)
  | meaning {depth : Nat} {n : TypeName} {args : List TypeExpr} {d : AliasDecl} (h : depth ≤ aliasDepth)
    (hd : env.resolveAlias? n place.nesting = some d) :
    Asks env place (depth + 1, d.type) (depth, .aliasUse n args)
  | inner {depth : Nat} {t : TypeExpr} (h : depth ≤ aliasDepth) : Asks env place (depth, t) (depth, .optional t)
  | unionMember {depth : Nat} {ts : List TypeExpr} {t : TypeExpr} (h : depth ≤ aliasDepth) (ht : t ∈ ts) :
    Asks env place (depth, t) (depth, .union ts)
  | intersectionMember {depth : Nat} {ts : List TypeExpr} {t : TypeExpr} (h : depth ≤ aliasDepth)
    (ht : t ∈ ts) : Asks env place (depth, t) (depth, .intersection ts)

/-- With an alias or an argument the depth grows, with any other part the type gets smaller. -/
theorem Asks.smaller {p q : Nat × TypeExpr} (h : env.Asks place p q) :
    q.1 ≤ aliasDepth ∧ (p.1 = q.1 + 1 ∨ p.1 = q.1 ∧ sizeOf p.2 < sizeOf q.2) := by
  cases h with
  | classArgument h ha => exact ⟨h, .inl rfl⟩
  | interfaceArgument h ha => exact ⟨h, .inl rfl⟩
  | meaning h hd => exact ⟨h, .inl rfl⟩
  | inner h => exact ⟨h, .inr ⟨rfl, by simp⟩⟩
  | unionMember h ht =>
    have hsize := List.sizeOf_lt_of_mem ht
    exact ⟨h, .inr ⟨rfl, by simp; omega⟩⟩
  | intersectionMember h ht =>
    have hsize := List.sizeOf_lt_of_mem ht
    exact ⟨h, .inr ⟨rfl, by simp; omega⟩⟩

/-- **What a resolution asks for is well-founded**, whatever aliases lead to. -/
theorem asks_wellFounded (env : Environment) (place : Place) : WellFounded (env.Asks place) := by
  refine Subrelation.wf ?_ (InvImage.wf (fun p : Nat × TypeExpr => (aliasDepth + 1 - p.1, sizeOf p.2))
    (Prod.lex ⟨_, Nat.lt_wfRel.wf⟩ ⟨_, Nat.lt_wfRel.wf⟩).wf)
  intro p q h
  obtain ⟨hdepth, hdeeper | ⟨hsame, hsize⟩⟩ := h.smaller
  · exact Prod.Lex.left _ _ (show aliasDepth + 1 - p.1 < aliasDepth + 1 - q.1 by omega)
  · simp only [InvImage, hsame]
    exact Prod.Lex.right _ hsize

/-! ## Runs -/

/-- How a type is resolved, with the depth counted up from that of the type.  All members of a union and of an
intersection are resolved, though the first that decides would do. -/
inductive Resolves (env : Environment) (place : Place) : Nat → TypeExpr → Option TypeExpr → Prop
  | tooDeep {depth : Nat} (h : aliasDepth < depth) (t : TypeExpr) : Resolves env place depth t none
  | base {depth : Nat} (h : depth ≤ aliasDepth) (w : BaseType) :
    Resolves env place depth (.base w) (env.resolveBase place w)
  | assigned {depth : Nat} (h : depth ≤ aliasDepth) {n : TypeName} (args : List TypeExpr)
    {known : Option TypeExpr} (hn : place.variable_ n = some known) :
    Resolves env place depth (.classInstance n args) known
  | noClass {depth : Nat} (h : depth ≤ aliasDepth) {n : TypeName} (args : List TypeExpr)
    (hn : place.variable_ n = none) (hm : env.resolveKind? place n [.ofClass, .ofModule] = none) :
    Resolves env place depth (.classInstance n args) none
  | classInstance {depth : Nat} (h : depth ≤ aliasDepth) {n m : TypeName} {args : List TypeExpr}
    {f : TypeExpr → Option TypeExpr} (hn : place.variable_ n = none)
    (hm : env.resolveKind? place n [.ofClass, .ofModule] = some m)
    (hargs : ∀ a ∈ args, Resolves env place (depth + 1) a (f a)) :
    Resolves env place depth (.classInstance n args)
      (some (.classInstance m (args.map fun a => (f a).getD untyped)))
  | noInterface {depth : Nat} (h : depth ≤ aliasDepth) {n : TypeName} (args : List TypeExpr)
    (hm : env.resolveKind? place n [.ofInterface] = none) :
    Resolves env place depth (.interfaceInstance n args) none
  | interfaceInstance {depth : Nat} (h : depth ≤ aliasDepth) {n m : TypeName} {args : List TypeExpr}
    {f : TypeExpr → Option TypeExpr} (hm : env.resolveKind? place n [.ofInterface] = some m)
    (hargs : ∀ a ∈ args, Resolves env place (depth + 1) a (f a)) :
    Resolves env place depth (.interfaceInstance n args)
      (some (.interfaceInstance m (args.map fun a => (f a).getD untyped)))
  | classSingleton {depth : Nat} (h : depth ≤ aliasDepth) (n : TypeName) :
    Resolves env place depth (.classSingleton n)
      ((env.resolveKind? place n [.ofClass, .ofModule, .ofInterface]).map .classSingleton)
  | noAlias {depth : Nat} (h : depth ≤ aliasDepth) {n : TypeName} (args : List TypeExpr)
    (hd : env.resolveAlias? n place.nesting = none) : Resolves env place depth (.aliasUse n args) none
  | aliasUse {depth : Nat} (h : depth ≤ aliasDepth) {n : TypeName} (args : List TypeExpr) {d : AliasDecl}
    {r : Option TypeExpr} (hd : env.resolveAlias? n place.nesting = some d)
    (hr : Resolves env place (depth + 1) d.type r) : Resolves env place depth (.aliasUse n args) r
  | optional {depth : Nat} (h : depth ≤ aliasDepth) {t : TypeExpr} {r : Option TypeExpr}
    (hr : Resolves env place depth t r) : Resolves env place depth (.optional t) r
  | union {depth : Nat} (h : depth ≤ aliasDepth) {ts : List TypeExpr} {f : TypeExpr → Option TypeExpr}
    (hts : ∀ t ∈ ts, Resolves env place depth t (f t)) :
    Resolves env place depth (.union ts) (unionOf (ts.map f))
  | intersection {depth : Nat} (h : depth ≤ aliasDepth) {ts : List TypeExpr} {f : TypeExpr → Option TypeExpr}
    (hts : ∀ t ∈ ts, Resolves env place depth t (f t)) :
    Resolves env place depth (.intersection ts) ((ts.map f).findSome? id)
  | literal {depth : Nat} (h : depth ≤ aliasDepth) (text : String) :
    Resolves env place depth (.literal text) (env.instanceNamed? (literalClass text))
  | tuple {depth : Nat} (h : depth ≤ aliasDepth) (ts : List TypeExpr) :
    Resolves env place depth (.tuple ts) (env.instanceNamed? "Array")
  | record {depth : Nat} (h : depth ≤ aliasDepth) (fields : List RecordField) :
    Resolves env place depth (.record fields) (env.instanceNamed? "Hash")
  | proc {depth : Nat} (h : depth ≤ aliasDepth) (function : FunctionType) (block : Option Block)
    (selfType : Option TypeExpr) :
    Resolves env place depth (.proc function block selfType) (env.instanceNamed? "Proc")

theorem resolveEach_eq_map (deeper : TypeExpr → Option TypeExpr) (ts : List TypeExpr) :
    env.resolveEach place deeper ts = ts.map (env.resolveWith place deeper) := by
  induction ts with
  | nil => rfl
  | cons t ts ih => rw [resolveEach, ih, List.map_cons]

/-- One level, with the next one below it. -/
theorem resolveType_step {depth : Nat} (h : depth ≤ aliasDepth) (t : TypeExpr) :
    env.resolveType place t depth
      = env.resolveWith place (fun u => env.resolveType place u (depth + 1)) t := by
  unfold resolveType
  have hlevels : aliasDepth + 1 - depth = aliasDepth + 1 - (depth + 1) + 1 := by omega
  rw [hlevels, resolveWithin]

theorem resolveType_tooDeep {depth : Nat} (h : aliasDepth < depth) (t : TypeExpr) :
    env.resolveType place t depth = none := by
  have hnone : aliasDepth + 1 - depth = 0 := by omega
  rw [resolveType, hnone, resolveWithin]

/-- A run gives what the levels give. -/
theorem Resolves.eq {depth : Nat} {t : TypeExpr} {r : Option TypeExpr} (h : env.Resolves place depth t r) :
    env.resolveType place t depth = r := by
  induction h with
  | tooDeep h t => exact resolveType_tooDeep h t
  | assigned h args hn => rw [resolveType_step h, resolveWith, hn]
  | noClass h args hn hm =>
    rw [resolveType_step h, resolveWith, hn, hm]
    rfl
  | classInstance h hn hm hargs ih =>
    rw [resolveType_step h, resolveWith, hn, hm]
    simp only [Option.map_some, arguments_congr ih]
  | noInterface h args hm =>
    rw [resolveType_step h, resolveWith, hm]
    rfl
  | interfaceInstance h hm hargs ih =>
    rw [resolveType_step h, resolveWith, hm, Option.map_some, arguments_congr ih]
  | noAlias h args hd =>
    rw [resolveType_step h, resolveWith, hd]
    rfl
  | aliasUse h args hd hr ih => rw [resolveType_aliasUse hd, ih]
  | optional h hr ih => rw [resolveType_step h, resolveWith, ← resolveType_step h, ih]
  | union h hts ih =>
    rw [resolveType_step h, resolveWith, resolveEach_eq_map]
    congr 1
    refine List.map_congr_left fun t ht => ?_
    rw [← resolveType_step h, ih t ht]
  | intersection h hts ih =>
    rw [resolveType_step h, resolveWith, resolveEach_eq_map]
    congr 1
    refine List.map_congr_left fun t ht => ?_
    rw [← resolveType_step h, ih t ht]
  | base h | classSingleton h | literal h | tuple h | record h | proc h => rw [resolveType_step h, resolveWith]

/-- Every type has a run. -/
theorem exists_resolves (env : Environment) (place : Place) (p : Nat × TypeExpr) :
    ∃ r, env.Resolves place p.1 p.2 r := by
  induction p using (asks_wellFounded env place).induction with
  | h p ih =>
    obtain ⟨depth, t⟩ := p
    have runs : ∀ depth' u, env.Asks place (depth', u) (depth, t) →
        env.Resolves place depth' u (env.resolveType place u depth') := by
      intro depth' u hu
      obtain ⟨r, hr⟩ := ih (depth', u) hu
      rw [hr.eq]
      exact hr
    by_cases hdepth : aliasDepth < depth
    · exact ⟨none, .tooDeep hdepth t⟩
    have h : depth ≤ aliasDepth := Nat.le_of_not_lt hdepth
    cases t with
    | base w => exact ⟨_, .base h w⟩
    | classInstance n args =>
      cases hn : place.variable_ n with
      | some known => exact ⟨known, .assigned h args hn⟩
      | none =>
        cases hm : env.resolveKind? place n [.ofClass, .ofModule] with
        | none => exact ⟨none, .noClass h args hn hm⟩
        | some m => exact ⟨_, .classInstance h hn hm fun a ha => runs _ a (.classArgument h ha)⟩
    | interfaceInstance n args =>
      cases hm : env.resolveKind? place n [.ofInterface] with
      | none => exact ⟨none, .noInterface h args hm⟩
      | some m => exact ⟨_, .interfaceInstance h hm fun a ha => runs _ a (.interfaceArgument h ha)⟩
    | classSingleton n => exact ⟨_, .classSingleton h n⟩
    | aliasUse n args =>
      cases hd : env.resolveAlias? n place.nesting with
      | none => exact ⟨none, .noAlias h args hd⟩
      | some d => exact ⟨_, .aliasUse h args hd (runs _ d.type (.meaning h hd))⟩
    | optional t => exact ⟨_, .optional h (runs _ t (.inner h))⟩
    | union ts => exact ⟨_, .union h fun t ht => runs _ t (.unionMember h ht)⟩
    | intersection ts => exact ⟨_, .intersection h fun t ht => runs _ t (.intersectionMember h ht)⟩
    | literal text => exact ⟨_, .literal h text⟩
    | tuple ts => exact ⟨_, .tuple h ts⟩
    | record fields => exact ⟨_, .record h fields⟩
    | proc function block selfType => exact ⟨_, .proc h function block selfType⟩

theorem resolves_iff {depth : Nat} {t : TypeExpr} {r : Option TypeExpr} :
    env.Resolves place depth t r ↔ r = env.resolveType place t depth := by
  constructor
  · intro h
    exact h.eq.symm
  · rintro rfl
    obtain ⟨r, hr⟩ := exists_resolves env place (depth, t)
    rw [hr.eq]
    exact hr

/-! ## Aliases of aliases -/

/-- The types that stand in place of one that is no class by itself: the right side of an alias, or the types that
it is put together from. -/
def heads (env : Environment) (place : Place) : TypeExpr → List TypeExpr
  | .aliasUse n _ => ((env.resolveAlias? n place.nesting).map (·.type)).toList
  | .optional t => [t]
  | .union ts | .intersection ts => ts
  | _ => []

/-- Whether a type is an alias or put together from types, and no class by itself. -/
def isHeadless : TypeExpr → Bool
  | .aliasUse _ _ | .optional _ | .union _ | .intersection _ => true
  | _ => false

/-- A type that only leads to aliases, however long they are followed. -/
def OnlyAliases (env : Environment) (place : Place) (t : TypeExpr) : Prop :=
  ∀ u, ReflTransGen (fun t u => u ∈ env.heads place t) t u → isHeadless u = true

theorem OnlyAliases.head {t u : TypeExpr} (h : env.OnlyAliases place t) (hu : u ∈ env.heads place t) :
    env.OnlyAliases place u := by
  intro v hv
  exact h v (.head hu hv)

/-- Aliases that lead to each other, and to nothing else. -/
theorem onlyAliases_of_closed {ts : List TypeExpr}
    (hts : ∀ t ∈ ts, isHeadless t = true ∧ ∀ u ∈ env.heads place t, u ∈ ts) :
    ∀ t ∈ ts, env.OnlyAliases place t := by
  intro t ht u hu
  have hmem : u ∈ ts := by
    induction hu with
    | refl => exact ht
    | tail _ hhead ih => exact (hts _ ih).2 _ hhead
  exact (hts u hmem).1

theorem unionOf_unknown {ts : List (Option TypeExpr)} (h : ∀ t ∈ ts, t = none) : unionOf ts = none := by
  cases ts with
  | nil => rfl
  | cons t ts =>
    have ht : t = none := h t List.mem_cons_self
    simp [unionOf, ht]

/-- A run of a type that only leads to aliases does not come to anything. -/
theorem Resolves.eq_none {depth : Nat} {t : TypeExpr} {r : Option TypeExpr} (h : env.Resolves place depth t r)
    (ht : env.OnlyAliases place t) : r = none := by
  have hhead : isHeadless t = true := ht t .refl
  induction h with
  | tooDeep | noClass | noInterface | noAlias => rfl
  | @aliasUse _ _ _ args d _ hd _ ih =>
    have ht := ht.head (u := d.type) (by simp [heads, hd])
    exact ih ht (ht _ .refl)
  | @optional _ _ t _ _ ih =>
    have ht := ht.head (u := t) (by simp [heads])
    exact ih ht (ht _ .refl)
  | union _ _ ih =>
    refine unionOf_unknown (List.forall_mem_map.mpr fun t hmem => ?_)
    have ht := ht.head (u := t) (by simp [heads, hmem])
    exact ih t hmem ht (ht _ .refl)
  | intersection _ _ ih =>
    rw [List.findSome?_eq_none_iff]
    refine List.forall_mem_map.mpr fun t hmem => ?_
    have ht := ht.head (u := t) (by simp [heads, hmem])
    exact ih t hmem ht (ht _ .refl)
  | _ => cases hhead

/-- **Types are resolved, whatever their aliases lead back to.**  No resolution asks for others without end, every
type at every depth has one run, and a type that only leads to aliases is unknown. -/
theorem resolution_terminates (env : Environment) (place : Place) :
    WellFounded (env.Asks place) ∧
      (∀ depth t r, env.Resolves place depth t r ↔ r = env.resolveType place t depth) ∧
      ∀ t, env.OnlyAliases place t → ∀ depth, env.resolveType place t depth = none := by
  refine ⟨asks_wellFounded env place, fun depth t r => resolves_iff, fun t ht depth => ?_⟩
  exact (resolves_iff.mpr rfl).eq_none ht

/-- Two aliases of each other, and a class of an alias of itself. -/
def cyclicAliases : String :=
  "type a = b | a?
type b = a & b
type c = A[c]
class A[T]
end
"

def useOf (name : String) : TypeExpr := .aliasUse ⟨name, [], false⟩ []

/-- The aliases of each other are unknown; the other one is a class, of which the arguments are followed down. -/
theorem resolution_terminates_cyclic :
    ∃ env ds, addSignature { marker := ⟨"siggen:", by decide⟩ } cyclicAliases = .ok (env, ds) ∧
      env.OnlyAliases {} (useOf "a") ∧ env.resolveType {} (useOf "a") = none ∧
      (env.resolveType {} (useOf "c")).isSome = true := by
  obtain ⟨env, ds, hadd, hclosed, hsome⟩ := exists_added cyclicAliases
    (P := fun env =>
      (∀ t ∈ [useOf "a", useOf "b", .union [useOf "b", .optional (useOf "a")], .optional (useOf "a"),
          .intersection [useOf "a", useOf "b"]],
        isHeadless t = true ∧ ∀ u ∈ env.heads {} t, u ∈ [useOf "a", useOf "b",
          .union [useOf "b", .optional (useOf "a")], .optional (useOf "a"),
          .intersection [useOf "a", useOf "b"]]) ∧
      (env.resolveType {} (useOf "c")).isSome = true) (by decide +kernel)
  have honly : env.OnlyAliases {} (useOf "a") := onlyAliases_of_closed hclosed _ List.mem_cons_self
  exact ⟨env, ds, hadd, honly, (resolution_terminates env {}).2.2 _ honly 0, hsome⟩

end RbsSynth.Environment
