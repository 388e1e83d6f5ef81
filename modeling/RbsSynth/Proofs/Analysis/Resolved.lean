import RbsSynth.Analysis.Calls
import RbsSynth.Analysis.Infer
import RbsSynth.Proofs.Index

/-!
# Resolved types

A type is resolved when methods are looked up on it, and a type that may be unknown is known to be
resolved when it is either.  `named` says which names a resolved type may have; all those that an
environment declares must be among them (`Environment.Names`).  What is inferred from resolved types is
resolved:

    place.IsResolved named  →  Known named (env.resolveType place t depth)            (resolveType_known)
    view.IsResolved named   →  Known named (infer view t)                             (infer_known)

A resolved receiver has a type to look a method up on, so that a call that is matched has a
declaration and every call can be resolved                                (resolveCall_ok)
-/

namespace RbsSynth

open Signature

/-- An instance or a class object, or two or more of these; an argument may also be unknown. -/
inductive Resolved (named : TypeName → Prop) : TypeExpr → Prop
  | classInstance {n : TypeName} (hn : named n) {args : List TypeExpr}
    (h : ∀ a ∈ args, a ≠ untyped → Resolved named a) : Resolved named (.classInstance n args)
  | interfaceInstance {n : TypeName} (hn : named n) {args : List TypeExpr}
    (h : ∀ a ∈ args, a ≠ untyped → Resolved named a) : Resolved named (.interfaceInstance n args)
  | classSingleton {n : TypeName} (hn : named n) : Resolved named (.classSingleton n)
  | union {ts : List TypeExpr} (hlen : 2 ≤ ts.length) (hnodup : ts.Nodup)
    (h : ∀ t ∈ ts, Resolved named t) (hflat : ∀ t ∈ ts, ∀ us, t ≠ .union us) :
    Resolved named (.union ts)

/-- A type that is resolved, if it is known. -/
def Known (named : TypeName → Prop) (o : Option TypeExpr) : Prop := ∀ t, o = some t → Resolved named t

/-- Every name; what is resolved then says nothing of names. -/
abbrev AnyName (_ : TypeName) : Prop := True

/-- The names that an environment declares are among those of resolved types. -/
class Environment.Names (env : Environment) (named : TypeName → Prop) : Prop where
  declared : ∀ q, env.hasModule q = true → named (declaredName q)

instance (env : Environment) : env.Names AnyName := ⟨fun _ _ => trivial⟩

variable {named : TypeName → Prop}

theorem known_none : Known named none := fun _ h => nomatch h

theorem Resolved.known {t : TypeExpr} (h : Resolved named t) : Known named (some t) :=
  fun _ he => Option.some.inj he ▸ h

theorem Known.bind {o : Option TypeExpr} {f : TypeExpr → Option TypeExpr} (h : Known named o)
    (hf : ∀ t, Resolved named t → Known named (f t)) : Known named (o.bind f) := by
  cases o with
  | none => exact known_none
  | some t => exact hf t (h t rfl)

theorem noArguments : ∀ a ∈ ([] : List TypeExpr), a ≠ untyped → Resolved named a :=
  fun _ h => nomatch h

/-! ## Unions -/

/-- The members of a union: different resolved types, none of them a union. -/
structure Members (named : TypeName → Prop) (ts : List TypeExpr) : Prop where
  nodup : ts.Nodup
  resolved : ∀ t ∈ ts, Resolved named t
  flat : ∀ t ∈ ts, ∀ us, t ≠ .union us

theorem members_nil : Members named [] where
  nodup := .nil
  resolved _ h := nomatch h
  flat _ h := nomatch h

theorem Members.addType {found : List TypeExpr} {t : TypeExpr} (h : Members named found)
    (ht : Resolved named t) (hflat : ∀ us, t ≠ .union us) : Members named (addType found t) := by
  rw [RbsSynth.addType]
  split
  · exact h
  · next hc =>
    rw [List.contains_iff_mem] at hc
    refine ⟨List.nodup_append.mpr ⟨h.nodup, List.pairwise_singleton _ t, ?_⟩, ?_, ?_⟩
    · rintro u hu _ ht rfl
      exact hc (List.mem_singleton.mp ht ▸ hu)
    · intro u hu
      rcases List.mem_append.mp hu with hu | hu
      · exact h.resolved u hu
      · exact List.mem_singleton.mp hu ▸ ht
    · intro u hu
      rcases List.mem_append.mp hu with hu | hu
      · exact h.flat u hu
      · exact List.mem_singleton.mp hu ▸ hflat

theorem Members.foldl_addType {found ts : List TypeExpr} (h : Members named found)
    (hts : ∀ t ∈ ts, Resolved named t) (hflat : ∀ t ∈ ts, ∀ us, t ≠ .union us) :
    Members named (ts.foldl RbsSynth.addType found) := by
  induction ts generalizing found with
  | nil => exact h
  | cons t ts ih =>
    have hadd := h.addType (hts t List.mem_cons_self) (hflat t List.mem_cons_self)
    exact ih hadd (fun u hu => hts u (List.mem_cons_of_mem t hu))
      fun u hu => hflat u (List.mem_cons_of_mem t hu)

theorem Members.addMembers {found : List TypeExpr} {t : TypeExpr} (h : Members named found)
    (ht : Resolved named t) : Members named (addMembers found t) := by
  cases ht with
  | classInstance hn hargs => exact h.addType (.classInstance hn hargs) fun _ => nofun
  | interfaceInstance hn hargs => exact h.addType (.interfaceInstance hn hargs) fun _ => nofun
  | classSingleton hn => exact h.addType (.classSingleton hn) fun _ => nofun
  | union _ _ hts hflat => exact h.foldl_addType hts hflat

theorem Members.foldl_addMembers {found ts : List TypeExpr} (h : Members named found)
    (hts : ∀ t ∈ ts, Resolved named t) : Members named (ts.foldl RbsSynth.addMembers found) := by
  induction ts generalizing found with
  | nil => exact h
  | cons t ts ih =>
    exact ih (h.addMembers (hts t List.mem_cons_self)) fun u hu => hts u (List.mem_cons_of_mem t hu)

theorem unionOf_known {os : List (Option TypeExpr)} (h : ∀ o ∈ os, Known named o) :
    Known named (unionOf os) := by
  rw [unionOf]
  split
  · have hm : Members named ((os.filterMap id).foldl addMembers []) := by
      refine members_nil.foldl_addMembers fun t ht => ?_
      obtain ⟨o, ho, he⟩ := List.mem_filterMap.mp ht
      exact h o ho t he
    split
    · exact known_none
    · next t he =>
      rw [he] at hm
      exact (hm.resolved t List.mem_cons_self).known
    · next ts hnil hone =>
      refine (Resolved.union ?_ hm.nodup hm.resolved hm.flat).known
      match hts : (os.filterMap id).foldl addMembers [] with
      | [] => exact absurd hts hnil
      | [t] => exact absurd hts (hone t)
      | _ :: _ :: _ => exact Nat.le_add_left 2 _
  · exact known_none

/-! ## Instances and class objects -/

theorem instancesOf_eq (ts : List TypeExpr) : instanceOf.instancesOf ts = ts.map instanceOf := by
  induction ts with
  | nil => rfl
  | cons t ts ih => rw [instanceOf.instancesOf, ih, List.map_cons]

theorem instanceOf_known {t : TypeExpr} (h : Resolved named t) : Known named (instanceOf t) := by
  induction h with
  | classInstance hn hargs => exact (Resolved.classInstance hn hargs).known
  | interfaceInstance hn hargs => exact (Resolved.interfaceInstance hn hargs).known
  | classSingleton hn => exact (Resolved.classInstance hn noArguments).known
  | union _ _ _ _ ih =>
    rw [instanceOf, instancesOf_eq]
    refine unionOf_known fun o ho => ?_
    obtain ⟨u, hu, rfl⟩ := List.mem_map.mp ho
    exact ih u hu

namespace Environment

variable {env : Environment} [henv : env.Names named]

theorem instanceNamed_known (name : String) : Known named (env.instanceNamed? name) := by
  rw [instanceNamed?]
  split
  · next h => exact (Resolved.classInstance (henv.declared name h) noArguments).known
  · exact known_none

theorem singletonsOf_eq (ts : List TypeExpr) : env.singletonsOf ts = ts.map env.singletonOf := by
  induction ts with
  | nil => rfl
  | cons t ts ih => rw [singletonsOf, ih, List.map_cons]

theorem singletonOf_known {t : TypeExpr} (h : Resolved named t) : Known named (env.singletonOf t) := by
  induction h with
  | classInstance hn => exact (Resolved.classSingleton hn).known
  | interfaceInstance => exact known_none
  | classSingleton =>
    rw [singletonOf]
    exact instanceNamed_known _
  | union _ _ _ _ ih =>
    rw [singletonOf, singletonsOf_eq]
    refine unionOf_known fun o ho => ?_
    obtain ⟨u, hu, rfl⟩ := List.mem_map.mp ho
    exact ih u hu

/-! ## Types in signatures -/

/-- What a place says of `self` and of type variables is resolved. -/
structure Place.IsResolved (named : TypeName → Prop) (place : Place) : Prop where
  receiver : Known named place.receiver
  assigned : ∀ name o, place.assigned.find? name = some o → Known named o

variable {place : Place}

theorem resolveBase_known (hp : place.IsResolved named) (w : BaseType) :
    Known named (env.resolveBase place w) := by
  cases w with
  | self => exact hp.receiver
  | instanceOf => exact hp.receiver.bind fun _ => instanceOf_known
  | classOf => exact hp.receiver.bind fun _ => singletonOf_known
  | nil => exact instanceNamed_known _
  | true => exact instanceNamed_known _
  | false => exact instanceNamed_known _
  | bool =>
    refine unionOf_known fun o ho => ?_
    rcases List.mem_cons.mp ho with rfl | ho
    · exact instanceNamed_known _
    · obtain rfl := List.mem_singleton.mp ho
      exact instanceNamed_known _
  | _ => exact known_none

omit henv in
theorem variable_known (hp : place.IsResolved named) {n : TypeName} {o : Option TypeExpr}
    (h : place.variable_ n = some o) : Known named o := by
  rw [Place.variable_] at h
  split at h
  · exact hp.assigned _ o h
  · cases h

omit henv in
/-- Arguments are resolved, or not known. -/
theorem arguments_resolved {deeper : TypeExpr → Option TypeExpr} (hd : ∀ t, Known named (deeper t))
    (args : List TypeExpr) :
    ∀ a ∈ args.map (fun a => (deeper a).getD untyped), a ≠ untyped → Resolved named a := by
  intro a ha hne
  obtain ⟨b, _, rfl⟩ := List.mem_map.mp ha
  cases hb : deeper b with
  | none =>
    rw [hb] at hne
    exact absurd rfl hne
  | some t => exact hd b t hb

/-- The name that a kind is looked up for is declared. -/
theorem resolveKind_known {n : TypeName} {kinds : List ModuleKind} {f : TypeName → TypeExpr}
    (h : ∀ m, named m → Resolved named (f m)) :
    Known named ((env.resolveKind? place n kinds).map f) := by
  intro t ht
  obtain ⟨m, hm, rfl⟩ := Option.map_eq_some_iff.mp ht
  rw [resolveKind?] at hm
  split at hm
  · cases hm
  · next q _ =>
    split at hm
    · next hkind =>
      obtain rfl := Option.some.inj hm
      refine h _ (henv.declared q ?_)
      rw [kindOf?] at hkind
      rw [hasModule, Index.has]
      cases he : env.modules.find? q with
      | none => rw [he] at hkind; cases hkind
      | some e => rfl
    · cases hm

set_option linter.unusedSectionVars false in
mutual

theorem resolveWith_known (hp : place.IsResolved named) {deeper : TypeExpr → Option TypeExpr}
    (hd : ∀ t, Known named (deeper t)) : (t : TypeExpr) → Known named (env.resolveWith place deeper t)
  | .base w => by
    rw [resolveWith]
    exact resolveBase_known hp w
  | .classInstance n args => by
    rw [resolveWith]
    split
    · next known h => exact variable_known hp h
    · exact resolveKind_known fun m hm => .classInstance hm (arguments_resolved hd args)
  | .interfaceInstance n args => by
    rw [resolveWith]
    exact resolveKind_known fun m hm => .interfaceInstance hm (arguments_resolved hd args)
  | .classSingleton n => by
    rw [resolveWith]
    exact resolveKind_known fun m hm => .classSingleton hm
  | .aliasUse n args => by
    rw [resolveWith]
    cases env.resolveAlias? n place.nesting with
    | none => exact known_none
    | some d => exact hd d.type
  | .optional t => by
    rw [resolveWith]
    exact resolveWith_known hp hd t
  | .union ts => by
    rw [resolveWith]
    exact unionOf_known (resolveEach_known hp hd ts)
  | .intersection ts => by
    rw [resolveWith]
    intro t ht
    obtain ⟨o, ho, he⟩ := List.exists_of_findSome?_eq_some ht
    exact resolveEach_known hp hd ts o ho t he
  | .literal text => by
    rw [resolveWith]
    exact instanceNamed_known _
  | .tuple ts => by
    rw [resolveWith]
    exact instanceNamed_known _
  | .record fs => by
    rw [resolveWith]
    exact instanceNamed_known _
  | .proc f b s => by
    rw [resolveWith]
    exact instanceNamed_known _
termination_by structural t => t

theorem resolveEach_known (hp : place.IsResolved named) {deeper : TypeExpr → Option TypeExpr}
    (hd : ∀ t, Known named (deeper t)) :
    (ts : List TypeExpr) → ∀ o ∈ env.resolveEach place deeper ts, Known named o
  | [] => fun _ h => nomatch h
  | t :: ts => by
    rw [resolveEach]
    intro o ho
    rcases List.mem_cons.mp ho with rfl | ho
    · exact resolveWith_known hp hd t
    · exact resolveEach_known hp hd ts o ho
termination_by structural ts => ts

end

theorem resolveWithin_known (hp : place.IsResolved named) (n : Nat) (t : TypeExpr) :
    Known named (env.resolveWithin place n t) := by
  induction n generalizing t with
  | zero => exact known_none
  | succ n ih => exact resolveWith_known hp ih t

theorem resolveType_known (hp : place.IsResolved named) (t : TypeExpr) (depth : Nat) :
    Known named (env.resolveType place t depth) := resolveWithin_known hp _ t

/-! ## Types of methods -/

omit henv in
theorem assigned_known {names : List String} {args : List TypeExpr}
    (hargs : ∀ a ∈ args, a ≠ untyped → Resolved named a) {name : String} {o : Option TypeExpr}
    {known : Index (Option TypeExpr)} (hknown : ∀ n o, known.find? n = some o → Known named o)
    (h : ((names.zip args).foldl (fun known (name, arg) =>
      Index.put name (match arg with | .base _ => none | t => some t) known) known).find? name
      = some o) : Known named o := by
  induction names generalizing args known with
  | nil => exact hknown name o h
  | cons n names ih =>
    cases args with
    | nil => exact hknown name o h
    | cons a args =>
      refine ih (fun b hb => hargs b (List.mem_cons_of_mem a hb)) ?_ h
      intro m p hm
      rw [Index.find?_put] at hm
      split at hm
      · obtain rfl := Option.some.inj hm
        split
        · exact known_none
        · next hbase => exact (hargs a List.mem_cons_self (hbase _)).known
      · exact hknown m p hm

omit henv in
theorem substitution_known (e : MethodEntry) {receiver : Option TypeExpr} (h : Known named receiver)
    {name : String} {o : Option TypeExpr}
    (ho : (env.substitution e receiver).find? name = some o) : Known named o := by
  have hnone : ∀ n o, Index.find? n ([] : Index (Option TypeExpr)) = some o → Known named o :=
    fun _ _ h => nomatch h
  unfold substitution at ho
  split at ho
  · next n args =>
    dsimp only at ho
    split at ho
    · cases h _ rfl with
      | classInstance _ hargs => exact assigned_known hargs hnone ho
    · cases ho
  · next n args =>
    dsimp only at ho
    split at ho
    · cases h _ rfl with
      | interfaceInstance _ hargs => exact assigned_known hargs hnone ho
    · cases ho
  · cases ho

omit henv in
theorem placeOf_isResolved (e : MethodEntry) {receiver : Option TypeExpr} (h : Known named receiver) :
    (env.placeOf e receiver).IsResolved named := ⟨h, fun _ _ => substitution_known e h⟩

theorem returnType_known (e : MethodEntry) (m : MethodType) {receiver : Option TypeExpr}
    (h : Known named receiver) : Known named (env.returnType e m receiver) :=
  resolveType_known (placeOf_isResolved e h) _ _

theorem blockParamTypes_known (e : MethodEntry) (m : MethodType) {receiver : Option TypeExpr}
    (h : Known named receiver) : ∀ o ∈ env.blockParamTypes e m receiver, Known named o := by
  intro o ho
  rw [blockParamTypes] at ho
  split at ho
  · cases ho
  · obtain ⟨p, _, rfl⟩ := List.mem_map.mp ho
    exact resolveType_known (placeOf_isResolved e h) _ _

theorem blockSelfType_known (e : MethodEntry) (m : MethodType) {receiver : Option TypeExpr}
    (h : Known named receiver) : Known named (env.blockSelfType e m receiver) := by
  rw [blockSelfType]
  cases m.block.bind (·.selfType) with
  | none => exact known_none
  | some t => exact resolveType_known (placeOf_isResolved e h) _ _

end Environment

/-! ## Receivers -/

/-- Methods are looked up on a resolved type that is no union. -/
theorem Resolved.isSome_lookupOf {t : TypeExpr} (h : Resolved named t) (hflat : ∀ us, t ≠ .union us) :
    (Analysis.lookupOf t).isSome = true := by
  cases h with
  | union => exact absurd rfl (hflat _)
  | _ => rfl

theorem receiverTypes_of_lookupOf {t : TypeExpr} (h : (Analysis.lookupOf t).isSome = true) :
    receiverTypes? t = some [t] := by
  cases t with
  | classInstance => rfl
  | interfaceInstance => rfl
  | classSingleton => rfl
  | _ => cases h

theorem addType_ne_nil (found : List TypeExpr) (t : TypeExpr) : addType found t ≠ [] := by
  rw [addType]
  split
  · next h => exact List.ne_nil_of_mem (List.contains_iff_mem.mp h)
  · exact List.append_ne_nil_of_right_ne_nil found (List.cons_ne_nil t [])

theorem memberTypes_eq {found ts : List TypeExpr}
    (h : ∀ t ∈ ts, (Analysis.lookupOf t).isSome = true) :
    memberTypes? found ts = some (ts.foldl addType found) := by
  induction ts generalizing found with
  | nil => rfl
  | cons t ts ih =>
    rw [memberTypes?, receiverTypes_of_lookupOf (h t List.mem_cons_self)]
    exact ih fun u hu => h u (List.mem_cons_of_mem t hu)

theorem foldl_addType_ne_nil (ts : List TypeExpr) {found : List TypeExpr} (h : found ≠ []) :
    ts.foldl addType found ≠ [] := by
  induction ts generalizing found with
  | nil => exact h
  | cons t ts ih => exact ih (addType_ne_nil found t)

/-- A resolved receiver has types to look methods up on, all of them resolved. -/
theorem Resolved.receiverTypes {t : TypeExpr} (h : Resolved named t) :
    ∃ ts, receiverTypes? t = some ts ∧ ts ≠ [] ∧ ∀ u ∈ ts, Resolved named u := by
  have hflat : (∀ us, t ≠ .union us) →
      ∃ ts, receiverTypes? t = some ts ∧ ts ≠ [] ∧ ∀ u ∈ ts, Resolved named u := fun hne =>
    ⟨[t], receiverTypes_of_lookupOf (h.isSome_lookupOf hne), List.cons_ne_nil t [], fun u hu =>
      List.mem_singleton.mp hu ▸ h⟩
  cases h with
  | classInstance => exact hflat fun _ => nofun
  | interfaceInstance => exact hflat fun _ => nofun
  | classSingleton => exact hflat fun _ => nofun
  | @union ts hlen _ hts hne =>
    have hlookup : ∀ u ∈ ts, (Analysis.lookupOf u).isSome = true := fun u hu =>
      (hts u hu).isSome_lookupOf (hne u hu)
    refine ⟨ts.foldl addType [], by rw [receiverTypes?, memberTypes_eq hlookup], ?_, ?_⟩
    · match ts, hlen with
      | t :: ts, _ => exact foldl_addType_ne_nil ts (addType_ne_nil [] t)
    · exact (members_nil.foldl_addType hts hne).resolved

namespace Analysis

theorem matchAll_members {env : Environment} {method : String} {args : Arguments}
    {ts : List TypeExpr} {ms : List Match} (h : matchAll? env method args ts = some ms) :
    ms.map (·.member) = ts := by
  induction ts generalizing ms with
  | nil =>
    obtain rfl := Option.some.inj h
    rfl
  | cons t ts ih =>
    simp only [matchAll?, Option.bind_eq_bind, Option.bind_eq_some_iff] at h
    obtain ⟨m, hm, ms, hms, h⟩ := h
    obtain rfl := Option.some.inj h
    simp only [matchMember?, Option.bind_eq_bind, Option.bind_eq_some_iff] at hm
    obtain ⟨_, _, _, _, _, _, hm⟩ := hm
    obtain rfl := Option.some.inj hm
    rw [List.map_cons, ih hms]

theorem declarationsOf_ne_nil {ms : List Match} (h : ms ≠ []) : declarationsOf ms ≠ [] := by
  have hkeep : ∀ (ms : List Match) (ds : List MatchedMethod), ds ≠ [] →
      ms.foldl (fun ds m => if ds.contains m.declaration then ds else ds ++ [m.declaration]) ds
        ≠ [] := by
    intro ms
    induction ms with
    | nil => exact fun _ h => h
    | cons m ms ih =>
      intro ds hds
      refine ih _ ?_
      dsimp only
      split
      · exact hds
      · exact List.append_ne_nil_of_left_ne_nil hds _
  match ms, h with
  | m :: ms, _ => exact hkeep ms [m.declaration] (List.cons_ne_nil _ _)

/-- **Every call can be resolved.**  The resolution has the call's own method name. -/
theorem resolveCall_ok (env : Environment) (method : String) {receiver : Option TypeExpr}
    (args : Arguments) (h : Known named receiver) :
    ∃ r ms, resolveCall env method receiver args = .ok (r, ms) ∧ r.method = method ∧
      ∀ m ∈ ms, Resolved named m.member := by
  rw [resolveCall]
  cases receiver with
  | none => exact ⟨.dynamic method, [], rfl, rfl, List.forall_mem_nil _⟩
  | some t =>
    obtain ⟨ts, hts, hne, hall⟩ := (h t rfl).receiverTypes
    rw [Option.bind_some, hts]
    cases hm : matchAll? env method args ts with
    | none => exact ⟨.absent method, [], by simp only [hm], rfl, List.forall_mem_nil _⟩
    | some ms =>
      have hmembers := matchAll_members hm
      have hms : ms ≠ [] := by
        rintro rfl
        exact hne hmembers.symm
      have hres : ∀ m ∈ ms, Resolved named m.member := fun m hmem =>
        hall m.member (hmembers ▸ List.mem_map_of_mem hmem)
      match hd : declarationsOf ms, declarationsOf_ne_nil hms with
      | d :: ds, _ => exact ⟨.matched method d ds, ms, by simp only [hm, hd]; rfl, rfl, hres⟩

theorem resultType_known (env : Environment) [env.Names named] (method : String) {ms : List Match}
    (h : ∀ m ∈ ms, Resolved named m.member) : Known named (resultType env method ms) := by
  refine unionOf_known fun o ho => ?_
  obtain ⟨m, hm, rfl⟩ := List.mem_map.mp ho
  have hmember := h m hm
  have hreturn : Known named (env.returnType m.entry m.overload (some m.member)) :=
    Environment.returnType_known _ _ hmember.known
  rw [Match.result]
  split
  · next n he =>
    split
    · rw [he] at hmember
      cases hmember with
      | classSingleton hn => exact (Resolved.classInstance hn noArguments).known
    · exact hreturn
  · exact hreturn

/-! ## Expressions -/

/-- The types of local variables are resolved. -/
def Scope.IsResolved (named : TypeName → Prop) (scope : Scope) : Prop :=
  ∀ name o, scope.find? name = some o → Known named o

/-- All that is known at a point of a program is resolved. -/
structure View.IsResolved (named : TypeName → Prop) (v : View) : Prop where
  self : Known named v.context.self
  scope : Scope.IsResolved named v.scope
  types : ∀ id o, v.types.lookup id = some o → Known named o

variable {v : View}

theorem recorded_known (h : v.IsResolved named) (id : Nat) : Known named (v.recorded id) := by
  rw [View.recorded]
  cases ho : v.types.lookup id with
  | none => exact known_none
  | some o => exact h.types id o ho

theorem Environment.emptyPlace_isResolved (nesting : List String) :
    (⟨nesting, none, []⟩ : Environment.Place).IsResolved named := ⟨known_none, fun _ _ h => nomatch h⟩

variable [henv : v.env.Names named]

theorem constantType_known (text : String) : Known named (v.constantType text) := by
  intro t h
  simp only [View.constantType, Option.bind_eq_bind] at h
  split at h
  · cases h
  · obtain ⟨q, _, h⟩ := Option.bind_eq_some_iff.mp h
    split at h
    · next hq =>
      obtain rfl := Option.some.inj h
      exact .classSingleton (henv.declared q hq)
    · obtain ⟨c, _, h⟩ := Option.bind_eq_some_iff.mp h
      exact Environment.resolveType_known (Environment.emptyPlace_isResolved _) c _ t h

set_option linter.unusedSectionVars false in
mutual

theorem infer_known (h : v.IsResolved named) : (t : Tree) → Known named (infer v t)
  | ⟨id, kind, start, stop, _, _, _, _, children⟩ => by
    unfold infer
    dsimp only
    split
    · exact Environment.instanceNamed_known _
    · split
      · exact h.self
      · split
        · next known hk => exact h.scope _ known hk
        · exact recorded_known h id
      · exact constantType_known _
      · exact constantType_known _
      · exact recorded_known h id
      · cases hl : inferLast v children with
        | none => exact Environment.instanceNamed_known _
        | some o => exact inferLast_known h children o hl
      · exact inferRight_known h children
      · cases v.env.globalType? (between v.source start stop) with
        | none => exact known_none
        | some t => exact Environment.resolveType_known (Environment.emptyPlace_isResolved _) t _
      · exact known_none
termination_by structural t => t

theorem inferLast_known (h : v.IsResolved named) :
    (ts : List Tree) → ∀ o, inferLast v ts = some o → Known named o
  | [] => fun _ h => nomatch h
  | t :: ts => by
    intro o ho
    rw [inferLast] at ho
    cases hl : inferLast v ts with
    | some p =>
      rw [hl] at ho
      exact inferLast_known h ts o (hl.trans ho)
    | none =>
      rw [hl, Option.none_or] at ho
      split at ho
      · exact Option.some.inj ho ▸ infer_known h t
      · cases ho
termination_by structural ts => ts

theorem inferRight_known (h : v.IsResolved named) : (ts : List Tree) → Known named (inferRight v ts)
  | [] => known_none
  | t :: ts => by
    rw [inferRight]
    split
    · exact infer_known h t
    · exact inferRight_known h ts
termination_by structural ts => ts

end

end Analysis

end RbsSynth
