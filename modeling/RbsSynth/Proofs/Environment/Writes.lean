import RbsSynth.Environment.Methods
import RbsSynth.Proofs.Environment.KindCheck

/-!
# What a batch writes

Registering a batch is a run of single writes: an entry of a name gets a declaration, an entry gets a
member, a name gets an alias, a constant or a global.  `batchWrites ds` lists them in order, and

    ds.foldl addDeclaration env = (batchWrites ds).foldl Write.perform env      (foldl_addDeclaration)

A member is written to an entry that is there by then, whatever was there before (`fit_batchWrites`),
so no write of a batch is lost.
-/

namespace RbsSynth

open Signature

/-- One change to an environment. -/
inductive Write
  | entry (r : Registered)
  | member (here : String) (m : Member)
  | typeAlias (name : String) (d : AliasDecl)
  | constant (name : String) (d : ConstantDecl)
  | global (d : GlobalDecl)

def Write.perform (env : Environment) : Write → Environment
  | .entry r => env.addModule r.name r.kind r.declaration
  | .member here m => env.addOwnMember here m
  | .typeAlias name d => { env with aliases := (name, d) :: env.aliases }
  | .constant name d => { env with constants := (name, d) :: env.constants }
  | .global d => { env with globals := (d.name, d) :: env.globals }

def ModuleEntry.withDeclaration (e : ModuleEntry) (d : Nestable) : ModuleEntry :=
  { e with declarations := e.declarations ++ [d] }

def ModuleEntry.withMember (e : ModuleEntry) (m : Member) : ModuleEntry :=
  { e with members := e.members ++ [m] }

/-- What a write makes of the entry of a name. -/
def Write.changed (name : String) : Write → Option ModuleEntry → Option ModuleEntry
  | .entry r, old =>
    if r.name = name then
      some (match old with
        | none => ⟨r.name, r.kind, [r.declaration], []⟩
        | some e => e.withDeclaration r.declaration)
    else old
  | .member here m, old => if here = name then old.map (·.withMember m) else old
  | .typeAlias _ _, old | .constant _ _, old | .global _, old => old

namespace Environment

/-- The step: a write changes the entry of its own name. -/
theorem entryOf_perform (env : Environment) (w : Write) (name : String) :
    entry? (w.perform env) name = w.changed name (env.entry? name) := by
  cases w with
  | entry r => exact Index.find?_update r.name name _ env.modules
  | member here m => exact Index.find?_modify here name _ env.modules
  | typeAlias name d => rfl
  | constant name d => rfl
  | global d => rfl

end Environment

/-! ## The writes of a batch -/

namespace Signature

/-- The write of a declaration without its members. -/
def Nestable.write (outer : Option String) : Nestable → Write
  | .classDecl d => .entry ⟨qualify outer d.name, .ofClass, .classDecl d⟩
  | .moduleDecl d => .entry ⟨qualify outer d.name, .ofModule, .moduleDecl d⟩
  | .interfaceDecl d => .entry ⟨qualify outer d.name, .ofInterface, .interfaceDecl d⟩
  | .aliasDecl d => .typeAlias (qualify outer d.name) d
  | .constantDecl d => .constant (qualify outer d.name) d

mutual

/-- The writes of a declaration, its members' behind its own. -/
def Nestable.writes (outer : Option String) : Nestable → List Write
  | .classDecl d => d.writes outer
  | .moduleDecl d => d.writes outer
  | .interfaceDecl d => d.writes outer
  | .aliasDecl d => [.typeAlias (qualify outer d.name) d]
  | .constantDecl d => [.constant (qualify outer d.name) d]
termination_by structural d => d

def ClassDecl.writes (outer : Option String) : ClassDecl → List Write
  | ⟨name, typeParams, superclass, members, notes⟩ =>
    let here := qualify outer name
    .entry ⟨here, .ofClass, .classDecl ⟨name, typeParams, superclass, members, notes⟩⟩
      :: Member.writesAll here members
termination_by structural d => d

def ModuleDecl.writes (outer : Option String) : ModuleDecl → List Write
  | ⟨name, typeParams, selfTypes, members, notes⟩ =>
    let here := qualify outer name
    .entry ⟨here, .ofModule, .moduleDecl ⟨name, typeParams, selfTypes, members, notes⟩⟩
      :: Member.writesAll here members
termination_by structural d => d

def InterfaceDecl.writes (outer : Option String) : InterfaceDecl → List Write
  | ⟨name, typeParams, members, notes⟩ =>
    let here := qualify outer name
    .entry ⟨here, .ofInterface, .interfaceDecl ⟨name, typeParams, members, notes⟩⟩
      :: Member.writesAll here members
termination_by structural d => d

def Member.writes (here : String) : Member → List Write
  | .nested d => d.writes (some here)
  | .method m => [.member here (.method m)]
  | .attribute m => [.member here (.attribute m)]
  | .mixin m => [.member here (.mixin m)]
  | .variable m => [.member here (.variable m)]
  | .aliasMember m => [.member here (.aliasMember m)]
  | .visibility m => [.member here (.visibility m)]
termination_by structural m => m

def Member.writesAll (here : String) : List Member → List Write
  | [] => []
  | m :: ms => m.writes here ++ Member.writesAll here ms
termination_by structural ms => ms

end

def Declaration.writes : Declaration → List Write
  | .nestable d => d.writes none
  | .globalDecl d => [.global d]

theorem Nestable.write_of_kind {d : Nestable} {kind : ModuleKind} {outer : Option String}
    (h : d.kind? = some kind) : d.write outer = .entry ⟨qualify outer d.name, kind, d⟩ := by
  match d, h with
  | .classDecl _, h | .moduleDecl _, h | .interfaceDecl _, h =>
    rw [← Option.some.inj h]
    rfl

theorem Nestable.writes_eq (outer : Option String) (d : Nestable) :
    d.writes outer = d.write outer :: Member.writesAll (qualify outer d.name) d.members := by
  cases d with
  | classDecl d => cases d; rfl
  | moduleDecl d => cases d; rfl
  | interfaceDecl d => cases d; rfl
  | aliasDecl d => rfl
  | constantDecl d => rfl

theorem Member.writesAll_eq (here : String) (ms : List Member) :
    Member.writesAll here ms = ms.flatMap (·.writes here) := by
  induction ms with
  | nil => rfl
  | cons m ms ih => rw [Member.writesAll, ih, List.flatMap_cons]

theorem Member.writes_of_none {m : Member} (here : String) (h : m.nested? = none) :
    m.writes here = [.member here m] := by
  cases m with
  | nested d => cases h
  | _ => rfl

theorem Member.writes_of_some {m : Member} {d : Nestable} (here : String)
    (h : m.nested? = some d) : m.writes here = d.writes (some here) := by
  cases m with
  | nested e => rw [← Option.some.inj h]; rfl
  | _ => cases h

end Signature

namespace Environment

def batchWrites (ds : List Declaration) : List Write := ds.flatMap Declaration.writes

/-! ## Registration as a run of writes -/

theorem addNestable_eq (outer : Option String) (d : Nestable) (env : Environment) :
    addNestable outer d env
      = addMembers (qualify outer d.name) d.members ((d.write outer).perform env) := by
  cases d with
  | classDecl d => cases d; rfl
  | moduleDecl d => cases d; rfl
  | interfaceDecl d => cases d; rfl
  | aliasDecl d => rfl
  | constantDecl d => rfl

/-- Members are registered by their writes when the declarations among them are. -/
theorem addMembers_eq_foldl (here : String) (ms : List Member)
    (inside : ∀ d ∈ ms.filterMap Member.nested?, ∀ env,
      addNestable (some here) d env = (d.writes (some here)).foldl Write.perform env)
    (env : Environment) :
    addMembers here ms env = (Member.writesAll here ms).foldl Write.perform env := by
  induction ms generalizing env with
  | nil => rfl
  | cons m ms ih =>
    have hms : ∀ d ∈ ms.filterMap Member.nested?, ∀ env,
        addNestable (some here) d env = (d.writes (some here)).foldl Write.perform env := by
      intro d hd
      obtain ⟨k, hk, hn⟩ := List.mem_filterMap.mp hd
      exact inside d (List.mem_filterMap.mpr ⟨k, List.mem_cons_of_mem m hk, hn⟩)
    have hm : addMember here m env = (m.writes here).foldl Write.perform env := by
      cases m with
      | nested d =>
        exact inside d (List.mem_filterMap.mpr ⟨.nested d, List.mem_cons_self, rfl⟩) env
      | _ => rfl
    rw [addMembers, ih hms, hm, Member.writesAll, List.foldl_append]

theorem addNestable_eq_foldl (d : Nestable) :
    ∀ outer env, addNestable outer d env = (d.writes outer).foldl Write.perform env := by
  induction d using Nestable.induct with
  | h d ih =>
    intro outer env
    rw [addNestable_eq, Nestable.writes_eq, List.foldl_cons]
    exact addMembers_eq_foldl _ d.members (fun e he env => ih e he _ env) _

theorem addDeclaration_eq_foldl (env : Environment) (d : Declaration) :
    env.addDeclaration d = d.writes.foldl Write.perform env := by
  cases d with
  | nestable d => exact addNestable_eq_foldl d none env
  | globalDecl d => rfl

/-- Registering a batch is making its writes one after another. -/
theorem foldl_addDeclaration (env : Environment) (ds : List Declaration) :
    ds.foldl addDeclaration env = (batchWrites ds).foldl Write.perform env := by
  induction ds generalizing env with
  | nil => rfl
  | cons d ds ih =>
    rw [List.foldl_cons, ih, addDeclaration_eq_foldl, batchWrites, batchWrites, List.flatMap_cons,
      List.foldl_append]

/-! ## Every write has its place -/

/-- A declaration is written with its own kind, and a member to an entry that is there. -/
def Fits (env : Environment) : Write → Prop
  | .entry r => r.declaration.kind? = some r.kind
  | .member here _ => env.hasModule here = true
  | .typeAlias _ _ | .constant _ _ | .global _ => True

/-- Every write of a run has its place when its turn comes. -/
def Fit : Environment → List Write → Prop
  | _, [] => True
  | env, w :: ws => env.Fits w ∧ Fit (w.perform env) ws

theorem fit_append (env : Environment) (ws vs : List Write) :
    env.Fit (ws ++ vs) ↔ env.Fit ws ∧ (ws.foldl Write.perform env).Fit vs := by
  induction ws generalizing env with
  | nil => exact ⟨fun h => ⟨trivial, h⟩, fun h => h.2⟩
  | cons w ws ih =>
    show env.Fits w ∧ (w.perform env).Fit (ws ++ vs) ↔ _
    rw [ih (w.perform env), ← and_assoc]
    rfl

/-- No write takes an entry away. -/
theorem hasModule_perform {env : Environment} {name : String} (h : env.hasModule name = true)
    (w : Write) : (w.perform env).hasModule name = true := by
  obtain ⟨e, he⟩ : ∃ e, env.entry? name = some e := Option.isSome_iff_exists.mp h
  have hkept : (w.changed name (some e)).isSome = true := by
    unfold Write.changed
    cases w with
    | entry r => dsimp only; split <;> rfl
    | member here m => dsimp only; split <;> rfl
    | _ => rfl
  rw [← he, ← entryOf_perform] at hkept
  exact hkept

theorem hasModule_foldl {env : Environment} {name : String} (h : env.hasModule name = true)
    (ws : List Write) : (ws.foldl Write.perform env).hasModule name = true := by
  induction ws generalizing env with
  | nil => exact h
  | cons w ws ih => exact ih (hasModule_perform h w)

theorem hasModule_addModule (env : Environment) (r : Registered) :
    (Write.perform env (.entry r)).hasModule r.name = true := by
  unfold hasModule Index.has
  show ((env.addModule r.name r.kind r.declaration).modules.find? r.name).isSome = true
  rw [addModule, Index.find?_update, if_pos rfl]
  rfl

theorem fits_write (env : Environment) (outer : Option String) (d : Nestable) :
    env.Fits (d.write outer) := by
  cases d with
  | classDecl d => exact rfl
  | moduleDecl d => exact rfl
  | interfaceDecl d => exact rfl
  | aliasDecl d => trivial
  | constantDecl d => trivial

/-- A declaration with members has an entry once it is written. -/
theorem hasModule_write (env : Environment) (outer : Option String) {d : Nestable}
    (h : d.members ≠ []) : ((d.write outer).perform env).hasModule (qualify outer d.name) = true := by
  cases d with
  | classDecl d => exact hasModule_addModule env ⟨qualify outer d.name, .ofClass, .classDecl d⟩
  | moduleDecl d => exact hasModule_addModule env ⟨qualify outer d.name, .ofModule, .moduleDecl d⟩
  | interfaceDecl d =>
    exact hasModule_addModule env ⟨qualify outer d.name, .ofInterface, .interfaceDecl d⟩
  | aliasDecl d => exact absurd rfl h
  | constantDecl d => exact absurd rfl h

theorem fit_writesAll {here : String} {ms : List Member}
    (inside : ∀ d ∈ ms.filterMap Member.nested?, ∀ env : Environment,
      env.Fit (d.writes (some here)))
    {env : Environment} (h : ms ≠ [] → env.hasModule here = true) :
    env.Fit (Member.writesAll here ms) := by
  induction ms generalizing env with
  | nil => trivial
  | cons m ms ih =>
    have hhere : env.hasModule here = true := h (List.cons_ne_nil m ms)
    rw [Member.writesAll, fit_append]
    constructor
    · cases hm : m.nested? with
      | some d =>
        rw [Member.writes_of_some here hm]
        exact inside d (List.mem_filterMap.mpr ⟨m, List.mem_cons_self, hm⟩) env
      | none =>
        rw [Member.writes_of_none here hm]
        exact ⟨hhere, trivial⟩
    · refine ih (fun d hd env => ?_) fun _ => hasModule_foldl hhere _
      obtain ⟨k, hk, hn⟩ := List.mem_filterMap.mp hd
      exact inside d (List.mem_filterMap.mpr ⟨k, List.mem_cons_of_mem m hk, hn⟩) env

theorem fit_writes (d : Nestable) :
    ∀ (outer : Option String) (env : Environment), env.Fit (d.writes outer) := by
  induction d using Nestable.induct with
  | h d ih =>
    intro outer env
    rw [Nestable.writes_eq]
    refine ⟨fits_write env outer d, fit_writesAll (fun e he env => ih e he _ env) fun hne => ?_⟩
    exact hasModule_write env outer hne

/-- In every environment the writes of a batch have their places. -/
theorem fit_batchWrites (env : Environment) (ds : List Declaration) : env.Fit (batchWrites ds) := by
  induction ds generalizing env with
  | nil => trivial
  | cons d ds ih =>
    rw [batchWrites, List.flatMap_cons, fit_append]
    refine ⟨?_, ih _⟩
    cases d with
    | nestable d => exact fit_writes d none env
    | globalDecl d => exact ⟨trivial, trivial⟩

/-! ## Everything declared is written -/

/-- At every level of a batch each declaration is written, and each of its members. -/
theorem Within.mem_writes {outer o : Option String} {ds level : List Nestable}
    (h : Within outer ds o level) {d : Nestable} (hd : d ∈ level) :
    d.write o ∈ ds.flatMap (·.writes outer) ∧
      ∀ m ∈ d.members, m.nested? = none →
        .member (qualify o d.name) m ∈ ds.flatMap (·.writes outer) := by
  induction h with
  | self outer ds =>
    have hin : ∀ w ∈ d.writes outer, w ∈ ds.flatMap (·.writes outer) := fun w hw =>
      List.mem_flatMap.mpr ⟨d, hd, hw⟩
    rw [Nestable.writes_eq] at hin
    refine ⟨hin _ List.mem_cons_self, fun m hm hn => hin _ (List.mem_cons_of_mem _ ?_)⟩
    rw [Member.writesAll_eq]
    exact List.mem_flatMap.mpr ⟨m, hm, by rw [Member.writes_of_none _ hn]; exact List.mem_cons_self⟩
  | @inside outer o ds level e kind he _ _ ih =>
    obtain ⟨hwrite, hmembers⟩ := ih hd
    -- the writes inside `e` are among those of `e`
    have hin : ∀ w ∈ e.inside.flatMap (·.writes (some (qualify outer e.name))),
        w ∈ ds.flatMap (·.writes outer) := by
      intro w hw
      obtain ⟨f, hf, hw⟩ := List.mem_flatMap.mp hw
      obtain ⟨m, hm, hn⟩ := List.mem_filterMap.mp hf
      refine List.mem_flatMap.mpr ⟨e, he, ?_⟩
      rw [Nestable.writes_eq, Member.writesAll_eq]
      refine List.mem_cons_of_mem _ (List.mem_flatMap.mpr ⟨m, hm, ?_⟩)
      rw [Member.writes_of_some _ hn]
      exact hw
    exact ⟨hin _ hwrite, fun m hm hn => hin _ (hmembers m hm hn)⟩

theorem mem_batchWrites {ds : List Declaration} (w : Write)
    (hw : w ∈ (nestables ds).flatMap (·.writes none)) : w ∈ batchWrites ds := by
  obtain ⟨d, hd, hw⟩ := List.mem_flatMap.mp hw
  obtain ⟨e, he, hed⟩ := List.mem_filterMap.mp hd
  cases e with
  | nestable e =>
    rw [← Option.some.inj hed] at hw
    exact List.mem_flatMap.mpr ⟨.nestable e, he, hw⟩
  | globalDecl e => cases hed

/-! ## What a run of writes leaves -/

/-- The members written to an entry. -/
def ownMembers (env : Environment) (name : String) : List Member :=
  ((env.modules.find? name).map (·.members)).getD []

end Environment

namespace Write

def entry? : Write → Option Registered
  | .entry r => some r
  | _ => none

def memberOf? (name : String) : Write → Option Member
  | .member here m => if here = name then some m else none
  | _ => none

def typeAlias? : Write → Option (String × AliasDecl)
  | .typeAlias name d => some (name, d)
  | _ => none

def constant? : Write → Option (String × ConstantDecl)
  | .constant name d => some (name, d)
  | _ => none

def global? : Write → Option (String × GlobalDecl)
  | .global d => some (d.name, d)
  | _ => none

end Write

namespace Environment

/-- The step: a write changes what is recorded of its own name. -/
theorem recorded_perform (env : Environment) (w : Write) (n : String) :
    (w.perform env).recorded n = recordAll w.entry?.toList n (env.recorded n) := by
  cases w with
  | entry r => exact recorded_addModule env r n
  | member here m => exact recorded_addOwnMember env here m n
  | typeAlias name d => rfl
  | constant name d => rfl
  | global d => rfl

theorem recorded_foldl (env : Environment) (ws : List Write) (n : String) :
    (ws.foldl Write.perform env).recorded n
      = recordAll (ws.filterMap Write.entry?) n (env.recorded n) := by
  induction ws generalizing env with
  | nil => rfl
  | cons w ws ih =>
    have hcons : (w :: ws).filterMap Write.entry? = w.entry?.toList ++ ws.filterMap Write.entry? := by
      rw [List.filterMap_cons]
      cases w.entry? <;> rfl
    rw [List.foldl_cons, ih, recorded_perform, hcons, recordAll_append]

/-- The step: a member goes behind those of its entry. -/
theorem ownMembers_perform {env : Environment} {w : Write} (h : env.Fits w) (n : String) :
    (w.perform env).ownMembers n = env.ownMembers n ++ (w.memberOf? n).toList := by
  unfold ownMembers
  cases w with
  | entry r =>
    show (((env.addModule r.name r.kind r.declaration).modules.find? n).map (·.members)).getD [] = _
    have hnone : (Write.entry r).memberOf? n = none := rfl
    rw [addModule, Index.find?_update, hnone, Option.toList_none, List.append_nil]
    by_cases hn : r.name = n
    · rw [if_pos hn]
      cases env.modules.find? n with
      | none => rfl
      | some e => rfl
    · rw [if_neg hn]
  | member here m =>
    show (((env.addOwnMember here m).modules.find? n).map (·.members)).getD [] = _
    have hmember : (Write.member here m).memberOf? n = if here = n then some m else none := rfl
    rw [addOwnMember, Index.find?_modify, hmember]
    by_cases hn : here = n
    · subst hn
      rw [if_pos rfl, if_pos rfl]
      have hsome : (env.modules.find? here).isSome = true := h
      obtain ⟨e, he⟩ := Option.isSome_iff_exists.mp hsome
      rw [he]
      rfl
    · rw [if_neg hn, if_neg hn, Option.toList_none, List.append_nil]
  | typeAlias name d => exact (List.append_nil _).symm
  | constant name d => exact (List.append_nil _).symm
  | global d => exact (List.append_nil _).symm

theorem ownMembers_foldl {env : Environment} {ws : List Write} (h : env.Fit ws) (n : String) :
    (ws.foldl Write.perform env).ownMembers n
      = env.ownMembers n ++ ws.filterMap (Write.memberOf? n) := by
  induction ws generalizing env with
  | nil => exact (List.append_nil _).symm
  | cons w ws ih =>
    have hcons : (w :: ws).filterMap (Write.memberOf? n)
        = (w.memberOf? n).toList ++ ws.filterMap (Write.memberOf? n) := by
      rw [List.filterMap_cons]
      cases w.memberOf? n <;> rfl
    rw [List.foldl_cons, ih h.2, ownMembers_perform h.1, hcons, List.append_assoc]

/-- A list that writes put things in front of has those of a run in front, the last first. -/
theorem foldl_in_front {β : Type} (field : Environment → List β) (new? : Write → Option β)
    (step : ∀ env w, field (Write.perform env w) = (new? w).toList ++ field env)
    (env : Environment) (ws : List Write) :
    field (ws.foldl Write.perform env) = (ws.filterMap new?).reverse ++ field env := by
  induction ws generalizing env with
  | nil => rfl
  | cons w ws ih =>
    rw [List.foldl_cons, ih, step, List.filterMap_cons]
    cases new? w with
    | none => rfl
    | some b => rw [List.reverse_cons, List.append_assoc]; rfl

/-- A part that no write changes is as it was. -/
theorem foldl_unchanged {β : Type} (field : Environment → β)
    (step : ∀ env w, field (Write.perform env w) = field env) (env : Environment)
    (ws : List Write) : field (ws.foldl Write.perform env) = field env := by
  induction ws generalizing env with
  | nil => rfl
  | cons w ws ih => rw [List.foldl_cons, ih, step]

end Environment

end RbsSynth
