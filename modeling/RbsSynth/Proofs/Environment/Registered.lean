import RbsSynth.Environment.Registration
import RbsSynth.Proofs.Index

/-!
# What a batch registers

`registered` lists the classes, modules and interfaces of a batch at every depth with their qualified
names, in the order in which they are added.  `recorded` is what an environment holds of one name, the
kind and the declarations; a batch changes it by its own declarations of that name alone:

    recorded (addDeclaration env d) n
      = (d.registered.filter (·.name = n)).foldl record (recorded env n)     (recorded_addDeclaration)
-/

namespace RbsSynth

open Signature

/-- A class, module or interface with its qualified name. -/
structure Registered where
  name : String
  kind : ModuleKind
  declaration : Nestable

namespace Signature

mutual

/-- A declaration and those inside it, each before those inside it. -/
def Nestable.registered (outer : Option String) : Nestable → List Registered
  | .classDecl d => d.registered outer
  | .moduleDecl d => d.registered outer
  | .interfaceDecl d => d.registered outer
  | .aliasDecl _ | .constantDecl _ => []
termination_by structural d => d

def ClassDecl.registered (outer : Option String) : ClassDecl → List Registered
  | ⟨name, typeParams, superclass, members, notes⟩ =>
    let here := qualify outer name
    ⟨here, .ofClass, .classDecl ⟨name, typeParams, superclass, members, notes⟩⟩
      :: Member.registeredAll here members
termination_by structural d => d

def ModuleDecl.registered (outer : Option String) : ModuleDecl → List Registered
  | ⟨name, typeParams, selfTypes, members, notes⟩ =>
    let here := qualify outer name
    ⟨here, .ofModule, .moduleDecl ⟨name, typeParams, selfTypes, members, notes⟩⟩
      :: Member.registeredAll here members
termination_by structural d => d

def InterfaceDecl.registered (outer : Option String) : InterfaceDecl → List Registered
  | ⟨name, typeParams, members, notes⟩ =>
    let here := qualify outer name
    ⟨here, .ofInterface, .interfaceDecl ⟨name, typeParams, members, notes⟩⟩
      :: Member.registeredAll here members
termination_by structural d => d

def Member.registered (here : String) : Member → List Registered
  | .nested d => d.registered (some here)
  | .method _ | .attribute _ | .mixin _ | .variable _ | .aliasMember _ | .visibility _ => []
termination_by structural m => m

def Member.registeredAll (here : String) : List Member → List Registered
  | [] => []
  | m :: ms => m.registered here ++ Member.registeredAll here ms
termination_by structural ms => ms

end

def Declaration.registered : Declaration → List Registered
  | .nestable d => d.registered none
  | .globalDecl _ => []

/-! ## Nested declarations -/

def Member.nested? : Member → Option Nestable
  | .nested d => some d
  | _ => none

def Nestable.members : Nestable → List Member
  | .classDecl d => d.members
  | .moduleDecl d => d.members
  | .interfaceDecl d => d.members
  | .aliasDecl _ | .constantDecl _ => []

def Declaration.members : Declaration → List Member
  | .nestable d => d.members
  | .globalDecl _ => []

/-- The declarations directly inside a declaration. -/
def Nestable.inside (d : Nestable) : List Nestable := d.members.filterMap Member.nested?

mutual

theorem Nestable.induct_aux {P : Nestable → Prop} (h : ∀ d, (∀ e ∈ d.inside, P e) → P d) :
    (d : Nestable) → P d
  | .classDecl d => h (.classDecl d) (ClassDecl.induct_aux h d)
  | .moduleDecl d => h (.moduleDecl d) (ModuleDecl.induct_aux h d)
  | .interfaceDecl d => h (.interfaceDecl d) (InterfaceDecl.induct_aux h d)
  | .aliasDecl d => h (.aliasDecl d) fun _ he => absurd he List.not_mem_nil
  | .constantDecl d => h (.constantDecl d) fun _ he => absurd he List.not_mem_nil
termination_by structural d => d

theorem ClassDecl.induct_aux {P : Nestable → Prop} (h : ∀ d, (∀ e ∈ d.inside, P e) → P d) :
    (d : ClassDecl) → ∀ e ∈ d.members.filterMap Member.nested?, P e
  | ⟨_, _, _, members, _⟩ => Member.induct_auxAll h members
termination_by structural d => d

theorem ModuleDecl.induct_aux {P : Nestable → Prop} (h : ∀ d, (∀ e ∈ d.inside, P e) → P d) :
    (d : ModuleDecl) → ∀ e ∈ d.members.filterMap Member.nested?, P e
  | ⟨_, _, _, members, _⟩ => Member.induct_auxAll h members
termination_by structural d => d

theorem InterfaceDecl.induct_aux {P : Nestable → Prop} (h : ∀ d, (∀ e ∈ d.inside, P e) → P d) :
    (d : InterfaceDecl) → ∀ e ∈ d.members.filterMap Member.nested?, P e
  | ⟨_, _, members, _⟩ => Member.induct_auxAll h members
termination_by structural d => d

theorem Member.induct_aux {P : Nestable → Prop} (h : ∀ d, (∀ e ∈ d.inside, P e) → P d) :
    (m : Member) → ∀ e ∈ m.nested?, P e
  | .nested d => fun _ he => Option.some.inj he ▸ Nestable.induct_aux h d
  | .method _ | .attribute _ | .mixin _ | .variable _ | .aliasMember _ | .visibility _ =>
    fun _ he => nomatch he
termination_by structural m => m

theorem Member.induct_auxAll {P : Nestable → Prop} (h : ∀ d, (∀ e ∈ d.inside, P e) → P d) :
    (ms : List Member) → ∀ e ∈ ms.filterMap Member.nested?, P e
  | [] => fun _ he => absurd he List.not_mem_nil
  | m :: ms => fun e he => by
    obtain ⟨k, hk, hn⟩ := List.mem_filterMap.mp he
    rcases List.mem_cons.mp hk with hk | hk
    · exact Member.induct_aux h m e (hk ▸ hn)
    · exact Member.induct_auxAll h ms e (List.mem_filterMap.mpr ⟨k, hk, hn⟩)
termination_by structural ms => ms

end

/-- What holds of a declaration whenever it holds of those directly inside it holds of all. -/
theorem Nestable.induct {P : Nestable → Prop} (h : ∀ d, (∀ e ∈ d.inside, P e) → P d) (d : Nestable) :
    P d := Nestable.induct_aux h d

theorem Member.mapNotesList_eq (f : Notes → Notes) (ms : List Member) :
    Member.mapNotesList f ms = ms.map (Member.mapNotes f) := by
  induction ms with
  | nil => rfl
  | cons m ms ih => rw [Member.mapNotesList, ih, List.map_cons]

theorem Nestable.inside_mapNotes (f : Notes → Notes) (d : Nestable) :
    (d.mapNotes f).inside = d.inside.map (Nestable.mapNotes f) := by
  have hmap : ∀ ms : List Member, (Member.mapNotesList f ms).filterMap Member.nested?
      = (ms.filterMap Member.nested?).map (Nestable.mapNotes f) := by
    intro ms
    rw [Member.mapNotesList_eq, List.filterMap_map, List.map_filterMap]
    refine List.filterMap_congr fun m _ => ?_
    cases m <;> rfl
  match d with
  | .classDecl ⟨_, _, _, ms, _⟩ => exact hmap ms
  | .moduleDecl ⟨_, _, _, ms, _⟩ => exact hmap ms
  | .interfaceDecl ⟨_, _, ms, _⟩ => exact hmap ms
  | .aliasDecl _ | .constantDecl _ => rfl

theorem Nestable.inside_of_kind?_eq_none {d : Nestable} (h : d.kind? = none) : d.inside = [] := by
  match d with
  | .aliasDecl _ | .constantDecl _ => rfl

theorem Member.registeredAll_eq (here : String) (ms : List Member) :
    Member.registeredAll here ms
      = (ms.filterMap Member.nested?).flatMap (·.registered (some here)) := by
  induction ms with
  | nil => rfl
  | cons m ms ih =>
    rw [Member.registeredAll, ih]
    cases m with
    | nested d => rfl
    | _ => rfl

theorem Nestable.registered_of_none {d : Nestable} (outer : Option String) (h : d.kind? = none) :
    d.registered outer = [] := by
  match d with
  | .aliasDecl _ | .constantDecl _ => rfl

theorem Nestable.registered_of_some {d : Nestable} {kind : ModuleKind} (outer : Option String)
    (h : d.kind? = some kind) :
    d.registered outer = ⟨qualify outer d.name, kind, d⟩
      :: d.inside.flatMap (·.registered (some (qualify outer d.name))) := by
  match d with
  | .classDecl ⟨_, _, _, _, _⟩ =>
    rw [Nestable.registered, ClassDecl.registered, Member.registeredAll_eq, ← Option.some.inj h]
    rfl
  | .moduleDecl ⟨_, _, _, _, _⟩ =>
    rw [Nestable.registered, ModuleDecl.registered, Member.registeredAll_eq, ← Option.some.inj h]
    rfl
  | .interfaceDecl ⟨_, _, _, _⟩ =>
    rw [Nestable.registered, InterfaceDecl.registered, Member.registeredAll_eq, ← Option.some.inj h]
    rfl

/-- What is registered has the kind of its declaration. -/
theorem Nestable.kind?_of_mem_registered (d : Nestable) :
    ∀ outer, ∀ r ∈ d.registered outer, r.declaration.kind? = some r.kind := by
  induction d using Nestable.induct with
  | h d ih =>
    intro outer r hr
    cases hk : d.kind? with
    | none =>
      rw [Nestable.registered_of_none outer hk] at hr
      exact absurd hr List.not_mem_nil
    | some kind =>
      rw [Nestable.registered_of_some outer hk, List.mem_cons, List.mem_flatMap] at hr
      rcases hr with rfl | ⟨e, he, hr⟩
      · exact hk
      · exact ih e he _ r hr

end Signature

/-! ## What an environment holds of a name -/

namespace Environment

/-- The kind of a name's entry and its declarations. -/
def recorded (env : Environment) (name : String) : Option (ModuleKind × List Nestable) :=
  (env.modules.find? name).map fun e => (e.kind, e.declarations)

/-- One more declaration of a name: a new entry takes its kind. -/
def record (old : Option (ModuleKind × List Nestable)) (r : Registered) :
    Option (ModuleKind × List Nestable) :=
  match old with
  | none => some (r.kind, [r.declaration])
  | some (kind, ds) => some (kind, ds ++ [r.declaration])

/-- The declarations of a name come after those it has. -/
theorem foldl_record_some (kind : ModuleKind) (ds : List Nestable) (rs : List Registered) :
    rs.foldl record (some (kind, ds)) = some (kind, ds ++ rs.map (·.declaration)) := by
  induction rs generalizing ds with
  | nil => rw [List.map_nil, List.append_nil]; rfl
  | cons r rs ih =>
    rw [List.foldl_cons, record, ih, List.append_assoc]
    rfl

/-- The declarations `rs` of a batch, added to what is recorded of a name. -/
abbrev recordAll (rs : List Registered) (n : String) (old : Option (ModuleKind × List Nestable)) :
    Option (ModuleKind × List Nestable) :=
  (rs.filter (·.name = n)).foldl record old

theorem recorded_addModule (env : Environment) (r : Registered) (n : String) :
    (env.addModule r.name r.kind r.declaration).recorded n
      = recordAll [r] n (env.recorded n) := by
  rw [recorded, addModule, Index.find?_update, recordAll, List.filter_cons, List.filter_nil]
  by_cases hn : r.name = n
  · rw [if_pos hn, if_pos (decide_eq_true hn), List.foldl_cons, List.foldl_nil, recorded]
    cases env.modules.find? n with
    | none => rfl
    | some e => rfl
  · rw [if_neg hn, if_neg (by rw [decide_eq_true_eq]; exact hn), List.foldl_nil, recorded]

theorem recorded_addOwnMember (env : Environment) (here : String) (m : Member) (n : String) :
    (env.addOwnMember here m).recorded n = env.recorded n := by
  rw [recorded, addOwnMember, Index.find?_modify, recorded]
  split
  · rw [Option.map_map]
    rfl
  · rfl

theorem recordAll_append (rs rs' : List Registered) (n : String)
    (old : Option (ModuleKind × List Nestable)) :
    recordAll (rs ++ rs') n old = recordAll rs' n (recordAll rs n old) := by
  rw [recordAll, List.filter_append, List.foldl_append]

theorem recordAll_cons (r : Registered) (rs : List Registered) (n : String)
    (old : Option (ModuleKind × List Nestable)) :
    recordAll (r :: rs) n old = recordAll rs n (recordAll [r] n old) :=
  recordAll_append [r] rs n old

mutual

theorem recorded_addNestable (n : String) (outer : Option String) :
    (d : Nestable) → (env : Environment) →
      (addNestable outer d env).recorded n = recordAll (d.registered outer) n (env.recorded n)
  | .classDecl d, env => recorded_addClass n outer d env
  | .moduleDecl d, env => recorded_addModuleDecl n outer d env
  | .interfaceDecl d, env => recorded_addInterface n outer d env
  | .aliasDecl _, _ => rfl
  | .constantDecl _, _ => rfl
termination_by structural d => d

theorem recorded_addClass (n : String) (outer : Option String) :
    (d : ClassDecl) → (env : Environment) →
      (addClass outer d env).recorded n = recordAll (d.registered outer) n (env.recorded n)
  | ⟨name, typeParams, superclass, members, notes⟩, env => by
    rw [addClass, ClassDecl.registered, recordAll_cons, recorded_addMembers n _ members]
    exact congrArg _ (recorded_addModule env ⟨_, _, _⟩ n)
termination_by structural d => d

theorem recorded_addModuleDecl (n : String) (outer : Option String) :
    (d : ModuleDecl) → (env : Environment) →
      (addModuleDecl outer d env).recorded n = recordAll (d.registered outer) n (env.recorded n)
  | ⟨name, typeParams, selfTypes, members, notes⟩, env => by
    rw [addModuleDecl, ModuleDecl.registered, recordAll_cons, recorded_addMembers n _ members]
    exact congrArg _ (recorded_addModule env ⟨_, _, _⟩ n)
termination_by structural d => d

theorem recorded_addInterface (n : String) (outer : Option String) :
    (d : InterfaceDecl) → (env : Environment) →
      (addInterface outer d env).recorded n = recordAll (d.registered outer) n (env.recorded n)
  | ⟨name, typeParams, members, notes⟩, env => by
    rw [addInterface, InterfaceDecl.registered, recordAll_cons, recorded_addMembers n _ members]
    exact congrArg _ (recorded_addModule env ⟨_, _, _⟩ n)
termination_by structural d => d

theorem recorded_addMember (n here : String) :
    (m : Member) → (env : Environment) →
      (addMember here m env).recorded n = recordAll (m.registered here) n (env.recorded n)
  | .nested d, env => recorded_addNestable n (some here) d env
  | .method _, env => recorded_addOwnMember env here _ n
  | .attribute _, env => recorded_addOwnMember env here _ n
  | .mixin _, env => recorded_addOwnMember env here _ n
  | .variable _, env => recorded_addOwnMember env here _ n
  | .aliasMember _, env => recorded_addOwnMember env here _ n
  | .visibility _, env => recorded_addOwnMember env here _ n
termination_by structural m => m

theorem recorded_addMembers (n here : String) :
    (ms : List Member) → (env : Environment) →
      (addMembers here ms env).recorded n
        = recordAll (Member.registeredAll here ms) n (env.recorded n)
  | [], _ => rfl
  | m :: ms, env => by
    rw [addMembers, recorded_addMembers n here ms, recorded_addMember n here m,
      Member.registeredAll, recordAll_append]
termination_by structural ms => ms

end

theorem recorded_addDeclaration (env : Environment) (d : Declaration) (n : String) :
    (env.addDeclaration d).recorded n = recordAll d.registered n (env.recorded n) := by
  cases d with
  | nestable d => exact recorded_addNestable n none d env
  | globalDecl d => rfl

/-- What a whole batch changes under a name. -/
theorem recorded_foldl_addDeclaration (env : Environment) (ds : List Declaration) (n : String) :
    (ds.foldl addDeclaration env).recorded n
      = recordAll (ds.flatMap Declaration.registered) n (env.recorded n) := by
  induction ds generalizing env with
  | nil => rfl
  | cons d ds ih =>
    rw [List.foldl_cons, ih, recorded_addDeclaration, List.flatMap_cons, recordAll_append]

end Environment

end RbsSynth
