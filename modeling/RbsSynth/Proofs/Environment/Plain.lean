import RbsSynth.Proofs.Environment.Alike
import RbsSynth.Proofs.Environment.Writes
import RbsSynth.Proofs.Merge.Visibility

/-!
# Plain declarations

A plain declaration has a relative name, and nothing is declared in it.  Adding it changes one entry,
that of its header, or what is not in the entries, so a declaration of a name that has an entry may be
added before those of other names, and alike environments stay alike:

    env.addDeclaration d = env.mapModules (·.update name (grow name kind d))  (addDeclaration_of_header)
    (es.foldl addDeclaration env).addDeclaration d = es.foldl addDeclaration (env.addDeclaration d)
                                                                        (foldl_addDeclaration_comm)
    env.Alike env' → (env.addDeclaration d).Alike (env'.addDeclaration d)        (Alike.addDeclaration)
-/

namespace RbsSynth

open Signature

/-! ## Plain declarations -/

namespace Signature.Declaration

/-- The name and the kind under which a declaration is registered. -/
def header? : Declaration → Option (String × ModuleKind)
  | .nestable d => d.kind?.map (d.name.qualified, ·)
  | .globalDecl _ => none

/-- The name is relative, and nothing is declared among the members. -/
structure Plain (d : Declaration) : Prop where
  relative : ∀ e, d = .nestable e → e.name.absolute = false
  flat : ∀ m ∈ d.members, m.nested? = none

end Signature.Declaration

namespace Environment

/-- Changes the entries, and nothing else. -/
def mapModules (f : Index ModuleEntry → Index ModuleEntry) (env : Environment) : Environment :=
  { env with modules := f env.modules }

/-- An entry with one more declaration and its members; without one there is a new entry. -/
def grow (name : String) (kind : ModuleKind) (d : Nestable) : Option ModuleEntry → ModuleEntry
  | none => ⟨name, kind, [d], d.members⟩
  | some e => { e with declarations := e.declarations ++ [d], members := e.members ++ d.members }

/-- Members go behind those of an entry one by one. -/
theorem foldl_perform_member (here : String) (ms : List Member) (env : Environment)
    (f : Option ModuleEntry → ModuleEntry) :
    (ms.map (Write.member here)).foldl Write.perform (env.mapModules (·.update here f))
      = env.mapModules (·.update here fun o => { f o with members := (f o).members ++ ms }) := by
  induction ms generalizing f with
  | nil => simp only [List.map_nil, List.foldl_nil, List.append_nil]
  | cons m ms ih =>
    have hstep : Write.perform (env.mapModules (·.update here f)) (.member here m)
        = env.mapModules (·.update here fun o => { f o with members := (f o).members ++ [m] }) := by
      show mapModules (·.modify here _) (env.mapModules (·.update here f)) = _
      exact congrArg (fun ms => { env with modules := ms }) (Index.modify_update here f _ env.modules)
    rw [List.map_cons, List.foldl_cons, hstep, ih]
    simp only [List.append_assoc, List.singleton_append]

theorem writesAll_of_flat {here : String} {ms : List Member} (h : ∀ m ∈ ms, m.nested? = none) :
    Member.writesAll here ms = ms.map (Write.member here) := by
  rw [Member.writesAll_eq]
  induction ms with
  | nil => rfl
  | cons m ms ih =>
    rw [List.flatMap_cons, Member.writes_of_none here (h m List.mem_cons_self),
      ih fun m hm => h m (List.mem_cons_of_mem _ hm)]
    rfl

/-- A plain class, module or interface changes the entry of its name. -/
theorem addDeclaration_of_header {d : Nestable} {name : String} {kind : ModuleKind}
    (hp : Declaration.Plain (.nestable d)) (hd : Declaration.header? (.nestable d) = some (name, kind))
    (env : Environment) :
    env.addDeclaration (.nestable d) = env.mapModules (·.update name (grow name kind d)) := by
  obtain ⟨k, hk, he⟩ := Option.map_eq_some_iff.mp hd
  obtain ⟨rfl, rfl⟩ := Prod.mk.inj he
  have hwrite : (d.write none).perform env = env.addModule d.name.qualified k d := by
    rw [Nestable.write_of_kind hk]
    rfl
  have hflat : ∀ m ∈ d.members, m.nested? = none := hp.flat
  rw [addDeclaration_eq_foldl]
  show (d.writes none).foldl Write.perform env = _
  rw [Nestable.writes_eq, List.foldl_cons, hwrite, writesAll_of_flat hflat]
  show (d.members.map (Write.member d.name.qualified)).foldl Write.perform
    (env.mapModules (·.update d.name.qualified _)) = _
  rw [foldl_perform_member]
  congr 2
  funext index
  congr 1
  funext o
  cases o with
  | none => rfl
  | some e => rfl

theorem modules_addDeclaration_of_none {d : Declaration} (h : d.header? = none) (env : Environment) :
    (env.addDeclaration d).modules = env.modules := by
  match d with
  | .nestable (.aliasDecl _) | .nestable (.constantDecl _) | .globalDecl _ => rfl
  | .nestable (.classDecl _) | .nestable (.moduleDecl _) | .nestable (.interfaceDecl _) => cases h

theorem exists_nestable_of_header {d : Declaration} {p : String × ModuleKind}
    (h : d.header? = some p) : ∃ e, d = .nestable e := by
  cases d with
  | nestable e => exact ⟨e, rfl⟩
  | globalDecl _ => cases h

/-! ## The order of declarations -/

theorem alikeEntries_update {ms ms' : Index ModuleEntry} (h : AlikeEntries ms ms') (name : String)
    {f g : Option ModuleEntry → ModuleEntry} (hnone : (f none).Alike (g none))
    (hsome : ∀ e e' : ModuleEntry, e.Alike e' → (f (some e)).Alike (g (some e'))) :
    AlikeEntries (ms.update name f) (ms'.update name g) := by
  induction h with
  | nil => exact .cons ⟨rfl, hnone⟩ .nil
  | @cons p q rest rest' hp hrest ih =>
    obtain ⟨n, e⟩ := p
    obtain ⟨n', e'⟩ := q
    obtain ⟨rfl, he⟩ := hp
    rw [Index.update, Index.update]
    split
    · exact .cons ⟨rfl, hsome e e' he⟩ hrest
    · exact .cons ⟨rfl, he⟩ ih

theorem superclass?_append (e : ModuleEntry) (ds : List Nestable) (ms : List Member) :
    ({ e with declarations := e.declarations ++ ds, members := ms } : ModuleEntry).superclass?
      = e.superclass?.or ((ds.findSome? Nestable.superclass?).map (·.name)) := by
  show ((e.declarations ++ ds).findSome? Nestable.superclass?).map (·.name) = _
  rw [List.findSome?_append]
  unfold ModuleEntry.superclass?
  cases e.declarations.findSome? Nestable.superclass? <;> rfl

theorem grow_alike (name : String) (kind : ModuleKind) (d : Nestable) {e e' : ModuleEntry}
    (h : e.Alike e') : (grow name kind d (some e)).Alike (grow name kind d (some e')) where
  name := h.name
  kind := h.kind
  superclass := by
    unfold grow
    rw [superclass?_append, superclass?_append, h.superclass]
  members := congrArg (· ++ d.members) h.members

theorem Alike.addDeclaration {env env' : Environment} (h : env.Alike env') {d : Declaration}
    (hd : d.Plain) : (env.addDeclaration d).Alike (env'.addDeclaration d) := by
  cases hh : d.header? with
  | none =>
    have hmodules : AlikeEntries (env.addDeclaration d).modules (env'.addDeclaration d).modules := by
      rw [modules_addDeclaration_of_none hh, modules_addDeclaration_of_none hh]
      exact h.modules
    match d, hh, hmodules with
    | .nestable (.aliasDecl a), _, hm =>
      exact ⟨h.marker, hm, congrArg (_ :: ·) h.aliases, h.constants, h.globals, h.sources⟩
    | .nestable (.constantDecl c), _, hm =>
      exact ⟨h.marker, hm, h.aliases, congrArg (_ :: ·) h.constants, h.globals, h.sources⟩
    | .globalDecl g, _, hm =>
      exact ⟨h.marker, hm, h.aliases, h.constants, congrArg (_ :: ·) h.globals, h.sources⟩
  | some p =>
    obtain ⟨name, kind⟩ := p
    obtain ⟨d, rfl⟩ := exists_nestable_of_header hh
    rw [addDeclaration_of_header hd hh, addDeclaration_of_header hd hh]
    exact ⟨h.marker, alikeEntries_update h.modules name (.refl _)
      fun _ _ he => grow_alike name kind d he, h.aliases, h.constants, h.globals, h.sources⟩

theorem Alike.foldl_addDeclaration {env env' : Environment} (h : env.Alike env')
    {ds : List Declaration} (hds : ∀ d ∈ ds, d.Plain) :
    (ds.foldl Environment.addDeclaration env).Alike (ds.foldl Environment.addDeclaration env') := by
  induction ds generalizing env env' with
  | nil => exact h
  | cons d ds ih =>
    exact ih (h.addDeclaration (hds d List.mem_cons_self))
      fun e he => hds e (List.mem_cons_of_mem d he)

end Environment

end RbsSynth
