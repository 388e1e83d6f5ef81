import RbsSynth.Environment.Basic
import RbsSynth.Signature.Reader

/-!
Adding declarations to an environment.

A declaration inside another one is registered under the outer name, unless its own is absolute; it
is registered where it stands between the members around it, which may be members of its own name.  A
name keeps its kind: before anything is registered, every declaration is compared with the entry of
its name, and where there is none with those checked before it at the same level.
-/

namespace RbsSynth

open Signature

/-- The qualified name of something declared inside `outer`. -/
def qualify (outer : Option String) (n : TypeName) : String :=
  match outer with
  | none => n.qualified
  | some o => if n.absolute then n.qualified else o ++ "::" ++ n.qualified

namespace Environment

def kindOf? (env : Environment) (name : String) : Option ModuleKind :=
  (env.modules.find? name).map (·.kind)

/-! ## Kinds -/

/-- Compares a kind with what is known of its name, and notes it. -/
def checkKind (env : Environment) (pending : Index ModuleKind) (name : String) (kind : ModuleKind) :
    Except KindConflict (Index ModuleKind) :=
  match (env.kindOf? name).or (pending.find? name) with
  | none => .ok ((name, kind) :: pending)
  | some existing =>
    if existing = kind then .ok ((name, kind) :: pending) else .error ⟨name, existing, kind⟩

mutual

/-- Checks a declaration and what is declared in it; `pending` has the kinds of its own level. -/
def checkNestable (env : Environment) (outer : Option String) (pending : Index ModuleKind) :
    Nestable → Except KindConflict (Index ModuleKind)
  | .classDecl d => checkClass env outer pending d
  | .moduleDecl d => checkModule env outer pending d
  | .interfaceDecl d => checkInterface env outer pending d
  | .aliasDecl _ | .constantDecl _ => .ok pending
  termination_by structural d => d

def checkClass (env : Environment) (outer : Option String) (pending : Index ModuleKind) :
    ClassDecl → Except KindConflict (Index ModuleKind)
  | ⟨name, _, _, members, _⟩ => do
    let here := qualify outer name
    let pending ← env.checkKind pending here .ofClass
    checkMembers env (some here) [] members
    return pending
  termination_by structural d => d

def checkModule (env : Environment) (outer : Option String) (pending : Index ModuleKind) :
    ModuleDecl → Except KindConflict (Index ModuleKind)
  | ⟨name, _, _, members, _⟩ => do
    let here := qualify outer name
    let pending ← env.checkKind pending here .ofModule
    checkMembers env (some here) [] members
    return pending
  termination_by structural d => d

def checkInterface (env : Environment) (outer : Option String) (pending : Index ModuleKind) :
    InterfaceDecl → Except KindConflict (Index ModuleKind)
  | ⟨name, _, members, _⟩ => do
    let here := qualify outer name
    let pending ← env.checkKind pending here .ofInterface
    checkMembers env (some here) [] members
    return pending
  termination_by structural d => d

def checkMember (env : Environment) (outer : Option String) (pending : Index ModuleKind) :
    Member → Except KindConflict (Index ModuleKind)
  | .nested d => checkNestable env outer pending d
  | .method _ | .attribute _ | .mixin _ | .variable _ | .aliasMember _ | .visibility _ =>
    .ok pending
  termination_by structural m => m

def checkMembers (env : Environment) (outer : Option String) (pending : Index ModuleKind) :
    List Member → Except KindConflict Unit
  | [] => .ok ()
  | m :: ms => do
    let pending ← checkMember env outer pending m
    checkMembers env outer pending ms
  termination_by structural ms => ms

end

def checkDeclarations (env : Environment) (pending : Index ModuleKind) :
    List Declaration → Except KindConflict Unit
  | [] => .ok ()
  | .globalDecl _ :: ds => checkDeclarations env pending ds
  | .nestable d :: ds => do
    let pending ← checkNestable env none pending d
    checkDeclarations env pending ds

/-! ## Registration -/

def addModule (env : Environment) (name : String) (kind : ModuleKind) (d : Nestable) :
    Environment :=
  { env with
    modules := env.modules.update name fun
      | none => ⟨name, kind, [d], []⟩
      | some e => { e with declarations := e.declarations ++ [d] } }

/-- Puts a member, which is no declaration, behind those of an entry. -/
def addOwnMember (env : Environment) (name : String) (m : Member) : Environment :=
  { env with modules := env.modules.modify name fun e => { e with members := e.members ++ [m] } }

mutual

def addNestable (outer : Option String) : Nestable → Environment → Environment
  | .classDecl d, env => addClass outer d env
  | .moduleDecl d, env => addModuleDecl outer d env
  | .interfaceDecl d, env => addInterface outer d env
  | .aliasDecl d, env => { env with aliases := (qualify outer d.name, d) :: env.aliases }
  | .constantDecl d, env => { env with constants := (qualify outer d.name, d) :: env.constants }
  termination_by structural d => d

def addClass (outer : Option String) : ClassDecl → Environment → Environment
  | ⟨name, typeParams, superclass, members, notes⟩, env =>
    let here := qualify outer name
    addMembers here members
      (env.addModule here .ofClass (.classDecl ⟨name, typeParams, superclass, members, notes⟩))
  termination_by structural d => d

def addModuleDecl (outer : Option String) : ModuleDecl → Environment → Environment
  | ⟨name, typeParams, selfTypes, members, notes⟩, env =>
    let here := qualify outer name
    addMembers here members
      (env.addModule here .ofModule (.moduleDecl ⟨name, typeParams, selfTypes, members, notes⟩))
  termination_by structural d => d

def addInterface (outer : Option String) : InterfaceDecl → Environment → Environment
  | ⟨name, typeParams, members, notes⟩, env =>
    let here := qualify outer name
    addMembers here members
      (env.addModule here .ofInterface (.interfaceDecl ⟨name, typeParams, members, notes⟩))
  termination_by structural d => d

/-- Adds a member of an entry. -/
def addMember (here : String) : Member → Environment → Environment
  | .nested d, env => addNestable (some here) d env
  | .method m, env => env.addOwnMember here (.method m)
  | .attribute m, env => env.addOwnMember here (.attribute m)
  | .mixin m, env => env.addOwnMember here (.mixin m)
  | .variable m, env => env.addOwnMember here (.variable m)
  | .aliasMember m, env => env.addOwnMember here (.aliasMember m)
  | .visibility m, env => env.addOwnMember here (.visibility m)
  termination_by structural m => m

def addMembers (here : String) : List Member → Environment → Environment
  | [], env => env
  | m :: ms, env => addMembers here ms (addMember here m env)
  termination_by structural ms => ms

end

def addDeclaration (env : Environment) : Declaration → Environment
  | .nestable d => addNestable none d env
  | .globalDecl d => { env with globals := (d.name, d) :: env.globals }

/-- Adds the declarations of one source, or none of them. -/
def addDeclarations (env : Environment) (ds : List Declaration) (source : String := "") :
    Except KindConflict Environment :=
  match env.checkDeclarations [] ds with
  | .error c => .error c
  | .ok () =>
    let env := ds.foldl addDeclaration env
    .ok { env with sources := env.sources ++ [source] }

/-- Adds a signature text; also gives its declarations. -/
def addSignature (env : Environment) (text : String) (source : String := "a.rbs") :
    Except SignatureError (Environment × List Declaration) :=
  match parse text source with
  | .error f => .error (.fault f)
  | .ok ds =>
    match env.addDeclarations ds source with
    | .error c => .error (.conflict c)
    | .ok env => .ok (env, ds)

end Environment

end RbsSynth
