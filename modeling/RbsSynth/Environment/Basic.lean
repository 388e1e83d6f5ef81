import RbsSynth.Index
import RbsSynth.Signature.Declaration
import RbsSynth.Signature.Fault
import RbsSynth.Signature.Marker

/-!
The environment: declarations by qualified name.

A class, module or interface has one entry, which holds its declarations and their members in the
order in which they were added; what it offers (superclass, mixins, methods, aliases) is read off
those.  Of the aliases, constants and globals of one name the last counts.
-/

namespace RbsSynth

open Signature

inductive ModuleKind
  | ofClass | ofModule | ofInterface
  deriving DecidableEq

def ModuleKind.word : ModuleKind → String
  | ofClass => "class"
  | ofModule => "module"
  | ofInterface => "interface"

namespace Signature.Nestable

/-- The kind of a declaration that has members. -/
def kind? : Nestable → Option ModuleKind
  | classDecl _ => some .ofClass
  | moduleDecl _ => some .ofModule
  | interfaceDecl _ => some .ofInterface
  | aliasDecl _ | constantDecl _ => none

def typeParams : Nestable → List TypeParam
  | classDecl d => d.typeParams
  | moduleDecl d => d.typeParams
  | interfaceDecl d => d.typeParams
  | aliasDecl d => d.typeParams
  | constantDecl _ => []

def superclass? : Nestable → Option Application
  | classDecl d => d.superclass
  | _ => none

end Signature.Nestable

/-- The declarations of one class, module or interface. -/
structure ModuleEntry where
  name : String
  kind : ModuleKind
  declarations : List Nestable
  /-- The members of all declarations, but for those that are declarations themselves. -/
  members : List Member := []

structure Environment where
  marker : Marker
  modules : Index ModuleEntry := []
  aliases : Index AliasDecl := []
  constants : Index ConstantDecl := []
  globals : Index GlobalDecl := []
  /-- The names of the texts added so far. -/
  sources : List String := []

/-- One name declared with two kinds. -/
structure KindConflict where
  name : String
  existing : ModuleKind
  new : ModuleKind
  deriving DecidableEq

def KindConflict.message (c : KindConflict) : String :=
  "Conflicting declarations for " ++ c.name ++ ": declared as " ++ c.existing.word ++ ", then as "
    ++ c.new.word

/-- Why a signature text cannot be added. -/
inductive SignatureError
  | fault (f : Fault)
  | conflict (c : KindConflict)
  deriving DecidableEq

def SignatureError.message : SignatureError → String
  | fault f => f.message
  | conflict c => c.message

namespace ModuleEntry

variable (e : ModuleEntry)

/-- The names in whose scope the entry's declarations are read, innermost first. -/
def context : List String := TypeName.nesting e.name

/-- The superclass as the first declaration that names one writes it. -/
def superclass? : Option TypeName := (e.declarations.findSome? Nestable.superclass?).map (·.name)

def mixins (kind : MixinKind) : List TypeName :=
  e.members.filterMap fun
    | .mixin m => if m.kind = kind then some m.name else none
    | _ => none

/-- The names of the type parameters, as the first declaration gives them. -/
def typeParams : List String :=
  match e.declarations with
  | [] => []
  | d :: _ => d.typeParams.map (·.name)

end ModuleEntry

end RbsSynth
