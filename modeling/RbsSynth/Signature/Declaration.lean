import RbsSynth.Signature.TypeExpr

/-!
Declarations and their members.

What stands around a declaration (annotations, a comment, its place in the text) is kept in one
`Notes`.  A place is for messages only: two declarations are the same when they agree without their
places (`erase`).
-/

namespace RbsSynth.Signature

/-- A span of a named text; lines and columns count from one and the end column is not part of it. -/
structure Location where
  name : String
  startLine : Nat
  startColumn : Nat
  endLine : Nat
  endColumn : Nat
  deriving DecidableEq

/-- The text between the delimiters of an annotation. -/
structure Annotation where
  body : String
  location : Option Location := none
  deriving DecidableEq

structure Comment where
  text : String
  location : Option Location := none
  deriving DecidableEq

structure Notes where
  annotations : List Annotation := []
  comment : Option Comment := none
  location : Option Location := none
  deriving DecidableEq

/-! ## Members -/

/-- Where a method is called: on instances, on the class or module itself, or on both. -/
inductive MethodKind
  | ofInstance | ofSingleton | ofBoth
  deriving DecidableEq

structure MethodDefinition where
  name : String
  kind : MethodKind := .ofInstance
  overloads : List MethodType := []
  /-- Whether the overloads go on with those of an earlier definition. -/
  overloading : Bool := false
  notes : Notes := {}
  deriving DecidableEq

inductive AttributeKind
  | reader | writer | accessor
  deriving DecidableEq

structure AttributeMember where
  kind : AttributeKind
  name : String
  type : TypeExpr
  singleton : Bool := false
  notes : Notes := {}
  deriving DecidableEq

inductive MixinKind
  | include | extend | prepend
  deriving DecidableEq

structure MixinMember where
  kind : MixinKind
  name : TypeName
  args : List TypeExpr := []
  notes : Notes := {}
  deriving DecidableEq

structure VariableMember where
  name : String
  type : TypeExpr
  notes : Notes := {}
  deriving DecidableEq

structure AliasMember where
  newName : String
  oldName : String
  singleton : Bool := false
  notes : Notes := {}
  deriving DecidableEq

inductive Visibility
  | toPublic | toPrivate
  deriving DecidableEq

structure VisibilityMember where
  visibility : Visibility
  location : Option Location := none
  deriving DecidableEq

/-! ## Declarations -/

/-- A class or module applied to arguments: a superclass, or what a module asks of its user. -/
structure Application where
  name : TypeName
  args : List TypeExpr := []
  deriving DecidableEq

structure AliasDecl where
  name : TypeName
  type : TypeExpr
  typeParams : List TypeParam := []
  notes : Notes := {}
  deriving DecidableEq

structure ConstantDecl where
  name : TypeName
  type : TypeExpr
  notes : Notes := {}
  deriving DecidableEq

structure GlobalDecl where
  name : String
  type : TypeExpr
  notes : Notes := {}
  deriving DecidableEq

mutual

structure ClassDecl where
  name : TypeName
  typeParams : List TypeParam
  superclass : Option Application
  members : List Member
  notes : Notes

structure ModuleDecl where
  name : TypeName
  typeParams : List TypeParam
  selfTypes : List Application
  members : List Member
  notes : Notes

structure InterfaceDecl where
  name : TypeName
  typeParams : List TypeParam
  members : List Member
  notes : Notes

/-- The declarations that may also stand inside others. -/
inductive Nestable
  | classDecl (d : ClassDecl)
  | moduleDecl (d : ModuleDecl)
  | interfaceDecl (d : InterfaceDecl)
  | aliasDecl (d : AliasDecl)
  | constantDecl (d : ConstantDecl)

inductive Member
  | method (m : MethodDefinition)
  | attribute (m : AttributeMember)
  | mixin (m : MixinMember)
  | variable (m : VariableMember)
  | aliasMember (m : AliasMember)
  | visibility (m : VisibilityMember)
  | nested (d : Nestable)

end

inductive Declaration
  | nestable (d : Nestable)
  | globalDecl (d : GlobalDecl)

def Nestable.notes : Nestable → Notes
  | classDecl d => d.notes
  | moduleDecl d => d.notes
  | interfaceDecl d => d.notes
  | aliasDecl d => d.notes
  | constantDecl d => d.notes

def Nestable.name : Nestable → TypeName
  | classDecl d => d.name
  | moduleDecl d => d.name
  | interfaceDecl d => d.name
  | aliasDecl d => d.name
  | constantDecl d => d.name

def Declaration.notes : Declaration → Notes
  | nestable d => d.notes
  | globalDecl d => d.notes

/-- The text of the declared name. -/
def Declaration.nameText : Declaration → String
  | nestable d => d.name.render
  | globalDecl d => d.name

/-! ## Equality -/

mutual

def ClassDecl.beq : ClassDecl → ClassDecl → Bool
  | ⟨n, ps, s, ms, ns⟩, ⟨n', ps', s', ms', ns'⟩ =>
    n == n' && ps == ps' && s == s' && Member.beqList ms ms' && ns == ns'
  termination_by structural d => d

def ModuleDecl.beq : ModuleDecl → ModuleDecl → Bool
  | ⟨n, ps, s, ms, ns⟩, ⟨n', ps', s', ms', ns'⟩ =>
    n == n' && ps == ps' && s == s' && Member.beqList ms ms' && ns == ns'
  termination_by structural d => d

def InterfaceDecl.beq : InterfaceDecl → InterfaceDecl → Bool
  | ⟨n, ps, ms, ns⟩, ⟨n', ps', ms', ns'⟩ =>
    n == n' && ps == ps' && Member.beqList ms ms' && ns == ns'
  termination_by structural d => d

def Nestable.beq : Nestable → Nestable → Bool
  | .classDecl d, .classDecl e => d.beq e
  | .moduleDecl d, .moduleDecl e => d.beq e
  | .interfaceDecl d, .interfaceDecl e => d.beq e
  | .aliasDecl d, .aliasDecl e => d == e
  | .constantDecl d, .constantDecl e => d == e
  | _, _ => false
  termination_by structural d => d

def Member.beq : Member → Member → Bool
  | .method m, .method n => m == n
  | .attribute m, .attribute n => m == n
  | .mixin m, .mixin n => m == n
  | .variable m, .variable n => m == n
  | .aliasMember m, .aliasMember n => m == n
  | .visibility m, .visibility n => m == n
  | .nested d, .nested e => d.beq e
  | _, _ => false
  termination_by structural m => m

def Member.beqList : List Member → List Member → Bool
  | [], [] => true
  | m :: ms, n :: ns => m.beq n && Member.beqList ms ns
  | _, _ => false
  termination_by structural ms => ms

end

mutual

theorem ClassDecl.beq_iff : (a b : ClassDecl) → (a.beq b = true ↔ a = b)
  | ⟨n, ps, s, ms, ns⟩, b => by
    cases b; simp [ClassDecl.beq, Member.beqList_iff ms, and_assoc]
  termination_by structural d => d

theorem ModuleDecl.beq_iff : (a b : ModuleDecl) → (a.beq b = true ↔ a = b)
  | ⟨n, ps, s, ms, ns⟩, b => by
    cases b; simp [ModuleDecl.beq, Member.beqList_iff ms, and_assoc]
  termination_by structural d => d

theorem InterfaceDecl.beq_iff : (a b : InterfaceDecl) → (a.beq b = true ↔ a = b)
  | ⟨n, ps, ms, ns⟩, b => by
    cases b; simp [InterfaceDecl.beq, Member.beqList_iff ms, and_assoc]
  termination_by structural d => d

theorem Nestable.beq_iff : (a b : Nestable) → (a.beq b = true ↔ a = b)
  | .classDecl d, b => by cases b <;> simp [Nestable.beq, ClassDecl.beq_iff d]
  | .moduleDecl d, b => by cases b <;> simp [Nestable.beq, ModuleDecl.beq_iff d]
  | .interfaceDecl d, b => by cases b <;> simp [Nestable.beq, InterfaceDecl.beq_iff d]
  | .aliasDecl d, b => by cases b <;> simp [Nestable.beq]
  | .constantDecl d, b => by cases b <;> simp [Nestable.beq]
  termination_by structural d => d

theorem Member.beq_iff : (a b : Member) → (a.beq b = true ↔ a = b)
  | .method m, b => by cases b <;> simp [Member.beq]
  | .attribute m, b => by cases b <;> simp [Member.beq]
  | .mixin m, b => by cases b <;> simp [Member.beq]
  | .variable m, b => by cases b <;> simp [Member.beq]
  | .aliasMember m, b => by cases b <;> simp [Member.beq]
  | .visibility m, b => by cases b <;> simp [Member.beq]
  | .nested d, b => by cases b <;> simp [Member.beq, Nestable.beq_iff d]
  termination_by structural m => m

theorem Member.beqList_iff : (a b : List Member) → (Member.beqList a b = true ↔ a = b)
  | [], b => by cases b <;> simp [Member.beqList]
  | m :: ms, b => by
    cases b <;> simp [Member.beqList, Member.beq_iff m, Member.beqList_iff ms]
  termination_by structural ms => ms

end

instance : DecidableEq ClassDecl := fun a b => decidable_of_iff _ (ClassDecl.beq_iff a b)

instance : DecidableEq ModuleDecl := fun a b => decidable_of_iff _ (ModuleDecl.beq_iff a b)

instance : DecidableEq InterfaceDecl := fun a b => decidable_of_iff _ (InterfaceDecl.beq_iff a b)

instance : DecidableEq Nestable := fun a b => decidable_of_iff _ (Nestable.beq_iff a b)

instance : DecidableEq Member := fun a b => decidable_of_iff _ (Member.beq_iff a b)

deriving instance DecidableEq for Declaration

/-! ## Notes -/

/-! A function on notes applied to a declaration and everything in it; a visibility has only a place. -/

mutual

def ClassDecl.mapNotes (f : Notes → Notes) : ClassDecl → ClassDecl
  | ⟨n, ps, s, ms, ns⟩ => ⟨n, ps, s, Member.mapNotesList f ms, f ns⟩
  termination_by structural d => d

def ModuleDecl.mapNotes (f : Notes → Notes) : ModuleDecl → ModuleDecl
  | ⟨n, ps, s, ms, ns⟩ => ⟨n, ps, s, Member.mapNotesList f ms, f ns⟩
  termination_by structural d => d

def InterfaceDecl.mapNotes (f : Notes → Notes) : InterfaceDecl → InterfaceDecl
  | ⟨n, ps, ms, ns⟩ => ⟨n, ps, Member.mapNotesList f ms, f ns⟩
  termination_by structural d => d

def Nestable.mapNotes (f : Notes → Notes) : Nestable → Nestable
  | .classDecl d => .classDecl (d.mapNotes f)
  | .moduleDecl d => .moduleDecl (d.mapNotes f)
  | .interfaceDecl d => .interfaceDecl (d.mapNotes f)
  | .aliasDecl d => .aliasDecl { d with notes := f d.notes }
  | .constantDecl d => .constantDecl { d with notes := f d.notes }
  termination_by structural d => d

def Member.mapNotes (f : Notes → Notes) : Member → Member
  | .method m => .method { m with notes := f m.notes }
  | .attribute m => .attribute { m with notes := f m.notes }
  | .mixin m => .mixin { m with notes := f m.notes }
  | .variable m => .variable { m with notes := f m.notes }
  | .aliasMember m => .aliasMember { m with notes := f m.notes }
  | .visibility m => .visibility { m with location := (f ⟨[], none, m.location⟩).location }
  | .nested d => .nested (d.mapNotes f)
  termination_by structural m => m

def Member.mapNotesList (f : Notes → Notes) : List Member → List Member
  | [] => []
  | m :: ms => m.mapNotes f :: Member.mapNotesList f ms
  termination_by structural ms => ms

end

def Declaration.mapNotes (f : Notes → Notes) : Declaration → Declaration
  | .nestable d => .nestable (d.mapNotes f)
  | .globalDecl d => .globalDecl { d with notes := f d.notes }

/-! ## Without places -/

def Annotation.erase (a : Annotation) : Annotation := { a with location := none }

def Comment.erase (c : Comment) : Comment := { c with location := none }

def Notes.erase (n : Notes) : Notes :=
  { annotations := n.annotations.map Annotation.erase
    comment := n.comment.map Comment.erase
    location := none }

def Declaration.erase (d : Declaration) : Declaration := d.mapNotes Notes.erase

/-- Whether two lists of declarations agree but for their places. -/
def sameDeclarations (ds es : List Declaration) : Bool :=
  decide (ds.map Declaration.erase = es.map Declaration.erase)

end RbsSynth.Signature
