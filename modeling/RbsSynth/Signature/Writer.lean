import RbsSynth.Signature.Declaration
import RbsSynth.Signature.Lexeme
import RbsSynth.Signature.TypeText
import RbsSynth.Text.Lines
import RbsSynth.Text.Quoted

/-!
The canonical text of declarations.

Members are indented one step more than what they are in, further overloads of a method stand under
the colon of the first, and an empty line separates the declarations of a file.  Two things cannot
be written: an annotation whose body holds every closing delimiter, and a method without any type.
-/

namespace RbsSynth.Signature

inductive WriteError
  | undelimited (body : String)
  | untyped (method : String)
  deriving DecidableEq

def WriteError.message : WriteError → String
  | undelimited body => "annotation cannot be delimited: " ++ Text.quoted body
  | untyped method => "method without a type: " ++ method

namespace Writer

/-- An annotation between the first delimiters whose closing one its body does not hold. -/
def annotationText (body : String) : Except WriteError String :=
  match annotationDelimiters.find? fun d => !body.toList.contains d.2 with
  | some (opening, closing) =>
    .ok ("%a" ++ String.singleton opening ++ body ++ String.singleton closing)
  | none => .error (.undelimited body)

/-- The indentation of a nesting level. -/
def padding (indent : String) : Nat → String
  | 0 => ""
  | n + 1 => padding indent n ++ indent

def commentLines (pad : String) : Option Comment → List String
  | none => []
  | some c =>
    (Text.splitOn ['\n'] c.text.toList).map fun line =>
      .ofList (Text.trimEnd (pad.toList ++ '#' :: ' ' :: line))

def annotationLines (pad : String) : List Annotation → Except WriteError (List String)
  | [] => .ok []
  | a :: as => do
    let line ← annotationText a.body
    let lines ← annotationLines pad as
    return (pad ++ line) :: lines

/-- The comment and the annotations above a declaration or member. -/
def noteLines (pad : String) (n : Notes) : Except WriteError (List String) := do
  let annotations ← annotationLines pad n.annotations
  return commentLines pad n.comment ++ annotations

def kindPrefix : MethodKind → String
  | .ofInstance => ""
  | .ofSingleton => "self."
  | .ofBoth => "self?."

def selfPrefix (singleton : Bool) : String := if singleton then "self." else ""

def attributeWord : AttributeKind → String
  | .reader => "attr_reader"
  | .writer => "attr_writer"
  | .accessor => "attr_accessor"

def mixinWord : MixinKind → String
  | .include => "include"
  | .extend => "extend"
  | .prepend => "prepend"

def visibilityWord : Visibility → String
  | .toPublic => "public"
  | .toPrivate => "private"

def applicationText (a : Application) : String :=
  a.name.render ++ bracketed (TypeExpr.renderList a.args)

/-- The types of a method; three dots stand for those of earlier definitions. -/
def overloadTexts (m : MethodDefinition) : List String :=
  m.overloads.map MethodType.render ++ if m.overloading then ["..."] else []

def methodLines (pad : String) (m : MethodDefinition) : Except WriteError (List String) :=
  let head := "def " ++ kindPrefix m.kind ++ m.name ++ ":"
  match overloadTexts m with
  | [] => .error (.untyped m.name)
  | first :: more =>
    let gap := String.ofList (List.replicate (head.length - 1) ' ')
    .ok ((pad ++ head ++ " " ++ first) :: more.map (pad ++ gap ++ "| " ++ ·))

def aliasLine (d : AliasDecl) : String :=
  "type " ++ d.name.render ++ renderTypeParams d.typeParams ++ " = " ++ d.type.render

mutual

def classLines (indent : String) (level : Nat) : ClassDecl → Except WriteError (List String)
  | ⟨name, typeParams, superclass, members, notes⟩ => do
    let pad := padding indent level
    let above ← noteLines pad notes
    let body ← memberLines indent (level + 1) members
    let ancestor := match superclass with
      | none => ""
      | some a => " < " ++ applicationText a
    return above ++ (pad ++ "class " ++ name.render ++ renderTypeParams typeParams ++ ancestor)
      :: body ++ [pad ++ "end"]
  termination_by structural d => d

def moduleLines (indent : String) (level : Nat) : ModuleDecl → Except WriteError (List String)
  | ⟨name, typeParams, selfTypes, members, notes⟩ => do
    let pad := padding indent level
    let above ← noteLines pad notes
    let body ← memberLines indent (level + 1) members
    let users := match selfTypes with
      | [] => ""
      | as => " : " ++ Text.join ", " (as.map applicationText)
    return above ++ (pad ++ "module " ++ name.render ++ renderTypeParams typeParams ++ users)
      :: body ++ [pad ++ "end"]
  termination_by structural d => d

def interfaceLines (indent : String) (level : Nat) :
    InterfaceDecl → Except WriteError (List String)
  | ⟨name, typeParams, members, notes⟩ => do
    let pad := padding indent level
    let above ← noteLines pad notes
    let body ← memberLines indent (level + 1) members
    return above ++ (pad ++ "interface " ++ name.render ++ renderTypeParams typeParams)
      :: body ++ [pad ++ "end"]
  termination_by structural d => d

def nestableLines (indent : String) (level : Nat) : Nestable → Except WriteError (List String)
  | .classDecl d => classLines indent level d
  | .moduleDecl d => moduleLines indent level d
  | .interfaceDecl d => interfaceLines indent level d
  | .aliasDecl d => do
    let pad := padding indent level
    let above ← noteLines pad d.notes
    return above ++ [pad ++ aliasLine d]
  | .constantDecl d => do
    let pad := padding indent level
    let above ← noteLines pad d.notes
    return above ++ [pad ++ d.name.render ++ ": " ++ d.type.render]
  termination_by structural d => d

def oneMemberLines (indent : String) (level : Nat) : Member → Except WriteError (List String)
  | .method m => do
    let pad := padding indent level
    let above ← noteLines pad m.notes
    let lines ← methodLines pad m
    return above ++ lines
  | .attribute m => do
    let pad := padding indent level
    let above ← noteLines pad m.notes
    return above ++ [pad ++ attributeWord m.kind ++ " " ++ selfPrefix m.singleton ++ m.name ++ ": "
      ++ m.type.render]
  | .mixin m => do
    let pad := padding indent level
    let above ← noteLines pad m.notes
    return above ++ [pad ++ mixinWord m.kind ++ " " ++ applicationText ⟨m.name, m.args⟩]
  | .variable m => do
    let pad := padding indent level
    let above ← noteLines pad m.notes
    return above ++ [pad ++ m.name ++ ": " ++ m.type.render]
  | .aliasMember m => do
    let pad := padding indent level
    let above ← noteLines pad m.notes
    let side := selfPrefix m.singleton
    return above ++ [pad ++ "alias " ++ side ++ m.newName ++ " " ++ side ++ m.oldName]
  | .visibility m => .ok [padding indent level ++ visibilityWord m.visibility]
  | .nested d => nestableLines indent level d
  termination_by structural m => m

def memberLines (indent : String) (level : Nat) : List Member → Except WriteError (List String)
  | [] => .ok []
  | m :: ms => do
    let first ← oneMemberLines indent level m
    let more ← memberLines indent level ms
    return first ++ more
  termination_by structural ms => ms

end

def declarationLines (indent : String) : Declaration → Except WriteError (List String)
  | .nestable d => nestableLines indent 0 d
  | .globalDecl d => do
    let above ← noteLines "" d.notes
    return above ++ [d.name ++ ": " ++ d.type.render]

def chunks (indent : String) : List Declaration → Except WriteError (List String)
  | [] => .ok []
  | d :: ds => do
    let lines ← declarationLines indent d
    let more ← chunks indent ds
    return Text.join "\n" lines :: more

end Writer

/-- The text of a file of declarations; without any it is empty. -/
def write (ds : List Declaration) (indent : String := "  ") : Except WriteError String := do
  match ← Writer.chunks indent ds with
  | [] => return ""
  | cs => return Text.join "\n\n" cs ++ "\n"

end RbsSynth.Signature
