import RbsSynth.Signature.Comments
import RbsSynth.Signature.Grammar
import RbsSynth.Signature.Lexer

/-!
What the rules of the grammar mean.

`Rule.build` gives the value of a rule from the values of the parts it was written with.  Parts that
may be left out are told apart by their kind.  A rule never meets values of other kinds than its
shape says, so `none` does not arise in a run over the table.

The parameters of a function are first read in the order they are written in (`WrittenParam`) and
then sorted into slots: a required parameter behind an optional or a rest one is a trailing one, and
of several rest parameters the last stays.
-/

namespace RbsSynth.Signature

inductive ParamKind
  | required | optional | rest
  | keyword (key : String)
  | optionalKeyword (key : String)
  | restKeywords
  deriving DecidableEq

structure WrittenParam where
  kind : ParamKind
  param : Param
  deriving DecidableEq

/-- Adds one more parameter to the slots. -/
def FunctionType.addParam (f : FunctionType) (w : WrittenParam) : FunctionType :=
  match w.kind with
  | .required =>
    if f.rest.isSome || !f.optional.isEmpty then { f with trailing := f.trailing ++ [w.param] }
    else { f with required := f.required ++ [w.param] }
  | .optional => { f with optional := f.optional ++ [w.param] }
  | .rest => { f with rest := some w.param }
  | .keyword key => { f with requiredKeywords := f.requiredKeywords ++ [⟨key, w.param⟩] }
  | .optionalKeyword key => { f with optionalKeywords := f.optionalKeywords ++ [⟨key, w.param⟩] }
  | .restKeywords => { f with restKeywords := some w.param }

def FunctionType.ofWritten (params : List WrittenParam) (returnType : TypeExpr) : FunctionType :=
  params.foldl FunctionType.addParam (.returning returnType)

/-- The value of a part. -/
inductive Value
  | token (t : Token)
  | name (n : TypeName)
  | type (t : TypeExpr)
  | types (ts : List TypeExpr)
  | field (f : RecordField)
  | fields (fs : List RecordField)
  | param (p : WrittenParam)
  | moreParams (ps : List WrittenParam)
  | params (ps : List WrittenParam)
  | binding (t : TypeExpr)
  | inner (function : FunctionType) (selfType : Option TypeExpr)
  | block (b : Block)
  | typeParam (p : TypeParam)
  | typeParams (ps : List TypeParam)
  | superclass (a : Application)
  | selfType (a : Application)
  | selfTypes (as : List Application)
  | methodKind (k : MethodKind)
  | methodName (s : String)
  | methodType (m : MethodType)
  | methodTypes (ms : List MethodType)
  | overloads (ms : List MethodType) (overloading : Bool)
  | annotations (as : List Annotation)
  | member (m : Member)
  | members (ms : List Member)
  | nestable (d : Nestable)
  | declaration (d : Declaration)
  | declarations (ds : List Declaration)

namespace Value

/-! Parts that may be left out, by their kind. -/

def typesIn : List Value → List TypeExpr
  | [] => []
  | types ts :: _ => ts
  | _ :: vs => typesIn vs

def paramsIn : List Value → List WrittenParam
  | [] => []
  | params ps :: _ => ps
  | _ :: vs => paramsIn vs

def bindingIn? : List Value → Option TypeExpr
  | [] => none
  | binding t :: _ => some t
  | _ :: vs => bindingIn? vs

def blockIn? : List Value → Option Block
  | [] => none
  | block b :: _ => some b
  | _ :: vs => blockIn? vs

/-- The last type among the parts. -/
def typeIn? : List Value → Option TypeExpr
  | [] => none
  | type t :: vs => (typeIn? vs).or (some t)
  | _ :: vs => typeIn? vs

def typeParamsIn : List Value → List TypeParam
  | [] => []
  | typeParams ps :: _ => ps
  | _ :: vs => typeParamsIn vs

def superclassIn? : List Value → Option Application
  | [] => none
  | superclass a :: _ => some a
  | _ :: vs => superclassIn? vs

def selfTypesIn : List Value → List Application
  | [] => []
  | selfTypes as :: _ => as
  | _ :: vs => selfTypesIn vs

def membersIn : List Value → List Member
  | [] => []
  | members ms :: _ => ms
  | _ :: vs => membersIn vs

def methodTypesIn : List Value → List MethodType
  | [] => []
  | methodTypes ms :: _ => ms
  | _ :: vs => methodTypesIn vs

def kindIn : List Value → MethodKind
  | [] => .ofInstance
  | methodKind k :: _ => k
  | _ :: vs => kindIn vs

def methodNamesIn : List Value → List String
  | [] => []
  | methodName s :: vs => s :: methodNamesIn vs
  | _ :: vs => methodNamesIn vs

/-- The first token of a terminal. -/
def tokenIn? (t : Terminal) : List Value → Option String
  | [] => none
  | token k :: vs => if k.terminal = t then some k.text else tokenIn? t vs
  | _ :: vs => tokenIn? t vs

def hasToken (t : Terminal) (vs : List Value) : Bool := (tokenIn? t vs).isSome

end Value

open Value

/-- A text without its last character. -/
def dropLast (s : String) : String := .ofList s.toList.dropLast

def Span.location (name : String) (s : Span) : Location :=
  ⟨name, s.start.line, s.start.column, s.stop.line, s.stop.column⟩

/-- The body of an annotation: its text without `%a` and the delimiters. -/
def Token.annotation (name : String) (t : Token) : Annotation :=
  ⟨.ofList (t.text.toList.drop 3).dropLast, some (t.span.location name)⟩

def tokensText : List Value → String
  | [] => ""
  | token t :: vs => t.text ++ tokensText vs
  | _ :: vs => tokensText vs

/-- One more operand at the end of a union. -/
def TypeExpr.orElse (left right : TypeExpr) : TypeExpr :=
  match left with
  | .union ts => .union (ts ++ [right])
  | t => .union [t, right]

/-- One more operand at the end of an intersection. -/
def TypeExpr.andAlso (left right : TypeExpr) : TypeExpr :=
  match left with
  | .intersection ts => .intersection (ts ++ [right])
  | t => .intersection [t, right]

def buildParam (kind : ParamKind) (vs : List Value) : Option Value :=
  (typeIn? vs).map fun t => .param ⟨kind, ⟨t, tokenIn? .lowerName vs⟩⟩

def buildKeyword (kind : String → ParamKind) (vs : List Value) : Option Value :=
  match tokenIn? .label vs with
  | some key => buildParam (kind (dropLast key)) vs
  | none => none

def buildField (required : Bool) (vs : List Value) : Option Value :=
  match tokenIn? .label vs, typeIn? vs with
  | some key, some t => some (.field ⟨dropLast key, t, required⟩)
  | _, _ => none

def attributeKind? : String → Option AttributeKind
  | "attr_reader" => some .reader
  | "attr_writer" => some .writer
  | "attr_accessor" => some .accessor
  | _ => none

def mixinKind? : String → Option MixinKind
  | "include" => some .include
  | "extend" => some .extend
  | "prepend" => some .prepend
  | _ => none

def visibility? : String → Option Visibility
  | "public" => some .toPublic
  | "private" => some .toPrivate
  | _ => none

def buildMixin (vs : List Value) : Option Value :=
  match vs with
  | .token t :: .name n :: rest =>
    (mixinKind? t.text).map fun k => .member (.mixin { kind := k, name := n, args := typesIn rest })
  | _ => none

/-- The annotations and the place of a declaration or member. -/
def notesFor (name : String) (as : List Annotation) (span : Option Span) : Notes :=
  ⟨as, none, span.map (·.location name)⟩

def Nestable.withNotes (n : Notes) : Nestable → Nestable
  | .classDecl d => .classDecl { d with notes := n }
  | .moduleDecl d => .moduleDecl { d with notes := n }
  | .interfaceDecl d => .interfaceDecl { d with notes := n }
  | .aliasDecl d => .aliasDecl { d with notes := n }
  | .constantDecl d => .constantDecl { d with notes := n }

def Declaration.withNotes (n : Notes) : Declaration → Declaration
  | .nestable d => .nestable (d.withNotes n)
  | .globalDecl d => .globalDecl { d with notes := n }

def Member.withNotes (n : Notes) : Member → Member
  | .method m => .method { m with notes := n }
  | .attribute m => .attribute { m with notes := n }
  | .mixin m => .mixin { m with notes := n }
  | .variable m => .variable { m with notes := n }
  | .aliasMember m => .aliasMember { m with notes := n }
  | .visibility m => .visibility { m with location := n.location }
  | .nested d => .nested (d.withNotes n)

/-- The value of a rule in a text called `name`, from the values of its parts; `span` is the part of
the text that it covers. -/
def Rule.build (name : String) (span : Option Span) (rule : Rule) (vs : List Value) :
    Option Value :=
  match rule with
  | .root | .classBody | .moduleBody | .interfaceBody | .aliasBody | .constantBody | .methodBody
  | .attributeBody | .mixinBody | .variableBody | .aliasMemberBody | .visibilityBody
  | .nestedClassBody | .nestedModuleBody | .nestedInterfaceBody | .nestedAliasBody
  | .nestedConstantBody | .globalBody | .type | .plainUnion | .plainIntersection
  | .plainOptional => vs.head?
  | .file => match vs with
    | [] => some (.declarations [])
    | [v] => some v
    | _ => none
  | .declarations => match vs with
    | [.declaration d] => some (.declarations [d])
    | _ => none
  | .declarationsMore => match vs with
    | [.declarations ds, .declaration d] => some (.declarations (ds ++ [d]))
    | _ => none
  | .declaration => match vs with
    | [.annotations as, .nestable d] =>
      some (.declaration (.nestable (d.withNotes (notesFor name as span))))
    | [.annotations as, .declaration d] =>
      some (.declaration (d.withNotes (notesFor name as span)))
    | _ => none
  | .annotations => match vs with
    | [] => some (.annotations [])
    | [v] => some v
    | _ => none
  | .annotationTokens => match vs with
    | [.token t] => some (.annotations [t.annotation name])
    | _ => none
  | .annotationTokensMore => match vs with
    | [.annotations as, .token t] => some (.annotations (as ++ [t.annotation name]))
    | _ => none
  | .classDeclaration => match vs with
    | .token _ :: .name n :: parts =>
      some (.nestable (.classDecl
        ⟨n, typeParamsIn parts, superclassIn? parts, membersIn parts, {}⟩))
    | _ => none
  | .superclass => match vs with
    | .token _ :: .name n :: parts => some (.superclass ⟨n, typesIn parts⟩)
    | _ => none
  | .moduleDeclaration => match vs with
    | .token _ :: .name n :: parts =>
      some (.nestable (.moduleDecl
        ⟨n, typeParamsIn parts, selfTypesIn parts, membersIn parts, {}⟩))
    | _ => none
  | .selfTypes => match vs with
    | .token _ :: .selfType a :: parts => some (.selfTypes (a :: selfTypesIn parts))
    | _ => none
  | .moreSelfTypes => match vs with
    | [.token _, .selfType a] => some (.selfTypes [a])
    | _ => none
  | .moreSelfTypesMore => match vs with
    | [.selfTypes as, .token _, .selfType a] => some (.selfTypes (as ++ [a]))
    | _ => none
  | .classSelfType | .interfaceSelfType => match vs with
    | .name n :: parts => some (.selfType ⟨n, typesIn parts⟩)
    | _ => none
  | .interfaceDeclaration => match vs with
    | .token _ :: .name n :: parts =>
      some (.nestable (.interfaceDecl ⟨n, typeParamsIn parts, membersIn parts, {}⟩))
    | _ => none
  | .aliasDeclaration => match vs, typeIn? vs with
    | .token _ :: .name n :: parts, some t =>
      some (.nestable (.aliasDecl { name := n, type := t, typeParams := typeParamsIn parts }))
    | _, _ => none
  | .constantDeclaration => match vs with
    | [.name n, .token _, .type t] => some (.nestable (.constantDecl { name := n, type := t }))
    | _ => none
  | .globalDeclaration => match vs with
    | [.token g, .token _, .type t] =>
      some (.declaration (.globalDecl { name := g.text, type := t }))
    | _ => none
  | .members => match vs with
    | [.member m] => some (.members [m])
    | _ => none
  | .membersMore => match vs with
    | [.members ms, .member m] => some (.members (ms ++ [m]))
    | _ => none
  | .member => match vs with
    | [.annotations as, .member m] => some (.member (m.withNotes (notesFor name as span)))
    | [.annotations as, .nestable d] =>
      some (.member (.nested (d.withNotes (notesFor name as span))))
    | _ => none
  | .methodMember => match methodNamesIn vs, vs.getLast? with
    | [m], some (.overloads os more) =>
      some (.member (.method
        { name := m, kind := kindIn vs, overloads := os, overloading := more }))
    | _, _ => none
  | .singletonKind => some (.methodKind .ofSingleton)
  | .moduleFunctionKind => some (.methodKind .ofBoth)
  | .lowerMethodName | .upperMethodName | .suffixedMethodName | .operatorMethodName => match vs with
    | [.token t] => some (.methodName t.text)
    | _ => none
  | .methodTypes => match vs with
    | .methodType m :: parts => some (.overloads (m :: methodTypesIn parts) (hasToken .dots parts))
    | _ => none
  | .onlyDots => some (.overloads [] true)
  | .moreMethodTypes => match vs with
    | [.token _, .methodType m] => some (.methodTypes [m])
    | _ => none
  | .moreMethodTypesMore => match vs with
    | [.methodTypes ms, .token _, .methodType m] => some (.methodTypes (ms ++ [m]))
    | _ => none
  | .methodType => match vs.getLast? with
    | some (.type t) =>
      some (.methodType ⟨.ofWritten (paramsIn vs) t, blockIn? vs, typeParamsIn vs⟩)
    | _ => none
  | .attributeMember => match vs, tokenIn? .label vs, typeIn? vs with
    | .token k :: parts, some label, some t =>
      (attributeKind? k.text).map fun kind => .member (.attribute
        { kind := kind, name := dropLast label, type := t, singleton := hasToken .selfDot parts })
    | _, _, _ => none
  | .classMixin | .interfaceMixin => buildMixin vs
  | .variableMember => match vs with
    | [.token v, .token _, .type t] => some (.member (.variable { name := v.text, type := t }))
    | _ => none
  | .aliasMember => match methodNamesIn vs with
    | [new, old] => some (.member (.aliasMember
        { newName := new, oldName := old, singleton := hasToken .selfDot vs }))
    | _ => none
  | .visibilityMember => match vs with
    | [.token v] => (visibility? v.text).map fun w => .member (.visibility { visibility := w })
    | _ => none
  | .noParameters => some (.params [])
  | .oneParameter => match vs with
    | [.token _, .param p, .token _] => some (.params [p])
    | _ => none
  | .manyParameters => match vs with
    | [.token _, .param p, .moreParams ps, .token _] => some (.params (p :: ps))
    | _ => none
  | .moreParameters => match vs with
    | [.token _, .param p] => some (.moreParams [p])
    | _ => none
  | .moreParametersMore => match vs with
    | [.moreParams ps, .token _, .param p] => some (.moreParams (ps ++ [p]))
    | _ => none
  | .required => buildParam .required vs
  | .optionalPositional => buildParam .optional vs
  | .rest => buildParam .rest vs
  | .keyword => buildKeyword .keyword vs
  | .optionalKeyword => buildKeyword .optionalKeyword vs
  | .restKeywords => buildParam .restKeywords vs
  | .block => match vs with
    | [.token _, .inner f s, .token _] => some (.block ⟨f, true, s⟩)
    | _ => none
  | .optionalBlock => match vs with
    | [.token _, .token _, .inner f s, .token _] => some (.block ⟨f, false, s⟩)
    | _ => none
  | .blockInner => match vs.getLast? with
    | some (.type t) => some (.inner (.ofWritten (paramsIn vs) t) (bindingIn? vs))
    | _ => none
  | .selfBinding => (typeIn? vs).map .binding
  | .typeParameters => match vs with
    | .token _ :: .typeParam p :: parts => some (.typeParams (p :: typeParamsIn parts))
    | _ => none
  | .moreTypeParameters => match vs with
    | [.token _, .typeParam p] => some (.typeParams [p])
    | _ => none
  | .moreTypeParametersMore => match vs with
    | [.typeParams ps, .token _, .typeParam p] => some (.typeParams (ps ++ [p]))
    | _ => none
  | .typeParameter => (tokenIn? .upperName vs).map fun n => .typeParam
      { name := n
        variance := match tokenIn? .varianceWord vs with
          | none => .invariant
          | some w => if w == "out" then .covariant else .contravariant
        upperBound := typeIn? vs
        unchecked := hasToken .uncheckedWord vs }
  | .typeArguments => match vs with
    | .token _ :: .type t :: parts => some (.types (t :: typesIn parts))
    | _ => none
  | .moreTypes => match vs with
    | [.token _, .type t] => some (.types [t])
    | _ => none
  | .moreTypesMore => match vs with
    | [.types ts, .token _, .type t] => some (.types (ts ++ [t]))
    | _ => none
  | .union => match vs with
    | [.type l, .token _, .type r] => some (.type (l.orElse r))
    | _ => none
  | .intersection => match vs with
    | [.type l, .token _, .type r] => some (.type (l.andAlso r))
    | _ => none
  | .optional => (typeIn? vs).map fun t => .type (.optional t)
  | .classInstance => match vs with
    | .name n :: parts => some (.type (.classInstance n (typesIn parts)))
    | _ => none
  | .interfaceInstance => match vs with
    | .name n :: parts => some (.type (.interfaceInstance n (typesIn parts)))
    | _ => none
  | .aliasUse => match vs with
    | .name n :: parts => some (.type (.aliasUse n (typesIn parts)))
    | _ => none
  | .classSingleton => match vs with
    | [.token _, .token _, .name n, .token _] => some (.type (.classSingleton n))
    | _ => none
  | .base => match vs with
    | [.token t] => (BaseType.ofWord? t.text).map fun w => .type (.base w)
    | _ => none
  | .stringLiteral | .symbolLiteral | .integerLiteral => match vs with
    | [.token t] => some (.type (.literal t.text))
    | _ => none
  | .parenthesized => match vs with
    | [.token _, .type t, .token _] => some (.type t)
    | _ => none
  | .emptyTuple => some (.type (.tuple []))
  | .tuple => match vs with
    | .token _ :: .type t :: parts => some (.type (.tuple (t :: typesIn parts)))
    | _ => none
  | .record => match vs with
    | [.token _, .field f, .token _] => some (.type (.record [f]))
    | [.token _, .field f, .fields fs, .token _] => some (.type (.record (f :: fs)))
    | _ => none
  | .proc => match vs.getLast? with
    | some (.type t) =>
      some (.type (.proc (.ofWritten (paramsIn vs) t) (blockIn? vs) (bindingIn? vs)))
    | _ => none
  | .recordField => buildField true vs
  | .optionalRecordField => buildField false vs
  | .moreRecordFields => match vs with
    | [.token _, .field f] => some (.fields [f])
    | _ => none
  | .moreRecordFieldsMore => match vs with
    | [.fields fs, .token _, .field f] => some (.fields (fs ++ [f]))
    | _ => none
  | .className | .interfacePath | .aliasName => (TypeName.parse? (tokensText vs)).map .name

end RbsSynth.Signature
