import RbsSynth.Lr.Grammar
import RbsSynth.Signature.Terminal

/-!
The grammar of the signature language.

A rule is one way to write a nonterminal; `Rule.shape` gives its parts, some of which may be left
out.  `Rule.bodies` lists the bodies that a shape stands for, and `productions` all of them, each
with the rule that gave it.
-/

namespace RbsSynth.Signature

inductive Nonterminal
  | root
  | file
  | declarations
  | declaration
  | annotations
  | annotationTokens
  | declarationBody
  | classDeclaration
  | superclass
  | moduleDeclaration
  | selfTypes
  | moreSelfTypes
  | selfType
  | interfaceDeclaration
  | aliasDeclaration
  | constantDeclaration
  | globalDeclaration
  | members
  | member
  | memberBody
  | methodMember
  | methodKind
  | methodName
  | methodTypes
  | moreMethodTypes
  | methodType
  | attributeMember
  | mixinMember
  | variableMember
  | aliasMember
  | visibilityMember
  | parameterGroup
  | moreParameters
  | parameter
  | block
  | blockInner
  | selfBinding
  | typeParameters
  | moreTypeParameters
  | typeParameter
  | typeArguments
  | moreTypes
  | type
  | union
  | intersection
  | optional
  | simple
  | recordField
  | moreRecordFields
  | className
  | interfacePath
  | aliasName
  deriving DecidableEq

inductive Symbol
  | terminal (t : Terminal)
  | nonterminal (n : Nonterminal)
  deriving DecidableEq

/-- The number of a nonterminal comes after those of the terminals. -/
def Nonterminal.number (n : Nonterminal) : Nat := Terminal.all.length + n.ctorIdx

def Nonterminal.count : Nat := Nonterminal.aliasName.ctorIdx + 1

def Symbol.number : Symbol → Nat
  | terminal t => t.number
  | nonterminal n => n.number

/-- A part of a rule: symbols that must stand there, or symbols that may be left out together. -/
inductive RulePart
  | must (s : Symbol)
  | may (s : List Symbol)

namespace RulePart

def token (t : Terminal) : RulePart := must (.terminal t)

def one (n : Nonterminal) : RulePart := must (.nonterminal n)

def maybe (n : Nonterminal) : RulePart := may [.nonterminal n]

def maybeToken (t : Terminal) : RulePart := may [.terminal t]

/-- The symbol sequences that a sequence of parts stands for. -/
def bodies : List RulePart → List (List Symbol)
  | [] => [[]]
  | must s :: rest => (bodies rest).map (s :: ·)
  | may ss :: rest => (bodies rest).map (ss ++ ·) ++ bodies rest

end RulePart

/-- The ways to write the nonterminals. -/
inductive Rule
  | root
  | file
  | declarations | declarationsMore
  | declaration
  | annotations
  | annotationTokens | annotationTokensMore
  | classBody | moduleBody | interfaceBody | aliasBody | constantBody | globalBody
  | classDeclaration
  | superclass
  | moduleDeclaration
  | selfTypes
  | moreSelfTypes | moreSelfTypesMore
  | classSelfType | interfaceSelfType
  | interfaceDeclaration
  | aliasDeclaration
  | constantDeclaration
  | globalDeclaration
  | members | membersMore
  | member
  | methodBody | attributeBody | mixinBody | variableBody | aliasMemberBody | visibilityBody
  | nestedClassBody | nestedModuleBody | nestedInterfaceBody | nestedAliasBody | nestedConstantBody
  | methodMember
  | singletonKind | moduleFunctionKind
  | lowerMethodName | upperMethodName | suffixedMethodName | operatorMethodName
  | methodTypes | onlyDots
  | moreMethodTypes | moreMethodTypesMore
  | methodType
  | attributeMember
  | classMixin | interfaceMixin
  | variableMember
  | aliasMember
  | visibilityMember
  | noParameters | oneParameter | manyParameters
  | moreParameters | moreParametersMore
  | required | optionalPositional | rest | keyword | optionalKeyword | restKeywords
  | block | optionalBlock
  | blockInner
  | selfBinding
  | typeParameters
  | moreTypeParameters | moreTypeParametersMore
  | typeParameter
  | typeArguments
  | moreTypes | moreTypesMore
  | type
  | plainUnion | union
  | plainIntersection | intersection
  | plainOptional | optional
  | classInstance | interfaceInstance | aliasUse | classSingleton | base | stringLiteral
  | symbolLiteral | integerLiteral | parenthesized | emptyTuple | tuple | record | proc
  | recordField | optionalRecordField
  | moreRecordFields | moreRecordFieldsMore
  | className | interfacePath | aliasName
  deriving DecidableEq

namespace Rule

open Terminal RulePart

def all : List Rule :=
  [root, file, declarations, declarationsMore, declaration, annotations, annotationTokens,
   annotationTokensMore, classBody, moduleBody, interfaceBody, aliasBody, constantBody, globalBody,
   classDeclaration, superclass, moduleDeclaration, selfTypes, moreSelfTypes, moreSelfTypesMore,
   classSelfType, interfaceSelfType, interfaceDeclaration, aliasDeclaration, constantDeclaration,
   globalDeclaration, members, membersMore, member, methodBody, attributeBody, mixinBody,
   variableBody, aliasMemberBody, visibilityBody, nestedClassBody, nestedModuleBody,
   nestedInterfaceBody, nestedAliasBody, nestedConstantBody, methodMember, singletonKind,
   moduleFunctionKind, lowerMethodName, upperMethodName, suffixedMethodName, operatorMethodName,
   methodTypes, onlyDots, moreMethodTypes, moreMethodTypesMore, methodType, attributeMember,
   classMixin, interfaceMixin, variableMember, aliasMember, visibilityMember, noParameters,
   oneParameter, manyParameters, moreParameters, moreParametersMore, required, optionalPositional,
   rest, keyword, optionalKeyword, restKeywords, block, optionalBlock, blockInner, selfBinding,
   typeParameters, moreTypeParameters, moreTypeParametersMore, typeParameter, typeArguments,
   moreTypes, moreTypesMore, type, plainUnion, union, plainIntersection, intersection,
   plainOptional, optional, classInstance, interfaceInstance, aliasUse, classSingleton, base,
   stringLiteral, symbolLiteral, integerLiteral, parenthesized, emptyTuple, tuple, record, proc,
   recordField, optionalRecordField, moreRecordFields, moreRecordFieldsMore, className,
   interfacePath, aliasName]

/-- The nonterminal that a rule writes, and the parts it is written with. -/
def shape : Rule → Nonterminal × List RulePart
  | root => (.root, [one .file])
  | file => (.file, [maybe .declarations])
  | declarations => (.declarations, [one .declaration])
  | declarationsMore => (.declarations, [one .declarations, one .declaration])
  | declaration => (.declaration, [one .annotations, one .declarationBody])
  | annotations => (.annotations, [maybe .annotationTokens])
  | annotationTokens => (.annotationTokens, [token annotation])
  | annotationTokensMore => (.annotationTokens, [one .annotationTokens, token annotation])
  | classBody => (.declarationBody, [one .classDeclaration])
  | moduleBody => (.declarationBody, [one .moduleDeclaration])
  | interfaceBody => (.declarationBody, [one .interfaceDeclaration])
  | aliasBody => (.declarationBody, [one .aliasDeclaration])
  | constantBody => (.declarationBody, [one .constantDeclaration])
  | globalBody => (.declarationBody, [one .globalDeclaration])
  | classDeclaration =>
    (.classDeclaration, [token classWord, one .className, maybe .typeParameters,
      maybe .superclass, maybe .members, token endWord])
  | superclass => (.superclass, [token less, one .className, maybe .typeArguments])
  | moduleDeclaration =>
    (.moduleDeclaration, [token moduleWord, one .className, maybe .typeParameters,
      maybe .selfTypes, maybe .members, token endWord])
  | selfTypes => (.selfTypes, [token colon, one .selfType, maybe .moreSelfTypes])
  | moreSelfTypes => (.moreSelfTypes, [token comma, one .selfType])
  | moreSelfTypesMore => (.moreSelfTypes, [one .moreSelfTypes, token comma, one .selfType])
  | classSelfType => (.selfType, [one .className, maybe .typeArguments])
  | interfaceSelfType => (.selfType, [one .interfacePath, maybe .typeArguments])
  | interfaceDeclaration =>
    (.interfaceDeclaration, [token interfaceWord, one .interfacePath, maybe .typeParameters,
      maybe .members, token endWord])
  | aliasDeclaration =>
    (.aliasDeclaration, [token typeWord, one .aliasName, maybe .typeParameters, token equals,
      one .type])
  | constantDeclaration => (.constantDeclaration, [one .className, token colon, one .type])
  | globalDeclaration => (.globalDeclaration, [token globalName, token colon, one .type])
  | members => (.members, [one .member])
  | membersMore => (.members, [one .members, one .member])
  | member => (.member, [one .annotations, one .memberBody])
  | methodBody => (.memberBody, [one .methodMember])
  | attributeBody => (.memberBody, [one .attributeMember])
  | mixinBody => (.memberBody, [one .mixinMember])
  | variableBody => (.memberBody, [one .variableMember])
  | aliasMemberBody => (.memberBody, [one .aliasMember])
  | visibilityBody => (.memberBody, [one .visibilityMember])
  | nestedClassBody => (.memberBody, [one .classDeclaration])
  | nestedModuleBody => (.memberBody, [one .moduleDeclaration])
  | nestedInterfaceBody => (.memberBody, [one .interfaceDeclaration])
  | nestedAliasBody => (.memberBody, [one .aliasDeclaration])
  | nestedConstantBody => (.memberBody, [one .constantDeclaration])
  | methodMember =>
    (.methodMember, [token defWord, maybe .methodKind, one .methodName, token colon,
      one .methodTypes])
  | singletonKind => (.methodKind, [token selfDot])
  | moduleFunctionKind => (.methodKind, [token selfOptionalDot])
  | lowerMethodName => (.methodName, [token lowerName])
  | upperMethodName => (.methodName, [token upperName])
  | suffixedMethodName => (.methodName, [token suffixedName])
  | operatorMethodName => (.methodName, [token operator])
  | methodTypes =>
    (.methodTypes, [one .methodType, maybe .moreMethodTypes,
      may [.terminal bar, .terminal dots]])
  | onlyDots => (.methodTypes, [token dots])
  | moreMethodTypes => (.moreMethodTypes, [token bar, one .methodType])
  | moreMethodTypesMore => (.moreMethodTypes, [one .moreMethodTypes, token bar, one .methodType])
  | methodType =>
    (.methodType, [maybe .typeParameters, maybe .parameterGroup, maybe .block, token arrow,
      one .optional])
  | attributeMember =>
    (.attributeMember, [token attributeWord, maybeToken selfDot, token label, one .type])
  | classMixin => (.mixinMember, [token mixinWord, one .className, maybe .typeArguments])
  | interfaceMixin => (.mixinMember, [token mixinWord, one .interfacePath, maybe .typeArguments])
  | variableMember => (.variableMember, [token instanceVariable, token colon, one .type])
  | aliasMember =>
    (.aliasMember, [token aliasWord, maybeToken selfDot, one .methodName, maybeToken selfDot,
      one .methodName])
  | visibilityMember => (.visibilityMember, [token visibilityWord])
  | noParameters => (.parameterGroup, [token leftParen, token rightParen])
  | oneParameter => (.parameterGroup, [token leftParen, one .parameter, token rightParen])
  | manyParameters =>
    (.parameterGroup, [token leftParen, one .parameter, one .moreParameters, token rightParen])
  | moreParameters => (.moreParameters, [token comma, one .parameter])
  | moreParametersMore => (.moreParameters, [one .moreParameters, token comma, one .parameter])
  | required => (.parameter, [one .type, maybeToken lowerName])
  | optionalPositional => (.parameter, [token question, one .type, maybeToken lowerName])
  | rest => (.parameter, [token star, one .type, maybeToken lowerName])
  | keyword => (.parameter, [token label, one .type, maybeToken lowerName])
  | optionalKeyword =>
    (.parameter, [token question, token label, one .type, maybeToken lowerName])
  | restKeywords => (.parameter, [token doubleStar, one .type, maybeToken lowerName])
  | block => (.block, [token leftBrace, one .blockInner, token rightBrace])
  | optionalBlock =>
    (.block, [token question, token leftBrace, one .blockInner, token rightBrace])
  | blockInner =>
    (.blockInner, [maybe .parameterGroup, maybe .selfBinding, token arrow, one .optional])
  | selfBinding =>
    (.selfBinding, [token leftBracket, token selfWord, token colon, one .type,
      token rightBracket])
  | typeParameters =>
    (.typeParameters, [token leftBracket, one .typeParameter, maybe .moreTypeParameters,
      token rightBracket])
  | moreTypeParameters => (.moreTypeParameters, [token comma, one .typeParameter])
  | moreTypeParametersMore =>
    (.moreTypeParameters, [one .moreTypeParameters, token comma, one .typeParameter])
  | typeParameter =>
    (.typeParameter, [maybeToken uncheckedWord, maybeToken varianceWord, token upperName,
      may [.terminal less, .nonterminal .type]])
  | typeArguments =>
    (.typeArguments, [token leftBracket, one .type, maybe .moreTypes, token rightBracket])
  | moreTypes => (.moreTypes, [token comma, one .type])
  | moreTypesMore => (.moreTypes, [one .moreTypes, token comma, one .type])
  | type => (.type, [one .union])
  | plainUnion => (.union, [one .intersection])
  | union => (.union, [one .union, token bar, one .intersection])
  | plainIntersection => (.intersection, [one .optional])
  | intersection => (.intersection, [one .intersection, token ampersand, one .optional])
  | plainOptional => (.optional, [one .simple])
  | optional => (.optional, [one .simple, token question])
  | classInstance => (.simple, [one .className, maybe .typeArguments])
  | interfaceInstance => (.simple, [one .interfacePath, maybe .typeArguments])
  | aliasUse => (.simple, [one .aliasName, maybe .typeArguments])
  | classSingleton =>
    (.simple, [token singletonWord, token leftParen, one .className, token rightParen])
  | base => (.simple, [token baseType])
  | stringLiteral => (.simple, [token string])
  | symbolLiteral => (.simple, [token symbol])
  | integerLiteral => (.simple, [token integer])
  | parenthesized => (.simple, [token leftParen, one .type, token rightParen])
  | emptyTuple => (.simple, [token leftBracket, token rightBracket])
  | tuple => (.simple, [token leftBracket, one .type, maybe .moreTypes, token rightBracket])
  | record =>
    (.simple, [token leftBrace, one .recordField, maybe .moreRecordFields, token rightBrace])
  | proc =>
    (.simple, [token caret, maybe .parameterGroup, maybe .selfBinding, maybe .block, token arrow,
      one .optional])
  | recordField => (.recordField, [token label, one .type])
  | optionalRecordField => (.recordField, [token question, token label, one .type])
  | moreRecordFields => (.moreRecordFields, [token comma, one .recordField])
  | moreRecordFieldsMore =>
    (.moreRecordFields, [one .moreRecordFields, token comma, one .recordField])
  | className => (.className, [maybeToken namespacePath, token upperName])
  | interfacePath => (.interfacePath, [maybeToken namespacePath, token interfaceName])
  | aliasName => (.aliasName, [maybeToken namespacePath, token lowerName])

end Rule

/-- One body of a rule. -/
structure Production where
  rule : Rule
  body : List Symbol
  deriving DecidableEq

def Production.head (p : Production) : Nonterminal := p.rule.shape.1

def productions : List Production :=
  Rule.all.flatMap fun r => (RulePart.bodies r.shape.2).map (⟨r, ·⟩)

/-- The grammar with its symbols numbered. -/
def grammar : Lr.Grammar where
  terminals := Terminal.all.length
  symbols := Terminal.all.length + Nonterminal.count
  endMark := Terminal.endOfText.number
  productions := productions.map fun p => ⟨p.head.number, p.body.map Symbol.number⟩

end RbsSynth.Signature
