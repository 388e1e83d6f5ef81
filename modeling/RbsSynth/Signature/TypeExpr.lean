import RbsSynth.Signature.TypeName

/-!
Types, and the function types and blocks they are made of.

A function type keeps its parameters in seven slots.  Equality of types is decidable: `beq` compares
them part by part, and `beq_iff` says that it finds exactly the equal ones.
-/

namespace RbsSynth.Signature

/-- The types that are words of the language. -/
inductive BaseType
  | self | instanceOf | classOf | void | untyped | nil | top | bot | bool | boolish | true | false
  deriving DecidableEq

namespace BaseType

def word : BaseType → String
  | self => "self"
  | instanceOf => "instance"
  | classOf => "class"
  | void => "void"
  | untyped => "untyped"
  | nil => "nil"
  | top => "top"
  | bot => "bot"
  | bool => "bool"
  | boolish => "boolish"
  | true => "true"
  | false => "false"

def all : List BaseType :=
  [self, instanceOf, classOf, void, untyped, nil, top, bot, boolish, bool, true, false]

def ofWord? (w : String) : Option BaseType := all.find? (·.word == w)

end BaseType

mutual

inductive TypeExpr
  | classInstance (name : TypeName) (args : List TypeExpr)
  | classSingleton (name : TypeName)
  | interfaceInstance (name : TypeName) (args : List TypeExpr)
  | aliasUse (name : TypeName) (args : List TypeExpr)
  | base (word : BaseType)
  /-- A string, symbol or integer, as it was written. -/
  | literal (text : String)
  | optional (inner : TypeExpr)
  | union (members : List TypeExpr)
  | intersection (members : List TypeExpr)
  | tuple (items : List TypeExpr)
  | record (fields : List RecordField)
  | proc (function : FunctionType) (block : Option Block) (selfType : Option TypeExpr)

structure RecordField where
  key : String
  type : TypeExpr
  required : Bool

structure Param where
  type : TypeExpr
  name : Option String

structure KeywordParam where
  key : String
  param : Param

structure FunctionType where
  required : List Param
  optional : List Param
  rest : Option Param
  trailing : List Param
  requiredKeywords : List KeywordParam
  optionalKeywords : List KeywordParam
  restKeywords : Option Param
  returnType : TypeExpr

structure Block where
  function : FunctionType
  required : Bool
  selfType : Option TypeExpr

end

/-- A function type without parameters. -/
def FunctionType.returning (type : TypeExpr) : FunctionType :=
  ⟨[], [], none, [], [], [], none, type⟩

/-- Whether a call with so many positional arguments fits. -/
def FunctionType.acceptsPositional (f : FunctionType) (count : Nat) : Bool :=
  let least := f.required.length + f.trailing.length
  decide (least ≤ count) && (f.rest.isSome || decide (count ≤ least + f.optional.length))

/-! ## Equality -/

mutual

def TypeExpr.beq : TypeExpr → TypeExpr → Bool
  | .classInstance n as, .classInstance m bs => n == m && TypeExpr.beqList as bs
  | .classSingleton n, .classSingleton m => n == m
  | .interfaceInstance n as, .interfaceInstance m bs => n == m && TypeExpr.beqList as bs
  | .aliasUse n as, .aliasUse m bs => n == m && TypeExpr.beqList as bs
  | .base v, .base w => v == w
  | .literal s, .literal t => s == t
  | .optional a, .optional b => a.beq b
  | .union as, .union bs => TypeExpr.beqList as bs
  | .intersection as, .intersection bs => TypeExpr.beqList as bs
  | .tuple as, .tuple bs => TypeExpr.beqList as bs
  | .record fs, .record gs => RecordField.beqList fs gs
  | .proc f b s, .proc g c t => f.beq g && Block.beqOption b c && TypeExpr.beqOption s t
  | _, _ => false
  termination_by structural t => t

def TypeExpr.beqList : List TypeExpr → List TypeExpr → Bool
  | [], [] => true
  | a :: as, b :: bs => a.beq b && TypeExpr.beqList as bs
  | _, _ => false
  termination_by structural ts => ts

def TypeExpr.beqOption : Option TypeExpr → Option TypeExpr → Bool
  | none, none => true
  | some a, some b => a.beq b
  | _, _ => false
  termination_by structural t => t

def RecordField.beq : RecordField → RecordField → Bool
  | ⟨k, t, r⟩, ⟨l, u, s⟩ => k == l && t.beq u && r == s
  termination_by structural f => f

def RecordField.beqList : List RecordField → List RecordField → Bool
  | [], [] => true
  | a :: as, b :: bs => a.beq b && RecordField.beqList as bs
  | _, _ => false
  termination_by structural fs => fs

def Param.beq : Param → Param → Bool
  | ⟨t, n⟩, ⟨u, m⟩ => t.beq u && n == m
  termination_by structural p => p

def Param.beqList : List Param → List Param → Bool
  | [], [] => true
  | a :: as, b :: bs => a.beq b && Param.beqList as bs
  | _, _ => false
  termination_by structural ps => ps

def Param.beqOption : Option Param → Option Param → Bool
  | none, none => true
  | some a, some b => a.beq b
  | _, _ => false
  termination_by structural p => p

def KeywordParam.beq : KeywordParam → KeywordParam → Bool
  | ⟨k, p⟩, ⟨l, q⟩ => k == l && p.beq q
  termination_by structural p => p

def KeywordParam.beqList : List KeywordParam → List KeywordParam → Bool
  | [], [] => true
  | a :: as, b :: bs => a.beq b && KeywordParam.beqList as bs
  | _, _ => false
  termination_by structural ps => ps

def FunctionType.beq : FunctionType → FunctionType → Bool
  | ⟨a, b, c, d, e, f, g, h⟩, ⟨a', b', c', d', e', f', g', h'⟩ =>
    Param.beqList a a' && Param.beqList b b' && Param.beqOption c c' && Param.beqList d d' &&
    KeywordParam.beqList e e' && KeywordParam.beqList f f' && Param.beqOption g g' && h.beq h'
  termination_by structural f => f

def Block.beq : Block → Block → Bool
  | ⟨f, r, s⟩, ⟨g, q, t⟩ => f.beq g && r == q && TypeExpr.beqOption s t
  termination_by structural b => b

def Block.beqOption : Option Block → Option Block → Bool
  | none, none => true
  | some a, some b => a.beq b
  | _, _ => false
  termination_by structural b => b

end

mutual

theorem TypeExpr.beq_iff : (a b : TypeExpr) → (a.beq b = true ↔ a = b)
  | .classInstance n as, b => by cases b <;> simp [TypeExpr.beq, TypeExpr.beqList_iff as]
  | .classSingleton n, b => by cases b <;> simp [TypeExpr.beq]
  | .interfaceInstance n as, b => by cases b <;> simp [TypeExpr.beq, TypeExpr.beqList_iff as]
  | .aliasUse n as, b => by cases b <;> simp [TypeExpr.beq, TypeExpr.beqList_iff as]
  | .base v, b => by cases b <;> simp [TypeExpr.beq]
  | .literal s, b => by cases b <;> simp [TypeExpr.beq]
  | .optional a, b => by cases b <;> simp [TypeExpr.beq, TypeExpr.beq_iff a]
  | .union as, b => by cases b <;> simp [TypeExpr.beq, TypeExpr.beqList_iff as]
  | .intersection as, b => by cases b <;> simp [TypeExpr.beq, TypeExpr.beqList_iff as]
  | .tuple as, b => by cases b <;> simp [TypeExpr.beq, TypeExpr.beqList_iff as]
  | .record fs, b => by cases b <;> simp [TypeExpr.beq, RecordField.beqList_iff fs]
  | .proc f b s, c => by
    cases c <;>
      simp [TypeExpr.beq, FunctionType.beq_iff f, Block.beqOption_iff b, TypeExpr.beqOption_iff s, and_assoc]
  termination_by structural t => t

theorem TypeExpr.beqList_iff : (a b : List TypeExpr) → (TypeExpr.beqList a b = true ↔ a = b)
  | [], b => by cases b <;> simp [TypeExpr.beqList]
  | a :: as, b => by
    cases b <;> simp [TypeExpr.beqList, TypeExpr.beq_iff a, TypeExpr.beqList_iff as]
  termination_by structural ts => ts

theorem TypeExpr.beqOption_iff :
    (a b : Option TypeExpr) → (TypeExpr.beqOption a b = true ↔ a = b)
  | none, b => by cases b <;> simp [TypeExpr.beqOption]
  | some a, b => by cases b <;> simp [TypeExpr.beqOption, TypeExpr.beq_iff a]
  termination_by structural t => t

theorem RecordField.beq_iff : (a b : RecordField) → (a.beq b = true ↔ a = b)
  | ⟨k, t, r⟩, b => by cases b; simp [RecordField.beq, TypeExpr.beq_iff t, and_assoc]
  termination_by structural f => f

theorem RecordField.beqList_iff :
    (a b : List RecordField) → (RecordField.beqList a b = true ↔ a = b)
  | [], b => by cases b <;> simp [RecordField.beqList]
  | a :: as, b => by
    cases b <;> simp [RecordField.beqList, RecordField.beq_iff a, RecordField.beqList_iff as]
  termination_by structural fs => fs

theorem Param.beq_iff : (a b : Param) → (a.beq b = true ↔ a = b)
  | ⟨t, n⟩, b => by cases b; simp [Param.beq, TypeExpr.beq_iff t]
  termination_by structural p => p

theorem Param.beqList_iff : (a b : List Param) → (Param.beqList a b = true ↔ a = b)
  | [], b => by cases b <;> simp [Param.beqList]
  | a :: as, b => by cases b <;> simp [Param.beqList, Param.beq_iff a, Param.beqList_iff as]
  termination_by structural ps => ps

theorem Param.beqOption_iff : (a b : Option Param) → (Param.beqOption a b = true ↔ a = b)
  | none, b => by cases b <;> simp [Param.beqOption]
  | some a, b => by cases b <;> simp [Param.beqOption, Param.beq_iff a]
  termination_by structural p => p

theorem KeywordParam.beq_iff : (a b : KeywordParam) → (a.beq b = true ↔ a = b)
  | ⟨k, p⟩, b => by cases b; simp [KeywordParam.beq, Param.beq_iff p]
  termination_by structural p => p

theorem KeywordParam.beqList_iff :
    (a b : List KeywordParam) → (KeywordParam.beqList a b = true ↔ a = b)
  | [], b => by cases b <;> simp [KeywordParam.beqList]
  | a :: as, b => by
    cases b <;> simp [KeywordParam.beqList, KeywordParam.beq_iff a, KeywordParam.beqList_iff as]
  termination_by structural ps => ps

theorem FunctionType.beq_iff : (a b : FunctionType) → (a.beq b = true ↔ a = b)
  | ⟨a, b, c, d, e, f, g, h⟩, x => by
    cases x
    simp [FunctionType.beq, Param.beqList_iff a, Param.beqList_iff b, Param.beqOption_iff c,
      Param.beqList_iff d, KeywordParam.beqList_iff e, KeywordParam.beqList_iff f,
      Param.beqOption_iff g, TypeExpr.beq_iff h, and_assoc]
  termination_by structural f => f

theorem Block.beq_iff : (a b : Block) → (a.beq b = true ↔ a = b)
  | ⟨f, r, s⟩, b => by
    cases b
    simp [Block.beq, FunctionType.beq_iff f, TypeExpr.beqOption_iff s, and_assoc]
  termination_by structural b => b

theorem Block.beqOption_iff : (a b : Option Block) → (Block.beqOption a b = true ↔ a = b)
  | none, b => by cases b <;> simp [Block.beqOption]
  | some a, b => by cases b <;> simp [Block.beqOption, Block.beq_iff a]
  termination_by structural b => b

end

instance : DecidableEq TypeExpr := fun a b => decidable_of_iff _ (TypeExpr.beq_iff a b)

instance : DecidableEq RecordField := fun a b => decidable_of_iff _ (RecordField.beq_iff a b)

instance : DecidableEq Param := fun a b => decidable_of_iff _ (Param.beq_iff a b)

instance : DecidableEq KeywordParam := fun a b => decidable_of_iff _ (KeywordParam.beq_iff a b)

instance : DecidableEq FunctionType := fun a b => decidable_of_iff _ (FunctionType.beq_iff a b)

instance : DecidableEq Block := fun a b => decidable_of_iff _ (Block.beq_iff a b)

/-! ## Generic functions -/

inductive Variance
  | invariant | covariant | contravariant
  deriving DecidableEq

structure TypeParam where
  name : String
  variance : Variance := .invariant
  upperBound : Option TypeExpr := none
  unchecked : Bool := false
  deriving DecidableEq

structure MethodType where
  function : FunctionType
  block : Option Block := none
  typeParams : List TypeParam := []
  deriving DecidableEq

end RbsSynth.Signature
