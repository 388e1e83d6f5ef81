import RbsSynth.Signature.TypeExpr

/-!
The text of types.

An operand is put in parentheses where the grammar reads a tighter form: `optionalOperand`,
`unionOperand`, `intersectionOperand` and `returned` say for which types that is.
-/

namespace RbsSynth.Signature

def inParens (s : String) : String := "(" ++ s ++ ")"

namespace TypeExpr

/-- Types that need parentheses before a `?`. -/
def looseBeforeOptional : TypeExpr → Bool
  | union _ | intersection _ | proc .. | optional _ => true
  | _ => false

/-- Types that need parentheses in a union. -/
def looseInUnion : TypeExpr → Bool
  | union _ | proc .. => true
  | _ => false

/-- Types that need parentheses in an intersection. -/
def looseInIntersection : TypeExpr → Bool
  | union _ | intersection _ | proc .. => true
  | _ => false

/-- Types that need parentheses behind an arrow. -/
def looseInReturn : TypeExpr → Bool
  | union _ | intersection _ => true
  | _ => false

end TypeExpr

/-- Bracketed arguments, or nothing. -/
def bracketed : List String → String
  | [] => ""
  | args => "[" ++ Text.join ", " args ++ "]"

mutual

def TypeExpr.render : TypeExpr → String
  | .classInstance n args => n.render ++ bracketed (TypeExpr.renderList args)
  | .classSingleton n => "singleton(" ++ n.render ++ ")"
  | .interfaceInstance n args => n.render ++ bracketed (TypeExpr.renderList args)
  | .aliasUse n args => n.render ++ bracketed (TypeExpr.renderList args)
  | .base w => w.word
  | .literal text => text
  | .optional t => (if t.looseBeforeOptional then inParens t.render else t.render) ++ "?"
  | .union ts => Text.join " | " (TypeExpr.renderOperands TypeExpr.looseInUnion ts)
  | .intersection ts => Text.join " & " (TypeExpr.renderOperands TypeExpr.looseInIntersection ts)
  | .tuple [] => "[ ]"
  | .tuple ts => "[" ++ Text.join ", " (TypeExpr.renderList ts) ++ "]"
  | .record fs => "\x7b " ++ Text.join ", " (RecordField.renderList fs) ++ " \x7d"
  | .proc f b s =>
    "^(" ++ f.renderParams ++ ")" ++ TypeExpr.renderBinding s ++ Block.renderBehind b ++ " -> "
      ++ f.renderReturn
  termination_by structural t => t

def TypeExpr.renderList : List TypeExpr → List String
  | [] => []
  | t :: ts => t.render :: TypeExpr.renderList ts
  termination_by structural ts => ts

/-- The texts of the operands, those that `loose` names in parentheses. -/
def TypeExpr.renderOperands (loose : TypeExpr → Bool) : List TypeExpr → List String
  | [] => []
  | t :: ts =>
    (if loose t then inParens t.render else t.render) :: TypeExpr.renderOperands loose ts
  termination_by structural ts => ts

/-- The type that a block or proc gives to `self`. -/
def TypeExpr.renderBinding : Option TypeExpr → String
  | none => ""
  | some t => " [self: " ++ t.render ++ "]"
  termination_by structural t => t

def RecordField.render : RecordField → String
  | ⟨key, type, required⟩ => (if required then "" else "?") ++ key ++ ": " ++ type.render
  termination_by structural f => f

def RecordField.renderList : List RecordField → List String
  | [] => []
  | f :: fs => f.render :: RecordField.renderList fs
  termination_by structural fs => fs

def Param.render : Param → String
  | ⟨type, none⟩ => type.render
  | ⟨type, some name⟩ => if name.isEmpty then type.render else type.render ++ " " ++ name
  termination_by structural p => p

/-- The texts of parameters, each behind the sign of its slot. -/
def Param.renderList (sign : String) : List Param → List String
  | [] => []
  | p :: ps => (sign ++ p.render) :: Param.renderList sign ps
  termination_by structural ps => ps

def Param.renderOption (sign : String) : Option Param → List String
  | none => []
  | some p => [sign ++ p.render]
  termination_by structural p => p

def KeywordParam.render (sign : String) : KeywordParam → String
  | ⟨key, param⟩ => sign ++ key ++ ": " ++ param.render
  termination_by structural p => p

def KeywordParam.renderList (sign : String) : List KeywordParam → List String
  | [] => []
  | p :: ps => p.render sign :: KeywordParam.renderList sign ps
  termination_by structural ps => ps

/-- The parameters, slot after slot. -/
def FunctionType.renderParams : FunctionType → String
  | ⟨required, optional, rest, trailing, keywords, optionalKeywords, restKeywords, _⟩ =>
    Text.join ", "
      (Param.renderList "" required ++ Param.renderList "?" optional ++ Param.renderOption "*" rest
        ++ Param.renderList "" trailing ++ KeywordParam.renderList "" keywords
        ++ KeywordParam.renderList "?" optionalKeywords ++ Param.renderOption "**" restKeywords)
  termination_by structural f => f

def FunctionType.renderReturn : FunctionType → String
  | ⟨_, _, _, _, _, _, _, type⟩ =>
    if type.looseInReturn then inParens type.render else type.render
  termination_by structural f => f

def Block.render : Block → String
  | ⟨function, required, selfType⟩ =>
    (if required then "" else "?") ++ "\x7b (" ++ function.renderParams ++ ")"
      ++ TypeExpr.renderBinding selfType ++ " -> " ++ function.renderReturn ++ " \x7d"
  termination_by structural b => b

def Block.renderBehind : Option Block → String
  | none => ""
  | some b => " " ++ b.render
  termination_by structural b => b

end

@[simp] theorem TypeExpr.render_base (w : BaseType) : (TypeExpr.base w).render = w.word := by
  rw [TypeExpr.render]

def TypeParam.render (p : TypeParam) : String :=
  let words := (if p.unchecked then ["unchecked"] else []) ++
    (match p.variance with
      | .invariant => []
      | .covariant => ["out"]
      | .contravariant => ["in"]) ++ [p.name]
  Text.join " " words ++
    match p.upperBound with
    | none => ""
    | some t => " < " ++ t.render

def renderTypeParams (ps : List TypeParam) : String := bracketed (ps.map TypeParam.render)

def MethodType.render (m : MethodType) : String :=
  (if m.typeParams.isEmpty then "" else renderTypeParams m.typeParams ++ " ") ++ "("
    ++ m.function.renderParams ++ ")" ++ Block.renderBehind m.block ++ " -> "
    ++ m.function.renderReturn

end RbsSynth.Signature
