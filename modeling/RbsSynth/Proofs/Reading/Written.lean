import RbsSynth.Proofs.Scanning.Tokens
import RbsSynth.Signature.Comments

/-!
# What can be written

A type, member or declaration fits if its names, literals and parts are such as a text can have.

    P holds of t and of every type inside it  ↔  t.All P
-/

namespace RbsSynth.Signature

open Terminal

/-! ## Names -/

/-- A name whose path consists of upper-case names and whose last part satisfies `last`. -/
def TypeName.Ends (last : List Char → Prop) (n : TypeName) : Prop :=
  (∀ s ∈ n.path, IsUpperName s.toList) ∧ last n.name.toList

def TypeName.IsClass (n : TypeName) : Prop := n.Ends IsUpperName

def TypeName.IsInterface (n : TypeName) : Prop := n.Ends IsInterfaceName

def TypeName.IsAlias (n : TypeName) : Prop := n.Ends IsLowerName

/-- The words that a type may start with. -/
def typeWords : List String := "singleton" :: baseTypeWords

/-- The words that a member may start with. -/
def memberWords : List String :=
  ["attr_reader", "attr_writer", "attr_accessor", "include", "extend", "prepend", "public", "private",
   "interface", "module", "alias", "class", "type", "def", "end"]

/-- The name of a parameter stands behind a type, where a member may start. -/
def IsParamName (s : String) : Prop := IsLowerName s.toList ∧ s ∉ memberWords

def IsMethodName (s : String) : Prop :=
  IsLowerName s.toList ∨ IsUpperName s.toList ∨ IsSuffixedName s.toList ∨ s ∈ operators

/-- A name behind a sign. -/
def IsSigned (sign : Char) (s : String) : Prop := ∃ y, s.toList = sign :: y ∧ IsName isNameStart y

def IsLiteral (x : List Char) : Prop :=
  IsString x ∨ IsBareSymbol x ∨ IsClosedSymbol x ∨ IsInteger x

/-! ## Types -/

def FunctionType.params (f : FunctionType) : List Param :=
  f.required ++ f.optional ++ f.rest.toList ++ f.trailing
    ++ (f.requiredKeywords ++ f.optionalKeywords).map (·.param) ++ f.restKeywords.toList

/-- The types of the parameters and the result. -/
def FunctionType.types (f : FunctionType) : List TypeExpr := f.params.map (·.type) ++ [f.returnType]

def Block.types (b : Block) : List TypeExpr := b.function.types ++ b.selfType.toList

/-- The types right inside a type. -/
def TypeExpr.parts : TypeExpr → List TypeExpr
  | .classInstance _ args => args
  | .classSingleton _ => []
  | .interfaceInstance _ args => args
  | .aliasUse _ args => args
  | .base _ => []
  | .literal _ => []
  | .optional t => [t]
  | .union ts => ts
  | .intersection ts => ts
  | .tuple ts => ts
  | .record fs => fs.map (·.type)
  | .proc f b s => f.types ++ b.toList.flatMap Block.types ++ s.toList

/-- Whether `P` holds of a type and of every type inside it. -/
inductive TypeExpr.All (P : TypeExpr → Prop) : TypeExpr → Prop
  | mk {t : TypeExpr} (h : P t) (hs : ∀ u ∈ t.parts, All P u) : All P t

theorem TypeExpr.All.and {P Q : TypeExpr → Prop} {t : TypeExpr} (h : t.All P) (h' : t.All Q) :
    t.All fun u => P u ∧ Q u := by
  induction h with
  | mk h _ ih =>
    cases h' with
    | mk h' hs' => exact .mk ⟨h, h'⟩ fun u hu => ih u hu (hs' u hu)

/-- The trailing parameters of a function stand behind an optional or a rest one. -/
def FunctionType.Fits (f : FunctionType) : Prop :=
  (∀ p ∈ f.params, ∀ s ∈ p.name, IsParamName s) ∧
    (∀ k ∈ f.requiredKeywords ++ f.optionalKeywords, IsKey k.key.toList) ∧
    (f.trailing ≠ [] → f.rest.isSome ∨ f.optional ≠ [])

def Block.Fits (b : Block) : Prop := b.function.Fits

/-- Whether the names and literals of a type can be written, and its shape was read. -/
def TypeExpr.Fits : TypeExpr → Prop
  | .classInstance n _ => n.IsClass
  | .classSingleton n => n.IsClass
  | .interfaceInstance n _ => n.IsInterface
  | .aliasUse n _ => n.IsAlias ∧ (n.path = [] → n.absolute = false → n.name ∉ typeWords)
  | .literal s => IsLiteral s.toList
  | .union ts => ∃ a b us, ts = a :: b :: us ∧ ∀ vs, a ≠ .union vs
  | .intersection ts => ∃ a b us, ts = a :: b :: us ∧ ∀ vs, a ≠ .intersection vs
  | .record fs => fs ≠ [] ∧ ∀ f ∈ fs, IsKey f.key.toList
  | .proc f b _ => f.Fits ∧ ∀ c ∈ b, c.Fits
  | .base _ | .optional _ | .tuple _ => True

/-- An optional applied to a plain symbol: its question mark would be read as a part of the symbol. -/
def TypeExpr.IsMarkedSymbol : TypeExpr → Prop
  | .optional (.literal s) => IsBareSymbol s.toList
  | _ => False

def TypeParam.types (p : TypeParam) : List TypeExpr := p.upperBound.toList

def TypeParam.Fits (p : TypeParam) : Prop := IsUpperName p.name.toList

def MethodType.types (m : MethodType) : List TypeExpr :=
  m.function.types ++ m.block.toList.flatMap Block.types ++ m.typeParams.flatMap TypeParam.types

def MethodType.Fits (m : MethodType) : Prop :=
  m.function.Fits ∧ (∀ b ∈ m.block, b.Fits) ∧ ∀ p ∈ m.typeParams, p.Fits

end RbsSynth.Signature
