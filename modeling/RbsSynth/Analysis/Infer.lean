import RbsSynth.Analysis.Tree
import RbsSynth.Analysis.Types

/-!
Types of Ruby expressions.

A call has the type that was found when it was resolved, a local variable that of its last
assignment.
-/

namespace RbsSynth.Analysis

open Signature

/-- The local variables and what is known of their types. -/
abbrev Scope := Index (Option TypeExpr)

/-- What does not change inside of a body. -/
structure Context where
  /-- The type of `self`. -/
  self : Option TypeExpr
  /-- The qualified names of the classes and modules around, innermost first. -/
  nesting : List String
  /-- In the body of a singleton class, where methods belong to the class itself. -/
  inSingleton : Bool := false

/-- What is known at a point of a program. -/
structure View where
  env : Environment
  source : List Char
  /-- The types of the calls so far, by number; the last first. -/
  types : List (Nat × Option TypeExpr)
  scope : Scope
  context : Context

/-- The class of what a literal gives. -/
def literalClasses : List (String × String) :=
  [("string", "String"), ("chained_string", "String"), ("heredoc_beginning", "String"),
   ("simple_symbol", "Symbol"), ("delimited_symbol", "Symbol"), ("hash_key_symbol", "Symbol"),
   ("integer", "Integer"), ("float", "Float"), ("nil", "NilClass"), ("true", "TrueClass"),
   ("false", "FalseClass"), ("array", "Array"), ("string_array", "Array"), ("symbol_array", "Array"),
   ("hash", "Hash"), ("regex", "Regexp"), ("range", "Range"), ("lambda", "Proc")]

/-- Whether a text is the name of a constant: a capital, then letters, digits and underscores. -/
def isConstant : List Char → Bool
  | c :: cs => c.isUpper && cs.all fun c => c.isAlphanum || c == '_'
  | [] => false

/-- Whether a text is a path of constants. -/
def isConstantPath (text : String) : Bool :=
  let cs := text.toList
  (Text.splitOn [':', ':'] (if [':', ':'].isPrefixOf cs then cs.drop 2 else cs)).all isConstant

/-- The names around a constant, innermost first. -/
def namesAround (qualified : String) : List String := (TypeName.nesting qualified).drop 1

/-- The type of a constant: a class object, or what the constant is declared as. -/
def View.constantType (v : View) (text : String) : Option TypeExpr := do
  if !isConstantPath text then none
  let q ← v.env.resolveConstant? (declaredName text) v.context.nesting
  if v.env.hasModule q then return .classSingleton (declaredName q)
  v.env.resolveType ⟨namesAround q, none, []⟩ (← v.env.constantType? q)

/-- The type recorded for a call. -/
def View.recorded (v : View) (id : Nat) : Option TypeExpr := (v.types.lookup id).join

mutual

def infer (v : View) (t : Tree) : Option TypeExpr :=
  match t with
  | ⟨id, kind, start, stop, _, _, _, _, children⟩ =>
    let text := between v.source start stop
    match literalClasses.lookup kind with
    | some name => v.env.instanceNamed? name
    | none =>
      match kind with
      | "self" => v.context.self
      | "identifier" =>
        match v.scope.find? text with
        | some known => known
        | none => v.recorded id
      | "constant" | "scope_resolution" => v.constantType text
      | "call" => v.recorded id
      | "parenthesized_statements" => (inferLast v children).getD (v.env.instanceNamed? "NilClass")
      | "assignment" => inferRight v children
      | "global_variable" => (v.env.globalType? text).bind (v.env.resolveType {} ·)
      | _ => none
termination_by structural t

/-- The type of the last statement, if there is one. -/
def inferLast (v : View) (ts : List Tree) : Option (Option TypeExpr) :=
  match ts with
  | [] => none
  | t :: ts => (inferLast v ts).or (if t.isCode then some (infer v t) else none)
termination_by structural ts

/-- The type of the right side. -/
def inferRight (v : View) (ts : List Tree) : Option TypeExpr :=
  match ts with
  | [] => none
  | t :: ts => if t.field = "right" then infer v t else inferRight v ts
termination_by structural ts

end

end RbsSynth.Analysis
