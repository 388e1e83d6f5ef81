import RbsSynth.Text.Quoted
import RbsSynth.Text.Shortest
import RbsSynth.Text.Split

/-!
Values of templates.

A value that is missing can be passed on; what fails is its use.
-/

namespace RbsSynth.Template

/-! ## Errors -/

inductive RenderError
  /-- The template is not well formed. -/
  | malformed
  /-- A filter or test that does not exist. -/
  | unknownName
  /-- The same, met only when the template was running. -/
  | unknownAtUse
  /-- A value was used that is missing, and why it is. -/
  | missing (why : String)
  /-- A value was used that must not be read. -/
  | hidden
  | type | key | value | zeroDivision | overflow | attribute
deriving DecidableEq, Repr

/-- How a value is missing. -/
inductive Missing
  | undefined (why : String)
  /-- What a condition left out: it prints as nothing. -/
  | skipped (why : String)
  | hidden
deriving DecidableEq, Repr

def Missing.error : Missing → RenderError
  | .undefined why => .missing why
  | .skipped why => .missing why
  | .hidden => .hidden

/-! ## Values -/

/-- What can be called on a text. -/
inductive TextMethod
  | capitalize | upper | lower | swapCase | replace | startsWith | endsWith | strip | split
deriving DecidableEq, Repr

/-- A value.  A bound text is one that was given to the template, or an inflection of one. -/
inductive Value
  | nothing
  | bool (b : Bool)
  | int (n : Int)
  | real (x : Float)
  | text (s : String)
  | bound (s : String)
  | list (vs : List Value)
  | tuple (vs : List Value)
  | record (fields : List (String × Value))
  | method (s : String) (m : TextMethod)
  /-- The state of a loop: the place of its item from zero on, and the number of items. -/
  | loop (index length : Nat)
  | missing (m : Missing)
deriving Repr

/-- The kind of a value, as messages name it. -/
def Value.kind : Value → String
  | .nothing => "None"
  | .bool _ => "bool object"
  | .int _ => "int object"
  | .real _ => "float object"
  | .text _ => "str object"
  | .bound _ => "siggen.generation.expander.TemplateText object"
  | .list _ => "list object"
  | .tuple _ => "tuple object"
  | .record _ => "siggen.generation.expander._Namespace object"
  | .method _ _ => "builtin_function_or_method object"
  | .loop _ _ => "jinja2.runtime.LoopContext object"
  | .missing _ => "Undefined object"

/-! ## Text of values -/

def boolText (b : Bool) : String := if b then "True" else "False"

mutual

/-- A value as it stands inside of others. -/
def Value.literal : Value → String
  | .nothing => "None"
  | .bool b => boolText b
  | .int n => toString n
  | .real x => Text.floatText x
  | .text s => Text.quoted s
  | .bound s => Text.quoted s
  | .list vs => "[" ++ Text.join ", " (literals vs) ++ "]"
  | .tuple [v] => "(" ++ v.literal ++ ",)"
  | .tuple vs => "(" ++ Text.join ", " (literals vs) ++ ")"
  | .record fields => "_Namespace(\x7b" ++ Text.join ", " (fieldLiterals fields) ++ "\x7d)"
  | .method _ _ => "<built-in method>"
  | .loop index length => "<LoopContext " ++ toString (index + 1) ++ "/" ++ toString length ++ ">"
  | .missing _ => "Undefined"
termination_by structural v => v

def literals : List Value → List String
  | [] => []
  | v :: vs => v.literal :: literals vs
termination_by structural vs => vs

def fieldLiterals : List (String × Value) → List String
  | [] => []
  | (k, v) :: fields => (Text.quoted k ++ ": " ++ v.literal) :: fieldLiterals fields
termination_by structural fields => fields

end

/-- A value as it is printed. -/
def Value.display : Value → Except RenderError String
  | .text s => .ok s
  | .bound s => .ok s
  | .missing (.skipped _) => .ok ""
  | .missing m => .error m.error
  | v => .ok v.literal

def displayAll : List Value → Except RenderError (List String)
  | [] => .ok []
  | v :: vs => do return (← v.display) :: (← displayAll vs)

/-- Whether a condition holds with a value. -/
def Value.truth : Value → Except RenderError Bool
  | .nothing => .ok false
  | .bool b => .ok b
  | .int n => .ok (n != 0)
  | .real x => .ok (x != 0)
  | .text s => .ok (s != "")
  | .bound s => .ok (s != "")
  | .list vs => .ok !vs.isEmpty
  | .tuple vs => .ok !vs.isEmpty
  | .missing (.skipped _) => .ok false
  | .missing m => .error m.error
  | .record _ | .method _ _ | .loop _ _ => .ok true

/-- What a loop over a value goes through. -/
def Value.items : Value → Except RenderError (List Value)
  | .text s => .ok (s.toList.map fun c => .text (.singleton c))
  | .bound s => .ok (s.toList.map fun c => .text (.singleton c))
  | .list vs => .ok vs
  | .tuple vs => .ok vs
  | .record _ => .error .key
  | .missing (.skipped _) => .ok []
  | .missing m => .error m.error
  | _ => .error .type

/-- The text of a value that is one. -/
def Value.text? : Value → Option String
  | .text s => some s
  | .bound s => some s
  | _ => none

/-- The whole number that a value counts as. -/
def Value.int? : Value → Option Int
  | .int n => some n
  | .bool b => some (if b then 1 else 0)
  | _ => none

end RbsSynth.Template
