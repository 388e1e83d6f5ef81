import RbsSynth.Environment.Registration

/-!
Names and what they stand for.

A name that is not absolute is tried behind each enclosing name, innermost first, and then by
itself; the first that is declared is meant.
-/

namespace RbsSynth

open Signature

/-- The qualified names that a written name may stand for, in order. -/
def candidates (n : TypeName) (nesting : List String) : List String :=
  if n.absolute then [n.qualified]
  else nesting.map (· ++ "::" ++ n.qualified) ++ [n.qualified]

namespace Environment

variable (env : Environment)

def entry? (name : String) : Option ModuleEntry := env.modules.find? name

def hasModule (name : String) : Bool := env.modules.has name

def declaredAs (name : String) : List Nestable :=
  match env.entry? name with
  | none => []
  | some e => e.declarations

def typeParamsOf (name : String) : List String :=
  match env.entry? name with
  | none => []
  | some e => e.typeParams

/-- The class, module, interface or constant that a name stands for. -/
def resolveConstant? (n : TypeName) (nesting : List String := []) : Option String :=
  (candidates n nesting).find? fun c => env.modules.has c || env.constants.has c

def resolveAlias? (n : TypeName) (nesting : List String := []) : Option AliasDecl :=
  (candidates n nesting).findSome? fun c => env.aliases.find? c

def constantType? (name : String) : Option TypeExpr := (env.constants.find? name).map (·.type)

def globalType? (name : String) : Option TypeExpr := (env.globals.find? name).map (·.type)

/-- The superclass of a class.  Without a written one it is `Object`, and that of `Object` is
`BasicObject`, where these are declared. -/
def superclassOf? (name : String) : Option String :=
  match env.entry? name with
  | none => none
  | some e =>
    if e.kind ≠ .ofClass || name == "BasicObject" then none
    else match e.superclass? with
      | some written => env.resolveConstant? written e.context.tail
      | none =>
        let root := if name == "Object" then "BasicObject" else "Object"
        if env.hasModule root then some root else none

/-- Whether `ancestor` is met on the way up from `current`, before a name in `seen` comes again.
Every step but the last adds a declared name to `seen`, which bounds their number. -/
def reaches (ancestor : String) : Nat → List String → String → Bool
  | 0, _, _ => false
  | n + 1, seen, current =>
    if seen.contains current then false
    else if current == ancestor then true
    else match env.superclassOf? current with
      | none => false
      | some next => reaches ancestor n (current :: seen) next

def isSubclass (name ancestor : String) : Bool :=
  env.reaches ancestor (env.modules.length + 2) [] name

end Environment

end RbsSynth
