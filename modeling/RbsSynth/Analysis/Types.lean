import RbsSynth.Environment.Methods

/-!
Types of values, as far as they are known.

A type written in a signature is resolved to what methods are looked up on: an instance of a class,
module or interface, a class object, or a union of these.  Every other type is unknown.  Aliases and
type arguments are followed down to a fixed depth, so types that lead back to themselves end there.
-/

namespace RbsSynth

open Signature

/-! ## Unions -/

/-- Puts a type behind others, unless it is among them. -/
def addType (found : List TypeExpr) (t : TypeExpr) : List TypeExpr :=
  if found.contains t then found else found ++ [t]

/-- Puts a type, or the members of a union, behind others. -/
def addMembers (found : List TypeExpr) : TypeExpr → List TypeExpr
  | .union ts => ts.foldl addType found
  | t => addType found t

/-- The union of types; it is unknown when one of them is, and when there are none. -/
def unionOf (ts : List (Option TypeExpr)) : Option TypeExpr :=
  if ts.all Option.isSome then
    match (ts.filterMap id).foldl addMembers [] with
    | [] => none
    | [t] => some t
    | ts => some (.union ts)
  else none

mutual

/-- The types of which a method is looked up on each, if all of them are known. -/
def receiverTypes? : TypeExpr → Option (List TypeExpr)
  | .union ts => memberTypes? [] ts
  | .classInstance n args => some [.classInstance n args]
  | .classSingleton n => some [.classSingleton n]
  | .interfaceInstance n args => some [.interfaceInstance n args]
  | _ => none
termination_by structural t => t

/-- The same for the members of a union, behind those found before. -/
def memberTypes? (found : List TypeExpr) : List TypeExpr → Option (List TypeExpr)
  | [] => some found
  | t :: ts => do
    let more ← receiverTypes? t
    memberTypes? (more.foldl addType found) ts
termination_by structural ts => ts

end

/-- The instance type of a class object; an instance stays what it is. -/
def instanceOf : TypeExpr → Option TypeExpr
  | .classSingleton n => some (.classInstance n [])
  | .classInstance n args => some (.classInstance n args)
  | .interfaceInstance n args => some (.interfaceInstance n args)
  | .union ts => unionOf (instancesOf ts)
  | _ => none
termination_by structural t => t
where
  instancesOf : List TypeExpr → List (Option TypeExpr)
    | [] => []
    | t :: ts => instanceOf t :: instancesOf ts
  termination_by structural ts => ts

/-- A name as it is declared. -/
def declaredName (qualified : String) : TypeName :=
  (TypeName.parse? qualified).getD ⟨qualified, [], false⟩

/-- What stands for an argument that is unknown. -/
def untyped : TypeExpr := .base .untyped

namespace Environment

variable (env : Environment)

def instanceNamed? (name : String) : Option TypeExpr :=
  if env.hasModule name then some (.classInstance (declaredName name) []) else none

mutual

/-- The class object of an instance; that of a class object is `Class` or `Module`. -/
def singletonOf : TypeExpr → Option TypeExpr
  | .classInstance n _ => some (.classSingleton n)
  | .classSingleton n =>
    env.instanceNamed? (if env.kindOf? n.qualified = some .ofModule then "Module" else "Class")
  | .union ts => unionOf (singletonsOf ts)
  | _ => none
termination_by structural t => t

def singletonsOf : List TypeExpr → List (Option TypeExpr)
  | [] => []
  | t :: ts => singletonOf t :: singletonsOf ts
termination_by structural ts => ts

end

/-! ## Types in signatures -/

/-- Where a written type stands: the names around it, what `self` is, and what the type variables
stand for. -/
structure Place where
  nesting : List String := []
  receiver : Option TypeExpr := none
  assigned : Index (Option TypeExpr) := []

/-- How far aliases and type arguments are followed. -/
def aliasDepth : Nat := 16

/-- The class that a literal belongs to. -/
def literalClass (text : String) : String :=
  match text.toList with
  | '\'' :: _ | '"' :: _ => "String"
  | ':' :: _ => "Symbol"
  | _ => "Integer"

/-- The type that a word means. -/
def resolveBase (place : Place) : BaseType → Option TypeExpr
  | .self => place.receiver
  | .instanceOf => place.receiver.bind instanceOf
  | .classOf => place.receiver.bind env.singletonOf
  | .nil => env.instanceNamed? "NilClass"
  | .true => env.instanceNamed? "TrueClass"
  | .false => env.instanceNamed? "FalseClass"
  | .bool => unionOf [env.instanceNamed? "TrueClass", env.instanceNamed? "FalseClass"]
  | _ => none

/-- The variable that a name is, if it is one. -/
def Place.variable_ (place : Place) (n : TypeName) : Option (Option TypeExpr) :=
  if n.path.isEmpty && !n.absolute then place.assigned.find? n.name else none

/-- The declared name behind a written one, if it has one of some kinds. -/
def resolveKind? (place : Place) (n : TypeName) (kinds : List ModuleKind) : Option TypeName :=
  match env.resolveConstant? n place.nesting with
  | none => none
  | some q => if (env.kindOf? q).any kinds.contains then some (declaredName q) else none

mutual

/-- Resolves a type; `deeper` resolves what is one level further down. -/
def resolveWith (place : Place) (deeper : TypeExpr → Option TypeExpr) :
    TypeExpr → Option TypeExpr
  | .base w => env.resolveBase place w
  | .classInstance n args =>
    match place.variable_ n with
    | some known => known
    | none => (env.resolveKind? place n [.ofClass, .ofModule]).map fun m =>
        .classInstance m (args.map fun a => (deeper a).getD untyped)
  | .interfaceInstance n args => (env.resolveKind? place n [.ofInterface]).map fun m =>
      .interfaceInstance m (args.map fun a => (deeper a).getD untyped)
  | .classSingleton n =>
    (env.resolveKind? place n [.ofClass, .ofModule, .ofInterface]).map .classSingleton
  | .aliasUse n _ => (env.resolveAlias? n place.nesting).bind fun d => deeper d.type
  | .optional t => resolveWith place deeper t
  | .union ts => unionOf (resolveEach place deeper ts)
  | .intersection ts => (resolveEach place deeper ts).findSome? id
  | .literal text => env.instanceNamed? (literalClass text)
  | .tuple _ => env.instanceNamed? "Array"
  | .record _ => env.instanceNamed? "Hash"
  | .proc _ _ _ => env.instanceNamed? "Proc"
termination_by structural t => t

def resolveEach (place : Place) (deeper : TypeExpr → Option TypeExpr) :
    List TypeExpr → List (Option TypeExpr)
  | [] => []
  | t :: ts => resolveWith place deeper t :: resolveEach place deeper ts
termination_by structural ts => ts

end

/-- Resolves a type with so many levels left. -/
def resolveWithin (place : Place) : Nat → TypeExpr → Option TypeExpr
  | 0, _ => none
  | n + 1, t => env.resolveWith place (resolveWithin place n) t

/-- Resolves a type that stands at some depth. -/
def resolveType (place : Place) (t : TypeExpr) (depth : Nat := 0) : Option TypeExpr :=
  env.resolveWithin place (aliasDepth + 1 - depth) t

/-! ## Types of methods -/

/-- What the type parameters of a method's owner stand for.  They are known when the receiver is of
the owner itself. -/
def substitution (e : MethodEntry) (receiver : Option TypeExpr) : Index (Option TypeExpr) :=
  let bind := fun (n : TypeName) (args : List TypeExpr) =>
    if n.qualified = e.owner then
      ((env.typeParamsOf e.owner).zip args).foldl (fun known (name, arg) =>
        Index.put name (match arg with | .base _ => none | t => some t) known) []
    else []
  match receiver with
  | some (.classInstance n args) => bind n args
  | some (.interfaceInstance n args) => bind n args
  | _ => []

/-- Where the types of a method stand when it is called on a receiver. -/
def placeOf (e : MethodEntry) (receiver : Option TypeExpr) : Place :=
  ⟨e.context, receiver, env.substitution e receiver⟩

def returnType (e : MethodEntry) (m : MethodType) (receiver : Option TypeExpr) :
    Option TypeExpr :=
  env.resolveType (env.placeOf e receiver) m.function.returnType

/-- The types that a method yields to its block, in order. -/
def blockParamTypes (e : MethodEntry) (m : MethodType) (receiver : Option TypeExpr) :
    List (Option TypeExpr) :=
  match m.block with
  | none => []
  | some b => (b.function.required ++ b.function.optional).map fun p =>
      env.resolveType (env.placeOf e receiver) p.type

/-- What `self` is inside of the block, if the method says so. -/
def blockSelfType (e : MethodEntry) (m : MethodType) (receiver : Option TypeExpr) :
    Option TypeExpr :=
  (m.block.bind (·.selfType)).bind (env.resolveType (env.placeOf e receiver) ·)

end Environment

end RbsSynth
