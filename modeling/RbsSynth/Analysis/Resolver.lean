import RbsSynth.Analysis.Calls
import RbsSynth.Analysis.Infer
import RbsSynth.Program.Node

/-!
The walk through a Ruby program that turns its tree into program nodes and resolves its calls.

Nodes are visited in the order of the text.  The bodies of classes, modules and methods have local
variables of their own; those of blocks and lambdas start with the variables around them, and what
they assign is forgotten behind them.

Each function here is given `visit`, which visits nodes further down; `visitNode` ties them together
and `visitWithin` bounds how far down the walk goes.
-/

namespace RbsSynth.Analysis

open Signature

/-- What the walk reads and never changes. -/
structure Program where
  env : Environment
  source : List Char

/-- What the walk has found so far. -/
structure Findings where
  scope : Scope := []
  /-- The types of the calls so far, by number; the last first. -/
  types : List (Nat × Option TypeExpr) := []
  typing : Typing := []

abbrev Walk := StateT Findings (Except ResolutionError)

/-- How nodes further down are visited. -/
abbrev Visit := Context → Tree → Walk ProgramNode

namespace Walk

def declare (name : String) (type : Option TypeExpr) : Walk Unit :=
  modify fun f => { f with scope := f.scope.put name type }

def declareAll (names : List String) : Walk Unit := names.forM (declare · none)

/-- Records the type of a node. -/
def recordType (id : Nat) (type : Option TypeExpr) : Walk Unit :=
  modify fun f => { f with types := (id, type) :: f.types }

/-- Walks with other variables, and gives those that are known at the end besides. -/
def within {α : Type} (scope : Scope) (act : Walk α) : Walk (α × Scope) := fun f => do
  let (a, g) ← act { f with scope := scope }
  return ((a, g.scope), { g with scope := f.scope })

end Walk

namespace Program

variable (p : Program)

def text (t : Tree) : String := t.text p.source

/-- The type of an expression that has been visited. -/
def typeOf (ctx : Context) (t : Tree) : Walk (Option TypeExpr) := do
  let f ← get
  return infer ⟨p.env, p.source, f.types, f.scope, ctx⟩ t

/-! ## Plain nodes -/

def leaf (t : Tree) : ProgramNode := .other t.id t.kind (t.value p.source) []

/-- A node with its children; it has a value when it is a literal or has nothing inside. -/
def other (t : Tree) (children : List ProgramNode) : ProgramNode :=
  .other t.id t.kind
    (if t.isLiteral || t.namedChildren.isEmpty then t.value p.source else "") children

def visitAll (visit : Visit) (ctx : Context) : List Tree → Walk (List ProgramNode)
  | [] => pure []
  | t :: ts => do
    let n ← visit ctx t
    return n :: (← visitAll visit ctx ts)

def visitOther (visit : Visit) (ctx : Context) (t : Tree) : Walk ProgramNode :=
  return p.other t (← visitAll visit ctx t.parts)

/-- Visits the parts of a body.  Those that `outside` knows are visited with the variables around, the
others with the body's own. -/
def visitBody (inside : Tree → Walk ProgramNode) (outside : Tree → Option (Walk ProgramNode)) :
    Scope → List Tree → Walk (List ProgramNode)
  | _, [] => pure []
  | scope, t :: ts =>
    match outside t with
    | some act => do
      let n ← act
      return n :: (← visitBody inside outside scope ts)
    | none => do
      let (n, scope) ← Walk.within scope (inside t)
      return n :: (← visitBody inside outside scope ts)

/-! ## Calls -/

/-- Records what a call is resolved to. -/
def resolve (id : Nat) (method : String) (receiver : Option TypeExpr) (args : Arguments) :
    Walk (List Match) := do
  let (r, ms) ← resolveCall p.env method receiver args
  modify fun f => { f with typing := f.typing.record id r }
  Walk.recordType id (resultType p.env method ms)
  return ms

/-- A name by itself is a local variable, or a call without arguments. -/
def visitIdentifier (ctx : Context) (t : Tree) : Walk ProgramNode := do
  let name := p.text t
  if (← get).scope.has name then return p.leaf t
  let _ ← p.resolve t.id name ctx.self {}
  return .call ⟨t.id, name, none, [], [], none, name⟩

/-- The variables that a block starts with: those around it, and its parameters. -/
def blockScope (b : Tree) (types : List (Option TypeExpr)) (scope : Scope) : Scope :=
  match b.blockParameters? with
  | none => scope
  | some ps =>
    let scope := (ps.identifiers p.source).foldl (fun s n => s.put n none) scope
    ((ps.parameterNames p.source).zipIdx).foldl (fun s (name, i) =>
      match name with
      | none => s
      | some n => s.put n (types[i]?.join)) scope

/-- Visits the body of a call's block.  The first match tells what the block is given and, if the
method says so, what `self` is inside. -/
def visitBlock (visit : Visit) (ctx : Context) (b : Tree) (ms : List Match) : Walk CallBlock := do
  let types := match ms with
    | m :: _ => p.env.blockParamTypes m.entry m.overload (some m.member)
    | [] => []
  let self := match ms with
    | m :: _ => (p.env.blockSelfType m.entry m.overload (some m.member)).or ctx.self
    | [] => ctx.self
  let names := match b.blockParameters? with
    | some ps => (ps.parameterNames p.source).filterMap id
    | none => []
  let (body, _) ← Walk.within (p.blockScope b types (← get).scope)
    (visitAll visit { ctx with self := self } b.body)
  return ⟨names, body⟩

/-- Visits the receiver of a call, if it has one, and tells the type that the method is looked up on. -/
def visitReceiver (visit : Visit) (ctx : Context) (t : Tree) :
    Walk (Option ProgramNode × Option TypeExpr) :=
  match t.child? "receiver" with
  | none => pure (none, ctx.self)
  | some r => do
    let n ← visit ctx r
    return (some n, ← p.typeOf ctx r)

/-- Visits the block of a call, if it has one. -/
def visitBlock? (visit : Visit) (ctx : Context) (t : Tree) (ms : List Match) :
    Walk (Option CallBlock) :=
  match t.block? with
  | none => pure none
  | some b => some <$> p.visitBlock visit ctx b ms

/-- Visits a call; what is assigned to it is its last argument. -/
def visitCall (visit : Visit) (ctx : Context) (t : Tree) (assigned : Option Tree) :
    Walk ProgramNode := do
  let name := ((t.child? "method").map p.text).getD "call"
  let method := if assigned.isSome then name ++ "=" else name
  let (receiver, type) ← p.visitReceiver visit ctx t
  let args := t.arguments ++ assigned.toList
  let arguments ← visitAll visit ctx args
  let positional := args.filter Tree.isPositional
  let ms ← p.resolve t.id method type
    ⟨positional.length, args.any Tree.isSplat, args.any (·.kind == "pair")⟩
  let block ← p.visitBlock? visit ctx t ms
  return .call ⟨t.id, method, receiver, arguments, positional.map (·.value p.source), block,
    p.text t⟩

/-! ## Assignments -/

def visitAssignment (visit : Visit) (ctx : Context) (t : Tree) : Walk ProgramNode :=
  match t.child? "left", t.child? "right" with
  | some left, some right =>
    if left.kind = "call" then do
      return p.other t [← p.visitCall visit ctx left (some right)]
    else if left.kind = "identifier" then do
      let value ← visit ctx right
      Walk.declare (p.text left) (← p.typeOf ctx right)
      return p.other t [p.leaf left, value]
    else do
      let value ← visit ctx right
      if left.kind = "left_assignment_list" ∨ left.kind = "destructured_left_assignment" then
        Walk.declareAll (left.identifiers p.source)
        return p.other t [p.leaf left, value]
      else return p.other t [← visit ctx left, value]
  | _, _ => p.visitOther visit ctx t

/-- An assignment such as `||=` tells the type of a variable of which none is known. -/
def visitOperatorAssignment (visit : Visit) (ctx : Context) (t : Tree) : Walk ProgramNode :=
  match t.child? "left", t.child? "right" with
  | some left, some right =>
    if left.kind = "identifier" then do
      let value ← visit ctx right
      let name := p.text left
      if ((← get).scope.find? name).join.isNone then
        Walk.declare name (← p.typeOf ctx right)
      return p.other t [p.leaf left, value]
    else p.visitOther visit ctx t
  | _, _ => p.visitOther visit ctx t

/-! ## Definitions -/

/-- The qualified name of a class or module. -/
def qualifiedName (ctx : Context) (name : String) : String :=
  match name.toList, ctx.nesting with
  | ':' :: ':' :: cs, _ => .ofList cs
  | _, outer :: _ => outer ++ "::" ++ name
  | _, [] => name

/-- A class or module; its superclass belongs to what is around it. -/
def visitModule (visit : Visit) (ctx : Context) (t : Tree) : Walk ProgramNode :=
  match t.child? "name" with
  | none => p.visitOther visit ctx t
  | some name => do
    let qualified := qualifiedName ctx (p.text name)
    let inner : Context :=
      ⟨some (.classSingleton (declaredName qualified)), qualified :: ctx.nesting, false⟩
    let outside := fun c : Tree =>
      if c.id = name.id then some (pure (p.leaf c))
      else if c.kind = "superclass" then some (visit ctx c)
      else none
    return p.other t (← visitBody (visit inner) outside [] t.parts)

def visitSingletonClass (visit : Visit) (ctx : Context) (t : Tree) : Walk ProgramNode := do
  let value := t.child? "value"
  let self ← match value with
    | some v => p.typeOf ctx v
    | none => pure none
  let outside := fun c : Tree =>
    if value.any (·.id = c.id) then some (visit ctx c) else none
  return p.other t (← visitBody (visit ⟨self, ctx.nesting, true⟩) outside [] t.parts)

/-- Declares the parameters of a method; the values some of them have by default are visited. -/
def visitParameters (visit : Visit) (ctx : Context) (t : Tree) : Walk ProgramNode := do
  let one := fun c : Tree => do
    match c.parameterName? p.source with
    | some name => Walk.declare name none
    | none => pure ()
    if c.kind = "destructured_parameter" then Walk.declareAll (c.identifiers p.source)
    match c.child? "value" with
    | some v => return p.other c [← visit ctx v]
    | none => return p.leaf c
  return p.other t (← t.parts.mapM one)

/-- The parts of a method, but for one that was visited before. -/
def methodParts (visit : Visit) (inner : Context) (t : Tree) (skip : Option Nat) :
    Walk (List ProgramNode) :=
  let name := t.child? "name"
  let inside := fun c : Tree =>
    if c.kind = "method_parameters" then p.visitParameters visit inner c else visit inner c
  let outside := fun c : Tree =>
    if name.any (·.id = c.id) then some (pure (p.leaf c)) else none
  visitBody inside outside [] (t.parts.filter fun c => skip != some c.id)

def visitMethod (visit : Visit) (ctx : Context) (t : Tree) : Walk ProgramNode := do
  let self := if ctx.inSingleton then ctx.self else ctx.self.bind instanceOf
  return p.other t (← p.methodParts visit ⟨self, ctx.nesting, false⟩ t none)

def visitSingletonMethod (visit : Visit) (ctx : Context) (t : Tree) : Walk ProgramNode :=
  match t.child? "object" with
  | none => do return p.other t (← p.methodParts visit ⟨none, ctx.nesting, false⟩ t none)
  | some target => do
    let n ← visit ctx target
    let self ← p.typeOf ctx target
    return p.other t (n :: (← p.methodParts visit ⟨self, ctx.nesting, false⟩ t (some target.id)))

def visitLambda (visit : Visit) (ctx : Context) (t : Tree) : Walk ProgramNode := do
  let parameters := t.child? "parameters"
  let names := parameters.elim [] (·.identifiers p.source)
  let scope := names.foldl (fun s n => s.put n none) (← get).scope
  let inside := fun c : Tree =>
    if c.isBlock then do return p.other c (← visitAll visit ctx c.body) else visit ctx c
  let outside := fun c : Tree =>
    if parameters.any (·.id = c.id) then some (pure (p.leaf c)) else none
  let parts ← visitBody inside outside scope t.parts
  Walk.recordType t.id (p.env.instanceNamed? "Proc")
  return p.other t parts

/-! ## The walk -/

def visitNode (visit : Visit) : Visit := fun ctx t =>
  match t.kind with
  | "class" | "module" => p.visitModule visit ctx t
  | "singleton_class" => p.visitSingletonClass visit ctx t
  | "method" => p.visitMethod visit ctx t
  | "singleton_method" => p.visitSingletonMethod visit ctx t
  | "identifier" => p.visitIdentifier ctx t
  | "assignment" => p.visitAssignment visit ctx t
  | "operator_assignment" => p.visitOperatorAssignment visit ctx t
  | "call" => p.visitCall visit ctx t none
  | "lambda" => p.visitLambda visit ctx t
  | _ => p.visitOther visit ctx t

/-- Visits a node and so many levels under it. -/
def visitWithin : Nat → Visit
  | 0 => fun _ t => pure (p.leaf t)
  | n + 1 => p.visitNode (visitWithin n)

/-- The nodes of a program, and what is known of its calls. -/
def resolveTree (t : Tree) : Except ResolutionError (ProgramNode × Typing) := do
  let ctx : Context := ⟨p.env.instanceNamed? "Object", [], false⟩
  let (n, f) ← (p.visitWithin t.height ctx t).run {}
  return (n, f.typing)

end Program

end RbsSynth.Analysis
