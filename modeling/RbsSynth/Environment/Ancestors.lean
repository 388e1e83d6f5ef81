import RbsSynth.Environment.Names

/-!
The order in which methods are looked up.

On the instance side a module comes after what is prepended to it and before what it includes, the
last mixin first, and a class comes before its superclass.  On the singleton side the classes of the
chain have their extensions behind them, and then comes the instance side of `Class` or `Module`.
Mixins inside mixins are followed down to a fixed depth.
-/

namespace RbsSynth

open Signature

inductive Side
  | ofInstance | ofSingleton
  deriving DecidableEq

structure Ancestor where
  name : String
  side : Side
  deriving DecidableEq

/-- How far down mixins and superclasses are followed. -/
def depthLimit : Nat := 64

namespace Environment

variable (env : Environment)

/-- A module written in the body of an entry: first looked for outside it, then inside. -/
def resolveMixin? (e : ModuleEntry) (n : TypeName) : Option String :=
  (env.resolveConstant? n e.context.tail).or (env.resolveConstant? n e.context)

/-- A prepended module is looked for outside the entry only. -/
def resolvePrepended? (e : ModuleEntry) (n : TypeName) : Option String :=
  env.resolveConstant? n e.context.tail

/-- The modules that an entry extends itself with, the last written first. -/
def extended (e : ModuleEntry) : List String :=
  (e.mixins .extend).reverse.filterMap (env.resolveMixin? e)

def included (e : ModuleEntry) : List String :=
  (e.mixins .include).reverse.filterMap (env.resolveMixin? e)

def prepended (e : ModuleEntry) : List String :=
  (e.mixins .prepend).reverse.filterMap (env.resolvePrepended? e)

/-- Adds the instance side of a module, with `n - 1` levels of mixins, to the ancestors found. -/
def addSide : Nat → String → List Ancestor → List Ancestor
  | 0, _, found => found
  | n + 1, name, found =>
    match env.entry? name with
    | none => found
    | some e =>
      if found.contains ⟨name, .ofInstance⟩ then found
      else
        let found := (env.prepended e).foldl (fun found m => addSide n m found) found
        let found := found ++ [⟨name, .ofInstance⟩]
        (env.included e).foldl (fun found m => addSide n m found) found

/-- The instance side of a module at some depth. -/
def addSideAt (depth : Nat) (name : String) (found : List Ancestor) : List Ancestor :=
  env.addSide (depthLimit + 1 - depth) name found

/-- Adds a class and its superclasses; `n` more classes may follow. -/
def addChain : Nat → Option String → List Ancestor → List Ancestor
  | 0, _, found => found
  | _, none, found => found
  | n + 1, some name, found =>
    addChain n (env.superclassOf? name) (env.addSide (n + 1) name found)

/-- Adds the singleton sides of a class and its superclasses.  Also gives how many classes may
follow. -/
def addSingletons : Nat → Option String → List Ancestor → List Ancestor × Nat
  | 0, _, found => (found, 0)
  | n, none, found => (found, n)
  | n + 1, some name, found =>
    match env.entry? name with
    | none => (found, n + 1)
    | some e =>
      if found.contains ⟨name, .ofSingleton⟩ then (found, n + 1)
      else
        let found := found ++ [⟨name, .ofSingleton⟩]
        let found := (env.extended e).foldl (fun found m => env.addSide n m found) found
        addSingletons n (env.superclassOf? name) found

/-- Where methods of instances of `name`, or of `name` itself, are looked for, nearest first. -/
def ancestors (name : String) (side : Side) : List Ancestor :=
  match env.entry? name with
  | none => []
  | some e =>
    match side with
    | .ofInstance =>
      let found := env.addChain (depthLimit + 1) (some name) []
      if e.kind = .ofModule then env.addSideAt 1 "Object" found else found
    | .ofSingleton =>
      match env.addSingletons (depthLimit + 1) (some name) [] with
      | (found, n) =>
        env.addChain n (some (if e.kind = .ofModule then "Module" else "Class")) found

end Environment

end RbsSynth
