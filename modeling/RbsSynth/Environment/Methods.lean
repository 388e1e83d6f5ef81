import RbsSynth.Environment.Ancestors

/-!
Methods and where they are found.

A method is found at the first ancestor that defines it, or that has an alias for it which leads to
a definition.  Of several definitions at one ancestor the last full one counts, together with the
overloads added after it: later overloads stand in front, later templates and annotations behind.
-/

namespace RbsSynth

open Signature

/-- What one member says of a method. -/
structure MethodRecord where
  name : String
  overloads : List MethodType
  overloading : Bool
  annotations : List String
  templates : List String

structure MethodEntry where
  owner : String
  name : String
  side : Side
  overloads : List MethodType
  templates : List String
  annotations : List String
  /-- The names in whose scope the overloads are read, innermost first. -/
  context : List String
  deriving DecidableEq

def Signature.MethodKind.onSide : MethodKind → Side → Bool
  | .ofBoth, _ => true
  | .ofInstance, .ofInstance => true
  | .ofSingleton, .ofSingleton => true
  | _, _ => false

def sideOf (singleton : Bool) : Side := if singleton then .ofSingleton else .ofInstance

namespace MethodRecord

/-- A record with the annotations of a member and the templates in them. -/
def ofNotes (marker : Marker) (notes : Notes) (name : String) (overloads : List MethodType)
    (overloading : Bool) : MethodRecord :=
  let bodies := notes.annotations.map (·.body)
  ⟨name, overloads, overloading, bodies, marker.templatesIn bodies⟩

/-- The methods that an attribute stands for. -/
def ofAttribute (marker : Marker) (m : AttributeMember) : List MethodRecord :=
  let reader := ofNotes marker m.notes m.name [⟨.returning m.type, none, []⟩] false
  let writer := ofNotes marker m.notes (m.name ++ "=")
    [⟨{ FunctionType.returning m.type with required := [⟨m.type, some m.name⟩] }, none, []⟩] false
  match m.kind with
  | .reader => [reader]
  | .writer => [writer]
  | .accessor => [reader, writer]

/-- What a member says of the methods on one side. -/
def ofMember (marker : Marker) (side : Side) : Member → List MethodRecord
  | .method m =>
    if m.kind.onSide side then [ofNotes marker m.notes m.name m.overloads m.overloading] else []
  | .attribute m => if sideOf m.singleton = side then ofAttribute marker m else []
  | _ => []

end MethodRecord

namespace ModuleEntry

/-- The records of a method on one side, in order. -/
def records (e : ModuleEntry) (marker : Marker) (side : Side) (method : String) :
    List MethodRecord :=
  (e.members.flatMap (MethodRecord.ofMember marker side)).filter (·.name == method)

def aliasPair? (side : Side) : Member → Option (String × String)
  | .aliasMember m => if sideOf m.singleton = side then some (m.newName, m.oldName) else none
  | _ => none

/-- The names that a new name stands for, on one side; the last written is first. -/
def methodAliases (e : ModuleEntry) (side : Side) : Index String :=
  (e.members.filterMap (aliasPair? side)).reverse

end ModuleEntry

namespace MethodRecord

/-- The records from the last full one on, or all if there is none. -/
def current (records : List MethodRecord) : List MethodRecord :=
  let added := (records.reverse.takeWhile (·.overloading)).reverse
  match records.reverse.drop added.length with
  | [] => added
  | full :: _ => full :: added

/-- One more record behind what is known of a method. -/
def extend (e : MethodEntry) (r : MethodRecord) : MethodEntry :=
  { e with
    overloads := if r.overloading then r.overloads ++ e.overloads else r.overloads
    templates := e.templates ++ r.templates
    annotations := e.annotations ++ r.annotations }

end MethodRecord

/-- The method that some records at one ancestor define. -/
def ModuleEntry.methodEntry (e : ModuleEntry) (side : Side) (method : String)
    (records : List MethodRecord) : MethodEntry :=
  (MethodRecord.current records).foldl MethodRecord.extend
    ⟨e.name, method, side, [], [], [], e.context⟩

/-- A lookup that has begun. -/
structure Lookup where
  name : String
  method : String
  side : Side
  deriving DecidableEq

namespace Environment

variable (env : Environment)

/-- Looks along some ancestors; `follow` looks up what an alias stands for. -/
def searchAlong (follow : Lookup → List Lookup → Option MethodEntry × List Lookup)
    (method : String) : List Ancestor → List Lookup → Option MethodEntry × List Lookup
  | [], begun => (none, begun)
  | a :: rest, begun =>
    match env.entry? a.name with
    | none => searchAlong follow method rest begun
    | some e =>
      match e.records env.marker a.side method with
      | r :: rs => (some (e.methodEntry a.side method (r :: rs)), begun)
      | [] =>
        match (e.methodAliases a.side).find? method with
        | none => searchAlong follow method rest begun
        | some target =>
          match follow ⟨a.name, target, a.side⟩ begun with
          | (some found, begun) => (some found, begun)
          | (none, begun) => searchAlong follow method rest begun

/-- Looks a method up, unless that was begun before; also gives all lookups begun. -/
def search : Nat → Lookup → List Lookup → Option MethodEntry × List Lookup
  | 0, _, begun => (none, begun)
  | n + 1, l, begun =>
    if begun.contains l then (none, begun)
    else env.searchAlong (search n) l.method (env.ancestors l.name l.side) (l :: begun)

/-- The names that aliases stand for, in the whole environment. -/
def aliasTargets : List String :=
  env.modules.flatMap fun (_, e) =>
    e.members.filterMap fun
      | .aliasMember m => some m.oldName
      | _ => none

/-- Lookups that can be begun: each has a declared name and side, and a method that an alias stands
for, but for the first. -/
def lookupBound : Nat := 2 * env.modules.length * env.aliasTargets.length + 2

/-- The nearest definition of a method. -/
def findMethod? (name method : String) (side : Side) : Option MethodEntry :=
  (env.search env.lookupBound ⟨name, method, side⟩ []).1

end Environment

end RbsSynth
