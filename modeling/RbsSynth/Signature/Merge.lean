import RbsSynth.Signature.Declaration

/-!
Merging declarations of one class or module.

Declarations are grouped by kind and written name, in the order in which the groups begin; all other
declarations stand alone (`groupBy`).  A group of one is left as it is.  In a larger one the members
follow each other in order, annotations and what a module asks of its users are kept once, and the
first comment stays.  A class takes everything else from the first declaration with a superclass, a
module from its first declaration.
-/

namespace RbsSynth.Signature

/-- Puts an item into the first group with its key, or into a new last group. -/
def enterGroup {α κ : Type} [DecidableEq κ] (key? : α → Option κ) (x : α) :
    List (List α) → List (List α)
  | [] => [[x]]
  | g :: gs =>
    if (key? x).isSome && decide (g.head?.bind key? = key? x) then (g ++ [x]) :: gs
    else g :: enterGroup key? x gs

/-- The items that share a key, together; items without a key are alone. -/
def groupBy {α κ : Type} [DecidableEq κ] (key? : α → Option κ) (xs : List α) : List (List α) :=
  xs.foldl (fun gs x => enterGroup key? x gs) []

/-- The first of every run of equal items, wherever they stand. -/
def unique {α : Type} [DecidableEq α] (xs : List α) : List α :=
  xs.foldl (fun seen x => if seen.contains x then seen else seen ++ [x]) []

inductive MergeKey
  | ofClass (name : String)
  | ofModule (name : String)
  deriving DecidableEq

def Declaration.mergeKey? : Declaration → Option MergeKey
  | .nestable (.classDecl d) => some (.ofClass d.name.render)
  | .nestable (.moduleDecl d) => some (.ofModule d.name.render)
  | _ => none

/-- The annotations of several declarations, each body once. -/
def uniqueAnnotations (as : List Annotation) : List Annotation :=
  as.foldl (fun seen a => if seen.any (·.body == a.body) then seen else seen ++ [a]) []

/-- The notes of a merged declaration: `primary` gives the place. -/
def mergeNotes (primary : Notes) (all : List Notes) : Notes :=
  { annotations := uniqueAnnotations (all.flatMap (·.annotations))
    comment := all.findSome? (·.comment)
    location := primary.location }

def mergeClasses (first : ClassDecl) (more : List ClassDecl) : ClassDecl :=
  let all := first :: more
  let primary := (all.find? (·.superclass.isSome)).getD first
  { primary with
    members := all.flatMap (·.members)
    notes := mergeNotes primary.notes (all.map (·.notes)) }

def mergeModules (first : ModuleDecl) (more : List ModuleDecl) : ModuleDecl :=
  let all := first :: more
  { first with
    selfTypes := unique (all.flatMap (·.selfTypes))
    members := all.flatMap (·.members)
    notes := mergeNotes first.notes (all.map (·.notes)) }

def Declaration.class? : Declaration → Option ClassDecl
  | .nestable (.classDecl d) => some d
  | _ => none

def Declaration.module? : Declaration → Option ModuleDecl
  | .nestable (.moduleDecl d) => some d
  | _ => none

/-- The declaration that stands for a group. -/
def mergeGroup : List Declaration → Option Declaration
  | [] => none
  | [d] => some d
  | .nestable (.classDecl d) :: ds =>
    some (.nestable (.classDecl (mergeClasses d (ds.filterMap Declaration.class?))))
  | .nestable (.moduleDecl d) :: ds =>
    some (.nestable (.moduleDecl (mergeModules d (ds.filterMap Declaration.module?))))
  | d :: _ => some d

def merge (ds : List Declaration) : List Declaration :=
  (groupBy Declaration.mergeKey? ds).filterMap mergeGroup

/-- Merges the declarations among some items; the others stay as they are. -/
def mergeAmong {α : Type} (declaration? : α → Option Declaration) (ofDeclaration : Declaration → α)
    (items : List α) : List α :=
  (groupBy (fun i => (declaration? i).bind Declaration.mergeKey?) items).filterMap fun
    | [i] => some i
    | group => (mergeGroup (group.filterMap declaration?)).map ofDeclaration

end RbsSynth.Signature
