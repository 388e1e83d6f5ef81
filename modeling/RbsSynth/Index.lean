/-!
Lists of named things.

`find?` gives the first thing of a name.  `put` replaces the thing of a name, and a new name goes to
the end, so the names of a list built with it stay apart and in the order in which they came.
-/

namespace RbsSynth

/-- A list of named things; of two with one name the first counts. -/
abbrev Index (α : Type) := List (String × α)

namespace Index

variable {α : Type}

def find? (name : String) : Index α → Option α
  | [] => none
  | (n, a) :: rest => if n = name then some a else find? name rest

def has (name : String) (index : Index α) : Bool := (find? name index).isSome

/-- Replaces what has a name, or puts it last. -/
def update (name : String) (f : Option α → α) : Index α → Index α
  | [] => [(name, f none)]
  | (n, a) :: rest => if n = name then (n, f (some a)) :: rest else (n, a) :: update name f rest

/-- Changes what has a name, if there is something. -/
def modify (name : String) (f : α → α) : Index α → Index α
  | [] => []
  | (n, a) :: rest => if n = name then (n, f a) :: rest else (n, a) :: modify name f rest

/-- Gives a thing its name, in the place of what had it. -/
def put (name : String) (a : α) (index : Index α) : Index α := update name (fun _ => a) index

def names (index : Index α) : List String := index.map (·.1)

end Index

end RbsSynth
