import RbsSynth.Files.Path

/-!
Files below the current directory.

A directory is there when a file lies below it.  `entry?` follows a path name by name, so `a/../b`
needs a directory `a`.
-/

namespace RbsSynth

/-- Texts by the names that lead to them. -/
structure Files where
  texts : List (List String × String)

namespace Files

/-- What stands at a place, which is given without `..`. -/
inductive Entry
  | file (place : List String) (text : String)
  | directory (place : List String)

def ofList (texts : List (String × String)) : Files :=
  ⟨texts.map fun (path, text) => (Path.partsOf path, text)⟩

def text? (fs : Files) (place : List String) : Option String :=
  (fs.texts.find? (·.1 = place)).map (·.2)

/-- The ways from a place to the files below it. -/
def below (fs : Files) (place : List String) : List (List String) :=
  (fs.texts.filter fun (p, _) => place.isPrefixOf p && place.length < p.length).map
    (·.1.drop place.length)

/-- What a name leads to. -/
def step (fs : Files) : Entry → String → Option Entry
  | .file _ _, _ => none
  | .directory place, name =>
    if name = ".." then
      if place.isEmpty then none else some (.directory place.dropLast)
    else
      let next := place ++ [name]
      match fs.text? next with
      | some text => some (.file next text)
      | none => if (fs.below next).isEmpty then none else some (.directory next)

def follow (fs : Files) : Entry → List String → Option Entry
  | e, [] => some e
  | e, name :: rest => (fs.step e name).bind fun e => fs.follow e rest

/-- What stands at a path. -/
def entry? (fs : Files) (p : Path) : Option Entry :=
  if p.root = "" then fs.follow (.directory []) p.parts else none

/-- The text of the file at a path. -/
def read? (fs : Files) (p : Path) : Option String :=
  match fs.entry? p with
  | some (.file _ text) => some text
  | _ => none

/-- What is seen from the directory at a path; nothing, if there is none. -/
def inside (fs : Files) (p : Path) : List (List String) :=
  match fs.entry? p with
  | some (.directory place) => fs.below place
  | _ => []

/-- The names in a directory. -/
def names (fs : Files) (p : Path) : List String := ((fs.inside p).filterMap (·.head?)).eraseDups

/-- The nonempty ways from a directory to the directories below it. -/
def directories (fs : Files) (p : Path) : List (List String) :=
  ((fs.inside p).flatMap fun way =>
    (List.range (way.length - 1)).map fun n => way.take (n + 1)).eraseDups

def replaceText (place : List String) (text : String) :
    List (List String × String) → List (List String × String)
  | [] => [(place, text)]
  | (p, t) :: rest => if p = place then (p, text) :: rest else (p, t) :: replaceText place text rest

/-- Writes a file; this needs a directory to write to, and no directory in its place. -/
def write? (fs : Files) (p : Path) (text : String) : Option Files :=
  match p.parts.getLast?, fs.entry? { p with parts := p.parts.dropLast } with
  | some name, some (.directory place) =>
    match fs.step (.directory place) name with
    | some (.directory _) => none
    | _ => if name = ".." then none else some ⟨replaceText (place ++ [name]) text fs.texts⟩
  | _, _ => none

end Files

end RbsSynth
