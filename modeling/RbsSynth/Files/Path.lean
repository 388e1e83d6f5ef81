import RbsSynth.Text.Split

/-!
Paths of files.

A path is a list of names; empty names and `.` are left out, and `..` stays.  Paths are in order by
their names, one name after another: `a/b.rb` comes before `a-b.rb`.
-/

namespace RbsSynth

structure Path where
  /-- The slashes in front of a path that does not start at the current directory. -/
  root : String := ""
  parts : List String
  deriving DecidableEq

namespace Path

/-- The current directory. -/
def here : Path := { parts := [] }

/-- Two slashes in front are kept, more are like one. -/
def rootOf (slashes : Nat) : String :=
  if slashes = 0 then "" else if slashes = 2 then "//" else "/"

/-- The names between the slashes of a text. -/
def partsOf (text : String) : List String :=
  ((Text.splitOn ['/'] text.toList).map String.ofList).filter fun p => p != "" && p != "."

def ofText (text : String) : Path where
  root := rootOf (text.toList.takeWhile (· == '/')).length
  parts := partsOf text

def render (p : Path) : String :=
  if p = here then "." else p.root ++ Text.join "/" p.parts

/-- What has a name in a directory. -/
def child (p : Path) (name : String) : Path := { p with parts := p.parts ++ [name] }

def partsLe : List String → List String → Bool
  | [], _ => true
  | _ :: _, [] => false
  | a :: as, b :: bs => if a = b then partsLe as bs else decide (a < b)

def le (p q : Path) : Bool := partsLe p.parts q.parts

/-- Whether a text can only mean a directory, by its end. -/
def meansDirectory (text : String) : Bool := text.endsWith "/" || text.endsWith "/."

/-- A name from its last dot on; a dot in front or at the end does not count. -/
def suffix (p : Path) : String :=
  match p.parts.getLast? with
  | none => ""
  | some name =>
    let cs := name.toList
    let extension := (cs.reverse.takeWhile (· != '.')).reverse
    if extension.isEmpty || cs.length ≤ extension.length + 1 then ""
    else .ofList ('.' :: extension)

example : (ofText "./a//b/../c.rb").render = "a/b/../c.rb" := by decide +kernel
example : (ofText "a.b/.rb").suffix = "" := by decide +kernel

end Path

end RbsSynth
