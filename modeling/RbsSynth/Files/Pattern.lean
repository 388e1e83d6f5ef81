import RbsSynth.Files.Basic
import RbsSynth.Text.Quoted

/-!
Patterns that files are found with.

A pattern is a path whose names may have `*` for any text, `?` for any character and sets such as
`[a-z]` or `[!.]`; none of them crosses a slash.  The name `**` stands for any number of directories.
-/

namespace RbsSynth

/-! ## Patterns of names -/

/-- A part of the pattern of a name. -/
inductive Wildcard
  | char (c : Char)
  | any
  | many
  | oneOf (complement : Bool) (ranges : List (Char × Char))
  deriving DecidableEq

namespace Wildcard

def accepts : Wildcard → Char → Bool
  | .char d, c => c == d
  | .any, _ => true
  | .many, _ => true
  | .oneOf complement ranges, c =>
    complement != ranges.any fun (lo, hi) => decide (lo ≤ c) && decide (c ≤ hi)

/-- Whether a text has a property from some place on. -/
def someEnd (holds : List Char → Bool) : List Char → Bool
  | [] => holds []
  | c :: cs => holds (c :: cs) || someEnd holds cs

/-- Whether a whole text is of a pattern. -/
def matchesAll : List Wildcard → List Char → Bool
  | [], cs => cs.isEmpty
  | .many :: ws, cs => someEnd (matchesAll ws) cs
  | _ :: _, [] => false
  | w :: ws, c :: cs => w.accepts c && matchesAll ws cs

/-- The ranges of a set; a minus at one of its ends is an element. -/
def rangesOf : List Char → List (Char × Char)
  | lo :: '-' :: hi :: cs => (lo, hi) :: rangesOf cs
  | c :: cs => (c, c) :: rangesOf cs
  | [] => []

/-- The inside of a set and what follows it; a bracket directly at the start is an element. -/
def insideOfSet : List Char → Option (List Char × List Char)
  | c :: cs =>
    let rest := cs.dropWhile (· != ']')
    if rest.isEmpty then none else some (c :: cs.takeWhile (· != ']'), rest.drop 1)
  | [] => none

/-- The set after an opening bracket, and how many characters it takes. -/
def setOf? (cs : List Char) : Option (Wildcard × Nat) :=
  match cs with
  | '!' :: cs => (insideOfSet cs).map fun (set, _) => (.oneOf true (rangesOf set), set.length + 2)
  | cs => (insideOfSet cs).map fun (set, _) => (.oneOf false (rangesOf set), set.length + 1)

/-- Reads a pattern; `skip` characters have been dealt with. -/
def readFrom : Nat → List Char → List Wildcard
  | _, [] => []
  | skip + 1, _ :: cs => readFrom skip cs
  | 0, '*' :: cs => .many :: readFrom 0 cs
  | 0, '?' :: cs => .any :: readFrom 0 cs
  | 0, '[' :: cs =>
    match setOf? cs with
    | some (w, n) => w :: readFrom n cs
    | none => .char '[' :: readFrom 0 cs
  | 0, c :: cs => .char c :: readFrom 0 cs

def ofName (name : String) : List Wildcard := readFrom 0 name.toList

example : matchesAll (ofName "*.[a-c]?") "x.y.b1".toList = true := by decide +kernel
example : matchesAll (ofName "[!.]*") ".x".toList = false := by decide +kernel

end Wildcard

/-! ## Patterns of paths -/

/-- A name in a pattern. -/
inductive PatternPart
  /-- Any number of directories. -/
  | anyDepth
  | name (name : String)
  | wild (pattern : List Wildcard)

structure Pattern where
  parts : List PatternPart
  /-- Whether only directories are meant. -/
  ofDirectories : Bool

inductive PatternError
  | empty
  | absolute
  /-- There is no name in it. -/
  | nameless
  /-- Two stars beside something else. -/
  | stars
  deriving DecidableEq

def PatternError.message : PatternError → String
  | empty => "Unacceptable pattern: ''"
  | absolute => "Non-relative patterns are unsupported"
  | nameless => "The pattern has no names"
  | stars => "Invalid pattern: '**' can only be an entire path component"

namespace PatternPart

def isWild (c : Char) : Bool := c == '*' || c == '?' || c == '['

def ofName (name : String) : Except PatternError PatternPart :=
  if name = "**" then .ok .anyDepth
  else if Text.occursIn ['*', '*'] name.toList then .error .stars
  else if name.toList.any isWild then .ok (.wild (Wildcard.ofName name))
  else .ok (.name name)

def isDeep : PatternPart → Bool
  | .anyDepth => true
  | _ => false

end PatternPart

namespace Pattern

def ofText (text : String) : Except PatternError Pattern := do
  if text.isEmpty then throw .empty
  if text.startsWith "/" then throw .absolute
  let parts ← (Path.partsOf text).mapM PatternPart.ofName
  let slash := text.endsWith "/"
  if parts.isEmpty && !slash then throw .nameless
  return ⟨parts, slash || (parts.getLast?.map PatternPart.isDeep).getD false⟩

/-- The paths that the names of a pattern lead to. -/
def reach (fs : Files) : List PatternPart → Path → List Path
  | [], p => [p]
  | .anyDepth :: rest, p =>
    reach fs rest p ++
      (fs.directories p).flatMap fun way => reach fs rest { p with parts := p.parts ++ way }
  | .name name :: rest, p =>
    if (fs.entry? (p.child name)).isSome then reach fs rest (p.child name) else []
  | .wild pattern :: rest, p =>
    ((fs.names p).filter fun name => Wildcard.matchesAll pattern name.toList).flatMap fun name =>
      reach fs rest (p.child name)

/-- The files of a pattern below a directory, with their texts and in order. -/
def find (pattern : Pattern) (fs : Files) (p : Path) : List (Path × String) :=
  if pattern.ofDirectories then []
  else
    let found := ((reach fs pattern.parts p).eraseDups.mergeSort Path.le)
    found.filterMap fun q => (fs.read? q).map (q, ·)

end Pattern

end RbsSynth
