import RbsSynth.Files.Path

/-!
The arguments of a command line.

A word that starts with a minus and has more behind it is an option; `--` makes all words behind it
plain ones.  A long option has its value behind `=` or in the next word.  Short ones may stand
together, and what follows one that takes a value is its value.
-/

namespace RbsSynth.CommandLine

structure OptionSpec where
  name : String
  short : Option Char := none
  takesValue : Bool := false

/-- An option that was given. -/
structure GivenOption where
  name : String
  value : String := ""

/-- Words sorted into options and plain words, each in order. -/
structure Sorted where
  options : List GivenOption := []
  plain : List String := []

def Sorted.withOptions (given : List GivenOption) (s : Sorted) : Sorted :=
  { s with options := given ++ s.options }

/-- Options of short names; the last may be one that takes the next word as its value. -/
def shortOptions? (specs : List OptionSpec) :
    List Char → Option (List GivenOption × Option String)
  | [] => some ([], none)
  | c :: cs =>
    match specs.find? (·.short = some c) with
    | none => none
    | some spec =>
      if spec.takesValue then
        if cs.isEmpty then some ([], some spec.name) else some ([⟨spec.name, .ofList cs⟩], none)
      else (shortOptions? specs cs).map fun (given, next) => (⟨spec.name, ""⟩ :: given, next)

/-- An option of a long name; it may take the next word as its value. -/
def longOption? (specs : List OptionSpec) (cs : List Char) :
    Option (List GivenOption × Option String) :=
  let name := String.ofList (cs.takeWhile (· != '='))
  let value := cs.dropWhile (· != '=')
  match specs.find? (·.name = name) with
  | none => none
  | some spec =>
    match spec.takesValue, value with
    | true, [] => some ([], some name)
    | true, _ :: value => some ([⟨name, .ofList value⟩], none)
    | false, [] => some ([⟨name, ""⟩], none)
    | false, _ :: _ => none

def readOption? (specs : List OptionSpec) (cs : List Char) :
    Option (List GivenOption × Option String) :=
  match cs with
  | '-' :: '-' :: cs => longOption? specs cs
  | cs => shortOptions? specs (cs.drop 1)

def isOption (word : String) : Bool := word.startsWith "-" && word != "-"

/-- Sorts words; unless options may stand everywhere, all words from the first plain one on are
plain.  There is none when an option is unknown, lacks its value or has one that it does not take. -/
def sort? (specs : List OptionSpec) (everywhere : Bool) : List String → Option Sorted
  | [] => some {}
  | word :: rest =>
    if word = "--" then some { plain := rest }
    else if isOption word then
      match readOption? specs word.toList with
      | none => none
      | some (given, none) => (sort? specs everywhere rest).map (·.withOptions given)
      | some (given, some name) =>
        match rest with
        | [] => none
        | value :: rest => (sort? specs everywhere rest).map (·.withOptions (given ++ [⟨name, value⟩]))
    else if everywhere then
      (sort? specs everywhere rest).map fun s => { s with plain := word :: s.plain }
    else some { plain := word :: rest }

namespace Sorted

def has (s : Sorted) (name : String) : Bool := s.options.any (·.name = name)

def values (s : Sorted) (name : String) : List String :=
  (s.options.filter (·.name = name)).map (·.value)

end Sorted

/-! ## Commands -/

/-- What both commands take. -/
structure Request where
  /-- The path as it was written. -/
  target : String
  signatures : List Path
  loadCore : Bool

inductive Command
  | help
  | generate (request : Request) (output : Option Path)
  | calls (request : Request)

def generalSpecs : List OptionSpec := [⟨"verbose", some 'v', false⟩, ⟨"help", none, false⟩]

def requestSpecs : List OptionSpec :=
  [⟨"signature", some 's', true⟩, ⟨"no-core", none, false⟩, ⟨"help", none, false⟩]

def generateSpecs : List OptionSpec := ⟨"output", some 'o', true⟩ :: requestSpecs

def requestOf (s : Sorted) (target : String) : Request :=
  ⟨target, (s.values "signature").map Path.ofText, !s.has "no-core"⟩

/-- A command that takes one path. -/
def commandOf? (specs : List OptionSpec) (make : Sorted → Request → Command) (words : List String) :
    Option Command := do
  let s ← sort? specs true words
  if s.has "help" then return .help
  match s.plain with
  | [target] => return make s (requestOf s target)
  | _ => none

/-- The command that some arguments ask for, if they are well formed. -/
def command? (args : List String) : Option Command := do
  let s ← sort? generalSpecs false args
  if s.has "help" then return .help
  match s.plain with
  | "generate" :: words =>
    commandOf? generateSpecs
      (fun s r => .generate r ((s.values "output").getLast?.map Path.ofText)) words
  | "calls" :: words => commandOf? requestSpecs (fun _ r => .calls r) words
  | _ => none

end RbsSynth.CommandLine
