import RbsSynth.Index
import RbsSynth.Json
import RbsSynth.Settings.Assignments
import RbsSynth.Settings.Basic
import RbsSynth.Text.Case

/-!
Where settings come from.

A setting has the value that is given for it; else that of its environment variable; else the one
that the lines of the file `.env` assign to the variable; else its default.  The variable of a
setting is named `SIGGEN_` and the setting's name, in small or capital letters.
-/

namespace RbsSynth

open Signature

/-! ## Sources -/

/-- Values that are given, variables of the environment, and the text of the file `.env`. -/
structure SettingsSources where
  given : Index Json := []
  environment : List (String × String) := []
  assignments : Option String := none

/-- What does not fit a setting. -/
inductive SettingsProblem
  | notText
  | emptyText
  | notList
  | notPath
  | notBool
  /-- A text or number that is no word for true or false. -/
  | unclearBool
  deriving DecidableEq

def SettingsProblem.message : SettingsProblem → String
  | notText => "Input should be a valid string"
  | emptyText => "String should have at least 1 character"
  | notList => "Input should be a valid list"
  | notPath => "Input is not a valid path for <class 'pathlib.Path'>"
  | notBool => "Input should be a valid boolean"
  | unclearBool => "Input should be a valid boolean, unable to interpret input"

inductive VariableSource
  | environment
  | assignments
  deriving DecidableEq

inductive SettingsError
  | problem (p : SettingsProblem)
  /-- The variable of a setting is not written as a list. -/
  | unreadable (setting : String) (source : VariableSource)
  deriving DecidableEq

def VariableSource.title : VariableSource → String
  | environment => "EnvSettingsSource"
  | assignments => "DotEnvSettingsSource"

def SettingsError.message : SettingsError → String
  | problem p => p.message
  | unreadable setting source =>
    "error parsing value for field \"" ++ setting ++ "\" from source \"" ++ source.title ++ "\""

namespace Settings

/-! ## Values -/

def textOf : Json → Except SettingsProblem String
  | .string s => .ok s
  | _ => .error .notText

def markerOf (j : Json) : Except SettingsProblem Marker := do
  match Marker.ofText? (← textOf j) with
  | some m => return m
  | none => throw .emptyText

def pathOf : Json → Except SettingsProblem Path
  | .string s => .ok (Path.ofText s)
  | _ => .error .notPath

def pathsOf : Json → Except SettingsProblem (List Path)
  | .array js => js.mapM pathOf
  | _ => .error .notList

def falseWords : List String := ["0", "off", "f", "false", "n", "no"]

def trueWords : List String := ["1", "on", "t", "true", "y", "yes"]

/-- A word for true or false; capital letters do not matter. -/
def boolOfWord (s : String) : Except SettingsProblem Bool :=
  let s := String.ofList (s.toList.map Char.toLower)
  if falseWords.contains s then .ok false
  else if trueWords.contains s then .ok true
  else .error .unclearBool

def boolOf : Json → Except SettingsProblem Bool
  | .bool b => .ok b
  | .string s => boolOfWord s
  | .number n => if n = "0" then .ok false else if n = "1" then .ok true else .error .unclearBool
  | _ => .error .notBool

/-! ## Variables -/

def pathsSetting : String := "signature_paths"

/-- The settings by name, in the order in which they are checked. -/
def names : List String :=
  [pathsSetting, "load_core", "annotation_marker", "program_glob", "signature_glob",
   "default_signature_name", "default_program_name"]

/-- The text of a setting's variable; the last one counts. -/
def textOfVariable? (vars : List (String × String)) (setting : String) : Option String :=
  (vars.reverse.find? fun (name, _) => Text.lower name.toList = ("siggen_" ++ setting).toList).map
    (·.2)

/-- The value that a setting's variable has; a list is written in JSON, and `null` is no value. -/
def valueOfVariable (source : VariableSource) (vars : List (String × String)) (setting : String) :
    Except SettingsError (Option (String × Json)) :=
  match textOfVariable? vars setting with
  | none => .ok none
  | some text =>
    if setting = pathsSetting then
      match Json.parse? text with
      | some .null => .ok none
      | some j => .ok (some (setting, j))
      | none => .error (.unreadable setting source)
    else .ok (some (setting, .string text))

def ofVariables (source : VariableSource) (vars : List (String × String)) :
    Except SettingsError (Index Json) :=
  return (← names.mapM (valueOfVariable source vars)).filterMap id

/-! ## Settings -/

/-- The value of a setting, or its default. -/
def valueOr {α : Type} (values : Index Json) (setting : String)
    (read : Json → Except SettingsProblem α) (default : α) : Except SettingsProblem α :=
  match values.find? setting with
  | some j => read j
  | none => .ok default

/-- Settings from values by name; other names do not matter. -/
def ofValues (values : Index Json) : Except SettingsProblem Settings := do
  let standard : Settings := {}
  let paths ← valueOr values pathsSetting pathsOf standard.signaturePaths
  let core ← valueOr values "load_core" boolOf standard.loadCore
  let marker ← valueOr values "annotation_marker" markerOf standard.marker
  let programs ← valueOr values "program_glob" textOf standard.programGlob
  let signatures ← valueOr values "signature_glob" textOf standard.signatureGlob
  let signature ← valueOr values "default_signature_name" textOf standard.signatureName
  let program ← valueOr values "default_program_name" textOf standard.programName
  return ⟨paths, core, marker, programs, signatures, signature, program⟩

def read (sources : SettingsSources) : Except SettingsError Settings := do
  let environment ← ofVariables .environment sources.environment
  let assigned := (sources.assignments.map (Assignments.read sources.environment)).getD []
  let assigned ← ofVariables .assignments assigned
  (ofValues (sources.given ++ environment ++ assigned)).mapError .problem

end Settings

end RbsSynth
