import RbsSynth.Analysis.TreeReader
import RbsSynth.CommandLine.Run

/-!
The program: runs a command on the files below the current directory.

The syntax tree of a program `x` is read from the file `x.tree`.
-/

namespace RbsSynth

/-- The ending of files with syntax trees. -/
def treeSuffix : String := ".tree"

/-- The trees that some files hold, by the texts of the programs that they belong to. -/
def treesIn (texts : List (String × String)) : Index Analysis.Tree :=
  texts.filterMap fun (path, text) => do
    let program ← texts.find? fun (other, _) => path = other ++ treeSuffix
    let tree ← Analysis.Tree.ofJson? (← Json.parse? text)
    return (Project.readText program.2, tree)

def projectOf (texts : List (String × String)) : Project := ⟨Files.ofList texts, treesIn texts⟩

/-- The variables that settings can come from. -/
def variableNames : List String :=
  Settings.names.map fun name => "SIGGEN_" ++ String.ofList (name.toList.map Char.toUpper)

def readVariables : IO (List (String × String)) :=
  variableNames.filterMapM fun name => do return (← IO.getEnv name).map (name, ·)

/-- The texts of all files below a directory; what is no text is left out. -/
partial def readTexts (path : String) (dir : IO.FS.DirEntry) : IO (List (String × String)) := do
  if ← dir.path.isDir then
    let entries ← dir.path.readDir
    let texts ← entries.toList.mapM fun e => readTexts (path ++ "/" ++ e.fileName) e
    return texts.flatten
  else
    try return [(path, ← IO.FS.readFile dir.path)]
    catch _ => return []

def readHere : IO (List (String × String)) := do
  let entries ← (← IO.currentDir).readDir
  return (← entries.toList.mapM fun e => readTexts e.fileName e).flatten

/-- Writes the files that were not there before, or had another text. -/
def writeChanges (before after : Files) : IO Unit :=
  after.texts.forM fun (place, text) => do
    if before.text? place != some text then
      IO.FS.writeFile (Text.join "/" place) text

/-- Runs the command that some arguments ask for. -/
def runHere (args : List String) : IO UInt32 := do
  let project := projectOf (← readHere)
  let outcome := (CommandLine.Workplace.mk project (← readVariables)).perform args
  writeChanges project.files outcome.files
  IO.print outcome.stdout
  IO.eprint outcome.stderr
  return outcome.exit.toUInt32

end RbsSynth

def main (args : List String) : IO UInt32 := RbsSynth.runHere args
