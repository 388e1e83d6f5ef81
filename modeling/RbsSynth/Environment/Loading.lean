import RbsSynth.Environment.Core
import RbsSynth.Environment.Registration

/-!
The environment that a program starts in: the core signatures, one source a file.
-/

namespace RbsSynth

open Signature

namespace Core

/-- The declarations of each core file, or its fault. -/
def declarations : List (String × Except Fault (List Declaration)) :=
  files.map fun (name, text) => ("core/" ++ name, parse text ("core/" ++ name))

end Core

namespace Environment

/-- Adds texts that have been read, one after another. -/
def addRead (env : Environment) : List (String × Except Fault (List Declaration)) →
    Except SignatureError Environment
  | [] => .ok env
  | (_, .error f) :: _ => .error (.fault f)
  | (source, .ok ds) :: rest =>
    match env.addDeclarations ds source with
    | .error c => .error (.conflict c)
    | .ok env => env.addRead rest

/-- The environment with the core signatures. -/
def withCore (marker : Marker) : Except SignatureError Environment :=
  Environment.addRead { marker := marker } Core.declarations

/-- An empty environment, or one with the core signatures. -/
def initial (marker : Marker) (core : Bool) : Except SignatureError Environment :=
  if core then withCore marker else .ok { marker := marker }

end Environment

end RbsSynth
