import RbsSynth.Files.Path
import RbsSynth.Signature.Marker

/-!
Settings of the engine.
-/

namespace RbsSynth

open Signature

/-- The marker in use when no other is set. -/
def Signature.Marker.standard : Marker := ⟨"siggen:", by decide⟩

structure Settings where
  /-- Signature files and directories that are loaded at the start. -/
  signaturePaths : List Path := []
  loadCore : Bool := true
  marker : Marker := .standard
  /-- Which files below a directory are programs. -/
  programGlob : String := "**/*.rb"
  /-- Which files below a directory are signatures. -/
  signatureGlob : String := "**/*.rbs"
  /-- The name of a signature text that has none. -/
  signatureName : String := "a.rbs"
  programName : String := "a.rb"

end RbsSynth
