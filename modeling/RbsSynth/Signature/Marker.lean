import RbsSynth.Text.Lines
import RbsSynth.Text.Split

/-!
Templates inside annotations.

An annotation that holds the marker has a template behind it: the text up to the end, or up to a
second marker, without the blanks around it.
-/

namespace RbsSynth.Signature

/-- What sets a template off from other annotations; it is never empty. -/
structure Marker where
  text : String
  nonempty : text ≠ ""

namespace Marker

def ofText? (text : String) : Option Marker :=
  if h : text = "" then none else some ⟨text, h⟩

/-- The template in an annotation's body. -/
def templateIn? (m : Marker) (body : String) : Option String :=
  match Text.splitOn m.text.toList body.toList with
  | _ :: piece :: _ => some (.ofList (Text.trim piece))
  | _ => none

def templatesIn (m : Marker) (bodies : List String) : List String :=
  bodies.filterMap m.templateIn?

end Marker

/-- The templates in some annotations, for a marker that may be empty; no annotation can be cut at an
empty one. -/
def templatesBehind? (marker : String) (bodies : List String) : Option (List String) :=
  if bodies.isEmpty then some [] else (Marker.ofText? marker).map (·.templatesIn bodies)

end RbsSynth.Signature
