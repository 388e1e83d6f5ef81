import RbsSynth.Generation.Context
import RbsSynth.Signature.Reader
import RbsSynth.Template.Render

/-!
Fragments: what templates give.

A fragment is read as it is.  When it stops where a declaration could start, as bare members do, it is
read once more as the body of a class with the name of its target.
-/

namespace RbsSynth

open Signature

structure Fragment where
  /-- The name of the class or module whose method has the template. -/
  target : String
  text : String
  method : String
  template : String
  deriving DecidableEq

/-- Why a template gives no text. -/
structure ExpansionError where
  target : String
  cause : Template.RenderError
  deriving DecidableEq

def ExpansionError.message (e : ExpansionError) : String :=
  "Failed to expand template for " ++ e.target

/-- The message with the reason, where a value is missing. -/
def ExpansionError.explanation (e : ExpansionError) : String :=
  match e.cause with
  | .missing why => e.message ++ ": " ++ why
  | _ => e.message

/-- A fragment that cannot be read. -/
structure FragmentError where
  target : String
  fault : Fault
  deriving DecidableEq

def FragmentError.message (e : FragmentError) : String :=
  "Generated fragment for " ++ e.target ++ " is not a valid signature: " ++ e.fault.message

namespace Fragment

def expand (target template : String) (context : Context) (method : String) :
    Except ExpansionError Fragment :=
  match Template.render template (bindingValues context) with
  | .ok text => .ok ⟨target, text, method, template⟩
  | .error cause => .error ⟨target, cause⟩

/-- The text as the body of a class with the name of the target. -/
def wrapped (f : Fragment) : String := "class " ++ f.target ++ "\n" ++ f.text ++ "\nend"

/-- The name under which faults in a fragment are told. -/
def label (f : Fragment) : String := "<generated for " ++ f.target ++ ">"

def declarations (f : Fragment) : Except FragmentError (List Declaration) :=
  match parse f.text f.label with
  | .ok ds => .ok ds
  | .error fault =>
    if fault.cannotStart then
      match parse f.wrapped f.label with
      | .ok ds => .ok ds
      | .error fault => .error ⟨f.target, fault⟩
    else .error ⟨f.target, fault⟩

end Fragment

end RbsSynth
