import RbsSynth.Signature.Lexer
import RbsSynth.Text.Lines
import RbsSynth.Text.Quoted

/-!
Why a signature text cannot be read.

A text stops being read at a token that has no place there, or at a character that begins no token.
When a declaration could have started where it stopped but no member could, the fault is that the
token cannot start a declaration (`cannotStart`); a fragment of bare members stops so.
-/

namespace RbsSynth.Signature

inductive FaultCause
  | unexpected (terminal : Terminal) (text : String)
  | unmatched (c : Char)
  deriving DecidableEq

/-- A fault in the text called `name`. -/
structure Fault where
  name : String
  position : Position
  cause : FaultCause
  expected : List Terminal
  deriving DecidableEq

namespace Fault

def cannotStart (f : Fault) : Bool :=
  f.expected.contains .classWord && !f.expected.contains .defWord

def causeText (f : Fault) : String :=
  let line := toString f.position.line
  let column := toString f.position.column
  match f.cause with
  | .unexpected t text =>
    "Unexpected token Token('" ++ t.name ++ "', " ++ Text.quoted text ++ ") at line " ++ line
      ++ ", column " ++ column ++ "."
  | .unmatched c =>
    .ofList (Text.firstLine ("No terminal matches '" ++ String.singleton c
      ++ "' in the current parser context, at line " ++ line ++ " col " ++ column).toList)

def details (f : Fault) : String :=
  if f.cannotStart then "cannot start a declaration (" ++ f.causeText ++ ")" else f.causeText

def message (f : Fault) : String :=
  "Syntax error in signature " ++ f.name ++ ":" ++ toString f.position.line ++ ":"
    ++ toString f.position.column ++ ": " ++ f.details

end Fault

end RbsSynth.Signature
