/-!
Expressions and statements of templates.
-/

namespace RbsSynth.Template

inductive Literal
  | none
  | bool (b : Bool)
  | int (n : Int)
  | decimal (digits : Nat) (exponent : Int)
  | string (s : String)
deriving DecidableEq, Repr

inductive Binary
  | add | sub | mul | div | floorDiv | mod | pow
deriving DecidableEq, Repr

inductive Comparison
  | equal | unequal | below | atMost | above | atLeast | within | notWithin
deriving DecidableEq, Repr

/-- An expression.  What is chosen by a condition knows its line, for the message when the condition
fails and there is nothing else to choose. -/
inductive Expr
  | literal (l : Literal)
  | name (n : String)
  | list (items : List Expr)
  | tuple (items : List Expr)
  | attribute (e : Expr) (name : String)
  | item (e index : Expr)
  | slice (e : Expr) (start stop step : Option Expr)
  | call (f : Expr) (args : List Expr) (named : List (String × Expr))
  | filter (name : String) (e : Expr) (args : List Expr) (named : List (String × Expr))
  | test (name : String) (e : Expr) (args : List Expr) (named : List (String × Expr))
  | neg (e : Expr)
  | pos (e : Expr)
  | not (e : Expr)
  | and (a b : Expr)
  | or (a b : Expr)
  | binary (op : Binary) (a b : Expr)
  | concat (items : List Expr)
  | compare (e : Expr) (rest : List (Comparison × Expr))
  | choose (test e : Expr) (otherwise : Option Expr) (line : Nat)
deriving Repr

inductive Statement
  | text (s : String)
  | output (e : Expr)
  | branch (test : Expr) (body otherwise : List Statement)
  | loop (variable_ : String) (source : Expr) (body otherwise : List Statement)
  | assign (variable_ : String) (e : Expr)
deriving Repr

end RbsSynth.Template
