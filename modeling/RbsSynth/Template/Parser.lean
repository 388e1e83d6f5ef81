import RbsSynth.Template.Expr
import RbsSynth.Template.Lexer
import RbsSynth.Text.Lines

/-!
The reader of templates.

Operators of one level group from the left, powers too; comparisons form chains.  Every level goes
down to the next with one unit of fuel less, and sixteen units for each token are more than the
levels need.
-/

namespace RbsSynth.Template

abbrev Parse (α : Type) := List Token → Option (α × List Token)

/-! ## Steps -/

def expect (l : Lexeme) : List Token → Option (List Token)
  | t :: ts => if t.lexeme = l then some ts else none
  | [] => none

def anyName : Parse String
  | ⟨.name n, _⟩ :: ts => some (n, ts)
  | _ => none

/-- What follows a lexeme, if that comes next. -/
def skip? (l : Lexeme) (ts : List Token) : List Token × Bool :=
  match expect l ts with
  | some rest => (rest, true)
  | none => (ts, false)

/-- Applies operators of one level from the left. -/
def chain (operand : Parse Expr) (op? : Lexeme → Option (Expr → Expr → Expr)) :
    Nat → Expr → Parse Expr
  | 0, _, _ => none
  | _ + 1, left, [] => some (left, [])
  | fuel + 1, left, t :: ts =>
    match op? t.lexeme with
    | some make => do
      let (right, ts) ← operand ts
      chain operand op? fuel (make left right) ts
    | none => some (left, t :: ts)

/-- The operands behind the first one, each after a mark. -/
def more (operand : Parse Expr) (m : Mark) : Nat → Parse (List Expr)
  | 0, _ => none
  | fuel + 1, ts =>
    match skip? (.mark m) ts with
    | (rest, true) => do
      let (e, ts) ← operand rest
      let (es, ts) ← more operand m fuel ts
      return (e :: es, ts)
    | (_, false) => some ([], ts)

/-- The comparison that comes next. -/
def comparison? : List Token → Option (Comparison × List Token)
  | ⟨.mark .equal, _⟩ :: ts => some (.equal, ts)
  | ⟨.mark .unequal, _⟩ :: ts => some (.unequal, ts)
  | ⟨.mark .below, _⟩ :: ts => some (.below, ts)
  | ⟨.mark .atMost, _⟩ :: ts => some (.atMost, ts)
  | ⟨.mark .above, _⟩ :: ts => some (.above, ts)
  | ⟨.mark .atLeast, _⟩ :: ts => some (.atLeast, ts)
  | ⟨.name "in", _⟩ :: ts => some (.within, ts)
  | ⟨.name "not", _⟩ :: ⟨.name "in", _⟩ :: ts => some (.notWithin, ts)
  | _ => none

def comparisons (operand : Parse Expr) : Nat → Parse (List (Comparison × Expr))
  | 0, _ => none
  | fuel + 1, ts =>
    match comparison? ts with
    | some (c, rest) => do
      let (e, ts) ← operand rest
      let (es, ts) ← comparisons operand fuel ts
      return ((c, e) :: es, ts)
    | none => some ([], ts)

def orOp : Lexeme → Option (Expr → Expr → Expr)
  | .name "or" => some .or
  | _ => none

def andOp : Lexeme → Option (Expr → Expr → Expr)
  | .name "and" => some .and
  | _ => none

def sumOp : Lexeme → Option (Expr → Expr → Expr)
  | .mark .plus => some (.binary .add)
  | .mark .minus => some (.binary .sub)
  | _ => none

def productOp : Lexeme → Option (Expr → Expr → Expr)
  | .mark .times => some (.binary .mul)
  | .mark .slash => some (.binary .div)
  | .mark .slashes => some (.binary .floorDiv)
  | .mark .modulo => some (.binary .mod)
  | _ => none

def powerOp : Lexeme → Option (Expr → Expr → Expr)
  | .mark .power => some (.binary .pow)
  | _ => none

/-- Whether a tuple cannot go on. -/
def endsTuple : List Token → Bool
  | ⟨.closeOutput, _⟩ :: _ | ⟨.closeTag, _⟩ :: _ | ⟨.mark .closeRound, _⟩ :: _ => true
  | _ => false

/-- The items of a tuple, and whether a comma makes it one. -/
def tupleItems (item : Parse Expr) : Nat → Parse (List Expr × Bool)
  | 0, _ => none
  | fuel + 1, ts =>
    if endsTuple ts then some (([], false), ts)
    else do
      let (e, ts) ← item ts
      match skip? (.mark .comma) ts with
      | (rest, true) => do
        let ((es, _), ts) ← tupleItems item fuel rest
        return ((e :: es, true), ts)
      | (_, false) => some (([e], false), ts)

/-- One expression, or several as a tuple; none at all only in brackets. -/
def tuple (item : Parse Expr) (bracketed : Bool) (fuel : Nat) : Parse Expr := fun ts => do
  let ((es, isTuple), ts) ← tupleItems item fuel ts
  match es, isTuple with
  | [e], false => some (e, ts)
  | [], _ => if bracketed then some (.tuple [], ts) else none
  | es, _ => some (.tuple es, ts)

/-- Expressions up to a closing bracket; a comma may stand behind the last. -/
def listItems (item : Parse Expr) : Nat → Parse (List Expr)
  | 0, _ => none
  | fuel + 1, ts =>
    match skip? (.mark .closeSquare) ts with
    | (rest, true) => some ([], rest)
    | (_, false) => do
      let (e, ts) ← item ts
      match skip? (.mark .comma) ts with
      | (rest, true) => do
        let (es, ts) ← listItems item fuel rest
        return (e :: es, ts)
      | (_, false) => do return ([e], ← expect (.mark .closeSquare) ts)

/-- Arguments up to the closing bracket, those with a name behind those without. -/
def arguments (item : Parse Expr) : Nat → Parse (List Expr × List (String × Expr))
  | 0, _ => none
  | fuel + 1, ts =>
    match ts with
    | ⟨.mark .closeRound, _⟩ :: ts => some (([], []), ts)
    | _ => do
      let (name, rest) := match ts with
        | ⟨.name n, _⟩ :: ⟨.mark .assign, _⟩ :: rest => (some n, rest)
        | ts => (none, ts)
      let (e, ts) ← item rest
      let ((args, named), ts) ← match skip? (.mark .comma) ts with
        | (rest, true) => arguments item fuel rest
        | (_, false) => (expect (.mark .closeRound) ts).map (([], []), ·)
      match name with
      | some n => if args.isEmpty then some (([], (n, e) :: named), ts) else none
      | none => some ((e :: args, named), ts)

/-- The arguments of a call, if there are brackets for them. -/
def maybeArguments (item : Parse Expr) (fuel : Nat) : Parse (List Expr × List (String × Expr)) :=
  fun ts =>
    match skip? (.mark .openRound) ts with
    | (rest, true) => arguments item fuel rest
    | (_, false) => some (([], []), ts)

/-- The further parts of a name with dots. -/
def dotted : Nat → String → Parse String
  | 0, _, _ => none
  | fuel + 1, n, ts =>
    match skip? (.mark .dot) ts with
    | (rest, true) => do
      let (m, ts) ← anyName rest
      dotted fuel (n ++ "." ++ m) ts
    | (_, false) => some (n, ts)

/-- Strings side by side are one. -/
def strings : String → Parse String
  | s, ⟨.string t, _⟩ :: ts => strings (s ++ t) ts
  | s, ts => some (s, ts)

def lineOf : List Token → Nat
  | t :: _ => t.line
  | [] => 0

/-- A bound of a slice, which may be left out. -/
def bound (item : Parse Expr) : Parse (Option Expr)
  | ⟨.mark .colon, l⟩ :: ts => some (none, ⟨.mark .colon, l⟩ :: ts)
  | ⟨.mark .closeSquare, l⟩ :: ts => some (none, ⟨.mark .closeSquare, l⟩ :: ts)
  | ts => do
    let (e, ts) ← item ts
    return (some e, ts)

/-- What stands in square brackets behind an expression. -/
def subscript (item : Parse Expr) (fuel : Nat) (e : Expr) : Parse Expr := fun ts => do
  let (start, ts) ← bound item ts
  match skip? (.mark .colon) ts with
  | (rest, true) => do
    let (stop, ts) ← bound item rest
    let (step, ts) ← match skip? (.mark .colon) ts with
      | (rest, true) => bound item rest
      | (_, false) => some (none, ts)
    return (.slice e start stop step, ← expect (.mark .closeSquare) ts)
  | (_, false) =>
    match start with
    | none => do return (.item e (.tuple []), ← expect (.mark .closeSquare) ts)
    | some index =>
      match skip? (.mark .comma) ts with
      | (rest, true) => do
        let (more, ts) ← listItems item fuel rest
        return (.item e (.tuple (index :: more)), ts)
      | (_, false) => do return (.item e index, ← expect (.mark .closeSquare) ts)

/-- What a name that is no variable means. -/
def constant? : String → Option Literal
  | "true" | "True" => some (.bool true)
  | "false" | "False" => some (.bool false)
  | "none" | "None" => some .none
  | _ => none

/-- Whether the argument of a test may stand behind its name without brackets, and does. -/
def startsOperand : List Token → Bool
  | ⟨.name n, _⟩ :: _ => n != "else" && n != "or" && n != "and"
  | ⟨.string _, _⟩ :: _ | ⟨.number _, _⟩ :: _ | ⟨.decimal _ _, _⟩ :: _
  | ⟨.mark .openSquare, _⟩ :: _ | ⟨.mark .openCurly, _⟩ :: _ => true
  | _ => false

/-! ## Expressions -/

mutual

/-- An expression, with choices by a condition. -/
def expression (fuel : Nat) : Parse Expr := fun ts =>
  match fuel with
  | 0 => none
  | fuel + 1 => do
    let (e, rest) ← disjunction fuel ts
    choices fuel e (lineOf ts) rest
termination_by structural fuel

def choices (fuel : Nat) (e : Expr) (line : Nat) : Parse Expr := fun ts =>
  match fuel with
  | 0 => none
  | fuel + 1 =>
    match skip? (.name "if") ts with
    | (_, false) => some (e, ts)
    | (rest, true) => do
      let (test, ts) ← disjunction fuel rest
      let (otherwise, ts) ← match skip? (.name "else") ts with
        | (rest, true) => (expression fuel rest).map fun (e, ts) => (some e, ts)
        | (_, false) => some (none, ts)
      choices fuel (.choose test e otherwise line) (lineOf ts) ts
termination_by structural fuel

def disjunction (fuel : Nat) : Parse Expr := fun ts =>
  match fuel with
  | 0 => none
  | fuel + 1 => do
    let (e, ts) ← conjunction fuel ts
    chain (conjunction fuel) orOp fuel e ts
termination_by structural fuel

def conjunction (fuel : Nat) : Parse Expr := fun ts =>
  match fuel with
  | 0 => none
  | fuel + 1 => do
    let (e, ts) ← negation fuel ts
    chain (negation fuel) andOp fuel e ts
termination_by structural fuel

def negation (fuel : Nat) : Parse Expr := fun ts =>
  match fuel with
  | 0 => none
  | fuel + 1 =>
    match skip? (.name "not") ts with
    | (rest, true) => do
      let (e, ts) ← negation fuel rest
      return (.not e, ts)
    | (_, false) => do
      let (e, ts) ← sum fuel ts
      let (rest, ts) ← comparisons (sum fuel) fuel ts
      return (if rest.isEmpty then e else .compare e rest, ts)
termination_by structural fuel

def sum (fuel : Nat) : Parse Expr := fun ts =>
  match fuel with
  | 0 => none
  | fuel + 1 => do
    let (e, ts) ← concatenation fuel ts
    chain (concatenation fuel) sumOp fuel e ts
termination_by structural fuel

def concatenation (fuel : Nat) : Parse Expr := fun ts =>
  match fuel with
  | 0 => none
  | fuel + 1 => do
    let (e, ts) ← product fuel ts
    let (es, ts) ← more (product fuel) .tilde fuel ts
    return (if es.isEmpty then e else .concat (e :: es), ts)
termination_by structural fuel

def product (fuel : Nat) : Parse Expr := fun ts =>
  match fuel with
  | 0 => none
  | fuel + 1 => do
    let (e, ts) ← power fuel ts
    chain (power fuel) productOp fuel e ts
termination_by structural fuel

def power (fuel : Nat) : Parse Expr := fun ts =>
  match fuel with
  | 0 => none
  | fuel + 1 => do
    let (e, ts) ← unary fuel true ts
    chain (unary fuel true) powerOp fuel e ts
termination_by structural fuel

/-- An operand with its signs, and with what follows it; filters follow the signs too. -/
def unary (fuel : Nat) (filtered : Bool) : Parse Expr := fun ts =>
  match fuel with
  | 0 => none
  | fuel + 1 => do
    let (e, ts) ← match ts with
      | ⟨.mark .minus, _⟩ :: ts => (unary fuel false ts).map fun (e, ts) => (.neg e, ts)
      | ⟨.mark .plus, _⟩ :: ts => (unary fuel false ts).map fun (e, ts) => (.pos e, ts)
      | ts => primary fuel ts
    let (e, ts) ← postfixes fuel e ts
    if filtered then filters fuel e ts else some (e, ts)
termination_by structural fuel

def primary (fuel : Nat) : Parse Expr := fun ts =>
  match fuel with
  | 0 => none
  | fuel + 1 =>
    match ts with
    | ⟨.name n, _⟩ :: ts => some ((constant? n).elim (.name n) .literal, ts)
    | ⟨.string s, _⟩ :: ts => (strings s ts).map fun (s, ts) => (.literal (.string s), ts)
    | ⟨.number n, _⟩ :: ts => some (.literal (.int n), ts)
    | ⟨.decimal n e, _⟩ :: ts => some (.literal (.decimal n e), ts)
    | ⟨.mark .openRound, _⟩ :: ts => do
      let (e, ts) ← tuple (expression fuel) true fuel ts
      return (e, ← expect (.mark .closeRound) ts)
    | ⟨.mark .openSquare, _⟩ :: ts =>
      (listItems (expression fuel) fuel ts).map fun (es, ts) => (.list es, ts)
    | _ => none
termination_by structural fuel

/-- Attributes, items and calls behind an operand. -/
def postfixes (fuel : Nat) (e : Expr) : Parse Expr := fun ts =>
  match fuel with
  | 0 => none
  | fuel + 1 =>
    match ts with
    | ⟨.mark .dot, _⟩ :: ⟨.name n, _⟩ :: ts => postfixes fuel (.attribute e n) ts
    | ⟨.mark .dot, _⟩ :: ⟨.number n, _⟩ :: ts =>
      postfixes fuel (.item e (.literal (.int n))) ts
    | ⟨.mark .dot, _⟩ :: _ => none
    | ⟨.mark .openSquare, _⟩ :: ts => do
      let (e, ts) ← subscript (expression fuel) fuel e ts
      postfixes fuel e ts
    | ⟨.mark .openRound, _⟩ :: ts => do
      let ((args, named), ts) ← arguments (expression fuel) fuel ts
      postfixes fuel (.call e args named) ts
    | ts => some (e, ts)
termination_by structural fuel

/-- Filters and tests behind an operand, and calls of what they give. -/
def filters (fuel : Nat) (e : Expr) : Parse Expr := fun ts =>
  match fuel with
  | 0 => none
  | fuel + 1 =>
    match ts with
    | ⟨.mark .bar, _⟩ :: ts => do
      let (n, ts) ← anyName ts
      let (n, ts) ← dotted fuel n ts
      let ((args, named), ts) ← maybeArguments (expression fuel) fuel ts
      filters fuel (.filter n e args named) ts
    | ⟨.name "is", _⟩ :: ts => do
      let (ts, negated) := skip? (.name "not") ts
      let (n, ts) ← anyName ts
      let (n, ts) ← dotted fuel n ts
      let ((args, named), ts) ←
        if startsOperand ts then
          if (expect (.name "is") ts).isSome then none
          else do
            let (a, ts) ← primary fuel ts
            let (a, ts) ← postfixes fuel a ts
            pure (([a], []), ts)
        else maybeArguments (expression fuel) fuel ts
      filters fuel (if negated then .not (.test n e args named) else .test n e args named) ts
    | ⟨.mark .openRound, _⟩ :: ts => do
      let ((args, named), ts) ← arguments (expression fuel) fuel ts
      filters fuel (.call e args named) ts
    | ts => some (e, ts)
termination_by structural fuel

end

/-! ## Statements -/

/-- The end of a tag that opens a body; a colon may stand before it. -/
def endTag (ts : List Token) : Option (List Token) := expect .closeTag (skip? (.mark .colon) ts).1

/-- A name that can be assigned to. -/
def assignable : Parse String := fun ts => do
  let (n, ts) ← anyName ts
  if (constant? n).isSome then none else some (n, ts)

mutual

/-- The statements up to a tag that starts with one of the names, and that name.  With no names they
go up to the end of the template. -/
def statements (fuel : Nat) (ends : List String) : Parse (List Statement × String) := fun ts =>
  match fuel with
  | 0 => none
  | fuel + 1 =>
    match ts with
    | [] => if ends.isEmpty then some (([], ""), []) else none
    | ⟨.text s, _⟩ :: ts => do
      let ((rest, last), ts) ← statements fuel ends ts
      return ((.text s :: rest, last), ts)
    | ⟨.openOutput, _⟩ :: ts => do
      let (e, ts) ← tuple (expression fuel) false fuel ts
      let ts ← expect .closeOutput ts
      let ((rest, last), ts) ← statements fuel ends ts
      return ((.output e :: rest, last), ts)
    | ⟨.openTag, _⟩ :: ⟨.name n, l⟩ :: ts =>
      if ends.contains n then some (([], n), ts)
      else do
        let (s, ts) ← statement fuel (⟨.name n, l⟩ :: ts)
        let ts ← expect .closeTag ts
        let ((rest, last), ts) ← statements fuel ends ts
        return ((s :: rest, last), ts)
    | _ => none
termination_by structural fuel

/-- A tag and all that belongs to it, up to the end of its last tag. -/
def statement (fuel : Nat) : Parse Statement := fun ts =>
  match fuel with
  | 0 => none
  | fuel + 1 =>
    match ts with
    | ⟨.name "if", _⟩ :: ts => branch fuel ts
    | ⟨.name "for", _⟩ :: ts => do
      let (v, ts) ← assignable ts
      let ts ← expect (.name "in") ts
      let (source, ts) ← tuple (disjunction fuel) false fuel ts
      let ((body, last), ts) ← statements fuel ["endfor", "else"] (← endTag ts)
      if last = "else" then do
        let ((otherwise, _), ts) ← statements fuel ["endfor"] (← endTag ts)
        return (.loop v source body otherwise, ts)
      else some (.loop v source body [], ts)
    | ⟨.name "set", _⟩ :: ts => do
      let (v, ts) ← assignable ts
      let (e, ts) ← tuple (expression fuel) false fuel (← expect (.mark .assign) ts)
      return (.assign v e, ts)
    | _ => none
termination_by structural fuel

/-- A condition, its body and what else there is. -/
def branch (fuel : Nat) : Parse Statement := fun ts =>
  match fuel with
  | 0 => none
  | fuel + 1 => do
    let (test, ts) ← tuple (disjunction fuel) false fuel ts
    let ((body, last), ts) ← statements fuel ["elif", "else", "endif"] (← endTag ts)
    if last = "elif" then do
      let (next, ts) ← branch fuel ts
      return (.branch test body [next], ts)
    else if last = "else" then do
      let ((otherwise, _), ts) ← statements fuel ["endif"] (← endTag ts)
      return (.branch test body otherwise, ts)
    else some (.branch test body [], ts)
termination_by structural fuel

end

/-- The statements of a template, if it is well formed.  Line ends of all kinds are line feeds. -/
def parse? (text : String) : Option (List Statement) := do
  let ts ← tokens? (Text.unifyLineEnds text.toList)
  let ((body, _), _) ← statements (16 * (ts.length + 1)) [] ts
  return body

end RbsSynth.Template
