import RbsSynth.Template.Eval
import RbsSynth.Template.Parser

/-!
Rendering of templates.

A template that names a filter or test that does not exist is refused before it runs, unless the name
stands under a condition; there it fails when it is met.  What is assigned in the body of a loop is
forgotten at the end of each turn, and what is assigned under a condition is not.
-/

namespace RbsSynth.Template

/-! ## Names of filters and tests -/

mutual

/-- Whether an expression has an unknown filter or test that stands under no condition. -/
def Expr.hasUnknown : Expr → Bool
  | .literal _ => false
  | .name _ => false
  | .list items => anyUnknown items
  | .tuple items => anyUnknown items
  | .attribute e _ => e.hasUnknown
  | .item e index => e.hasUnknown || index.hasUnknown
  | .slice e start stop step =>
    e.hasUnknown || maybeUnknown start || maybeUnknown stop || maybeUnknown step
  | .call f args named => f.hasUnknown || anyUnknown args || namedUnknown named
  | .filter n e args named =>
    (Filter.ofName? n).isNone || e.hasUnknown || anyUnknown args || namedUnknown named
  | .test n e args named =>
    (testOf? n).isNone || e.hasUnknown || anyUnknown args || namedUnknown named
  | .neg e => e.hasUnknown
  | .pos e => e.hasUnknown
  | .not e => e.hasUnknown
  | .and a b => a.hasUnknown || b.hasUnknown
  | .or a b => a.hasUnknown || b.hasUnknown
  | .binary _ a b => a.hasUnknown || b.hasUnknown
  | .concat items => anyUnknown items
  | .compare e rest => e.hasUnknown || chainUnknown rest
  | .choose _ _ _ _ => false
termination_by structural e => e

def anyUnknown : List Expr → Bool
  | [] => false
  | e :: es => e.hasUnknown || anyUnknown es
termination_by structural es => es

def namedUnknown : List (String × Expr) → Bool
  | [] => false
  | (_, e) :: es => e.hasUnknown || namedUnknown es
termination_by structural es => es

def maybeUnknown : Option Expr → Bool
  | none => false
  | some e => e.hasUnknown
termination_by structural e => e

def chainUnknown : List (Comparison × Expr) → Bool
  | [] => false
  | (_, e) :: es => e.hasUnknown || chainUnknown es
termination_by structural es => es

end

mutual

/-- Whether a statement assigns a variable. -/
def Statement.assigns (name : String) : Statement → Bool
  | .text _ => false
  | .output _ => false
  | .branch _ body otherwise => anyAssigns name body || anyAssigns name otherwise
  | .loop v _ body otherwise => v == name || anyAssigns name body || anyAssigns name otherwise
  | .assign v _ => v == name
termination_by structural s => s

def anyAssigns (name : String) : List Statement → Bool
  | [] => false
  | s :: ss => s.assigns name || anyAssigns name ss
termination_by structural ss => ss

end

mutual

/-- Whether a statement is refused: it has an unknown name under no condition, or assigns the state
of its loop. -/
def Statement.isRefused (soft : Bool) : Statement → Bool
  | .text _ => false
  | .output e => !soft && e.hasUnknown
  | .branch _ body otherwise => anyRefused true body || anyRefused true otherwise
  | .loop v source body otherwise =>
    v == "loop" || anyAssigns "loop" body || anyAssigns "loop" otherwise ||
      (!soft && source.hasUnknown) || anyRefused false body || anyRefused false otherwise
  | .assign _ e => !soft && e.hasUnknown
termination_by structural s => s

def anyRefused (soft : Bool) : List Statement → Bool
  | [] => false
  | s :: ss => s.isRefused soft || anyRefused soft ss
termination_by structural ss => ss

end

/-! ## Statements -/

/-- What runs have given so far: the variables, and the printed texts with the last one first. -/
structure Progress where
  scope : Scope
  printed : List String

mutual

def run (p : Progress) (s : Statement) : Except RenderError Progress :=
  match s with
  | .text s => .ok { p with printed := s :: p.printed }
  | .output e => do
    let s ← (← eval p.scope e).display
    return { p with printed := s :: p.printed }
  | .branch test body otherwise => do
    if ← (← eval p.scope test).truth then runAll p body else runAll p otherwise
  | .loop v source body otherwise => do
    let items ← (← eval p.scope source).items
    let turn := fun printed (item, i) => do
      let state := Value.loop i items.length
      let q ← runAll ⟨(v, item) :: ("loop", state) :: p.scope, printed⟩ body
      return q.printed
    let printed ← items.zipIdx.foldlM turn p.printed
    if items.isEmpty then do
      let q ← runAll p otherwise
      return { p with printed := q.printed }
    else return { p with printed := printed }
  | .assign v e => do return { p with scope := (v, ← eval p.scope e) :: p.scope }
termination_by structural s

def runAll (p : Progress) (ss : List Statement) : Except RenderError Progress :=
  match ss with
  | [] => .ok p
  | s :: ss => do runAll (← run p s) ss
termination_by structural ss

end

/-- The text that a template gives with its variables. -/
def render (template : String) (scope : Scope) : Except RenderError String :=
  match parse? template with
  | none => .error .malformed
  | some body =>
    if anyRefused false body then .error .unknownName
    else do
      let p ← runAll ⟨scope, []⟩ body
      return .join p.printed.reverse

end RbsSynth.Template
