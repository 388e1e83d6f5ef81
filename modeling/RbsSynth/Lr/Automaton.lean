import RbsSynth.Lr.Grammar
import RbsSynth.Lr.Row

/-!
The LALR(1) automaton of a grammar.

An item is a production with a dot in its body; items are numbered production after production, so
moving the dot adds one.  A state is the set of its kernel items.

* `close` adds the items that a dot before a nonterminal predicts.
* `successors` moves the dot over each symbol in turn.
* `follow` has, for each transition, the terminals that may come after it: those that can begin what
  comes after its symbol in some item, and, where that can be empty, those that may come after the
  item's own nonterminal where the item began.
* `automaton` has one row a state.  A terminal that leads out of the state is shifted; on any other,
  a complete item is reduced if its nonterminal may be followed by the terminal where the item
  began.
-/

namespace RbsSynth.Lr

/-- A search tree from numbers to values. -/
inductive Tree (α : Type)
  | leaf
  | node (left : Tree α) (key : Nat) (value : α) (right : Tree α)

namespace Tree

variable {α : Type}

def get? (x : Nat) : Tree α → Option α
  | leaf => none
  | node l k v r => bif x.beq k then some v else bif x.blt k then l.get? x else r.get? x

/-- Adds a number that the tree does not hold. -/
def insert (x : Nat) (v : α) : Tree α → Tree α
  | leaf => node leaf x v leaf
  | node l k w r => bif x.blt k then node (l.insert x v) k w r else node l k w (r.insert x v)

/-- Changes the value of a number, if the tree holds it. -/
def modify (x : Nat) (f : α → α) : Tree α → Tree α
  | leaf => leaf
  | node l k v r =>
    bif x.beq k then node l k (f v) r
    else bif x.blt k then node (l.modify x f) k v r else node l k v (r.modify x f)

/-- The values in the order of their numbers, before those of `behind`. -/
def values : Tree α → List α → List α
  | leaf, behind => behind
  | node l _ v r, behind => l.values (v :: r.values behind)

/-- A tree of the given depth on the first elements of a list, numbered from `i` on. -/
def build : Nat → Nat → List α → Tree α × Nat × List α
  | 0, i, xs => (leaf, i, xs)
  | depth + 1, i, xs =>
    match build depth i xs with
    | (left, i, []) => (left, i, [])
    | (left, i, x :: rest) =>
      match build depth i.succ rest with
      | (right, j, rest) => (node left i x right, j, rest)

/-- The elements of a list of fewer than `2 ^ 12`, by their places. -/
def ofList (xs : List α) : Tree α := (build 12 0 xs).1

end Tree

namespace Grammar

variable (g : Grammar)

/-! ## Items -/

/-- A symbol, the items whose dot stands before it, and the items predicted there. -/
structure Mark where
  symbol : Nat
  before : Nat
  predicted : Nat

/-- Enters the items of one production, from number `item` on, at the symbols after their dots. -/
def markItems : Nat → List Nat → Tree Mark → Tree Mark
  | _, [], marks => marks
  | item, x :: xs, marks =>
    markItems item.succ xs
      (marks.modify x fun m => ⟨m.symbol, m.before.lor (single item), m.predicted⟩)

/-- Enters the items of all productions, and the first item of each at its head. -/
def markProductions : Nat → List Production → Tree Mark → Tree Mark
  | _, [], marks => marks
  | item, p :: ps, marks =>
    markProductions (item.add p.body.length.succ) ps (markItems item p.body
      (marks.modify p.head fun m => ⟨m.symbol, m.before, m.predicted.lor (single item)⟩))

/-- For each symbol, the items before it and the first items of its own productions. -/
def openMarks : List Mark :=
  (markProductions 0 g.productions (.ofList ((List.range g.symbols).map (⟨·, 0, 0⟩)))).values []

/-- The marks of the symbols that predict something. -/
def predicting (marks : List Mark) : List Mark := marks.filter fun m => (m.predicted.beq 0).not

/-- Adds to a set of items what its dots predict. -/
def predict : List Mark → Nat → Nat → Nat
  | [], _, acc => acc
  | m :: ms, items, acc =>
    bif disjoint items m.before then predict ms items acc
    else predict ms items (acc.lor m.predicted)

/-- For each symbol, the items before it and all that it predicts. -/
def marks : List Mark :=
  let ms := g.openMarks
  let ps := predicting ms
  ms.map fun m => ⟨m.symbol, m.before, saturate (fun s => predict ps s s) g.symbols m.predicted⟩

/-! ## States -/

/-- A kernel's items together with all that they predict. -/
def close (predicting : List Mark) (kernel : Nat) : Nat := predict predicting kernel kernel

/-- The states that a set of items leads to, by symbol. -/
def successors (items : Nat) : List Mark → List (Nat × Nat)
  | [] => []
  | m :: ms =>
    bif disjoint items m.before then successors items ms
    else (m.symbol, (items.land m.before).shiftLeft 1) :: successors items ms

/-- One transition of a state; `place` numbers the transitions of all states. -/
structure Move where
  symbol : Nat
  place : Nat
  target : Nat

structure State where
  items : Nat
  moves : List Move

/-- A search for states: the numbers of the kernels met so far, how many states and transitions have been
numbered, and the kernels still to be entered, the last first. -/
structure Search where
  known : Tree Nat
  states : Nat
  places : Nat
  found : List Nat

/-- Numbers the transitions of a state, whose targets are given by symbol and kernel, and the states that
were not met before; `moves` has the transitions so far, the last first. -/
def enroll : List (Nat × Nat) → List Move → Search → List Move × Search
  | [], moves, s => (moves.reverse, s)
  | (x, kernel) :: rest, moves, s =>
    match s.known.get? kernel with
    | some i => enroll rest (⟨x, s.places, i⟩ :: moves) ⟨s.known, s.states, s.places.succ, s.found⟩
    | none =>
      enroll rest (⟨x, s.places, s.states⟩ :: moves)
        ⟨s.known.insert kernel s.states, s.states.succ, s.places.succ, kernel :: s.found⟩

/-- Enters kernels in the order in which they were found; `predicting` are the marks of the symbols that
predict something. -/
def explore (marks predicting : List Mark) : Nat → List Nat → Search → List State → List State
  | 0, _, _, done => done.reverse
  | n + 1, [], s, done =>
    match s.found with
    | [] => done.reverse
    | found => explore marks predicting n found.reverse ⟨s.known, s.states, s.places, []⟩ done
  | n + 1, kernel :: todo, s, done =>
    let items := close predicting kernel
    match enroll (successors items marks) [] s with
    | (moves, s) => explore marks predicting n todo s (⟨items, moves⟩ :: done)

/-- The states in the order in which they are found; state `0` begins the root production. -/
def states : List State :=
  let marks := g.marks
  explore marks (predicting marks) (Nat.pow 2 g.productions.length) [1]
    ⟨.node .leaf 1 0 .leaf, 1, 0, []⟩ []

/-! ## Lookahead -/

/-- A state that completes a production, and the transition of the production's head where the body
began. -/
structure Origin where
  state : Nat
  production : Nat
  place : Nat

/-- What the bodies of the productions, read from each state in which they are predicted, say of the
terminals that may follow. -/
structure Survey where
  /-- The terminals that come after a transition in some body, in the row of its place. -/
  direct : Nat
  /-- Transitions whose terminals also come after another transition. -/
  flows : List (Nat × Nat)
  origins : List Origin

def findMove (x : Nat) : List Move → Option Move
  | [] => none
  | m :: ms => bif x.beq m.symbol then some m else findMove x ms

/-- Reads a body from a state, for the transition `place` of its production's head. -/
def surveyBody (nullable first : Nat) (states : Tree State) (place production : Nat) :
    Nat → List Nat → Survey → Survey
  | state, [], s => ⟨s.direct, s.flows, ⟨state, production, place⟩ :: s.origins⟩
  | state, x :: xs, s =>
    match states.get? state with
    | none => s
    | some st => match findMove x st.moves with
      | none => s
      | some m =>
        surveyBody nullable first states place production m.target xs
          (bif x.blt g.terminals then s
          else ⟨s.direct.lor (g.asRow m.place (g.firstOfSeq nullable first xs)),
            bif allIn nullable xs then (place, m.place) :: s.flows else s.flows, s.origins⟩)

/-- Reads the bodies of some productions from a state. -/
def surveyBodies (nullable first : Nat) (states : Tree State) (state place : Nat) :
    List (Nat × List Nat) → Survey → Survey
  | [], s => s
  | (i, body) :: rest, s =>
    surveyBodies nullable first states state place rest
      (g.surveyBody nullable first states place i state body s)

def surveyMoves (nullable first : Nat) (bodies : Tree (List (Nat × List Nat)))
    (states : Tree State) (state : Nat) : List Move → Survey → Survey
  | [], s => s
  | m :: ms, s =>
    surveyMoves nullable first bodies states state ms
      (match bodies.get? m.symbol with
      | none => s
      | some of => g.surveyBodies nullable first states state m.place of s)

def surveyStates (nullable first : Nat) (bodies : Tree (List (Nat × List Nat)))
    (tree : Tree State) : Nat → List State → Survey → Survey
  | _, [], s => s
  | i, st :: rest, s =>
    surveyStates nullable first bodies tree i.succ rest
      (g.surveyMoves nullable first bodies tree i st.moves s)

/-- Enters the bodies of the productions, with their numbers from `i` on, at their heads. -/
def bodiesByHead : Nat → List Production → Tree (List (Nat × List Nat)) →
    Tree (List (Nat × List Nat))
  | _, [], bodies => bodies
  | i, p :: ps, bodies => (bodiesByHead i.succ ps bodies).modify p.head ((i, p.body) :: ·)

/-- How many transitions there are. -/
def countMoves : List State → Nat → Nat
  | [], n => n
  | st :: rest, n => countMoves rest (n.add st.moves.length)

/-- All bodies read from all states; the root's own head counts as the transition after the last, and
the end mark comes after it. -/
def survey (states : List State) : Survey :=
  let nullable := g.nullable
  let first := g.first
  let tree := Tree.ofList states
  let last := countMoves states 0
  let rooted := match g.productions with
    | [] => ⟨0, [], []⟩
    | p :: _ => g.surveyBody nullable first tree last 0 0 p.body
        ⟨g.asRow last (single g.endMark), [], []⟩
  let bodies := bodiesByHead 0 g.productions (.ofList ((List.range g.symbols).map fun _ => []))
  g.surveyStates nullable first bodies tree 0 states rooted

def growFollow : List (Nat × Nat) → Nat → Nat
  | [], follow => follow
  | (source, target) :: rest, follow =>
    growFollow rest (follow.lor (g.asRow target (g.row follow source)))

/-- The terminals that may come after each transition. -/
def follow (s : Survey) : Nat := saturate (g.growFollow s.flows.reverse) s.flows.length s.direct

/-- Adds terminals to those before which a production is reduced; the productions are kept in order. -/
def addLookahead (p set : Nat) : List (Nat × Nat) → List (Nat × Nat)
  | [] => [(p, set)]
  | (q, other) :: rest =>
    bif p.beq q then (q, other.lor set) :: rest
    else bif p.blt q then (p, set) :: (q, other) :: rest
    else (q, other) :: addLookahead p set rest

/-- For each state, the productions that it completes with the terminals before which they are
reduced. -/
def lookaheads (follow : Nat) : List Origin → Tree (List (Nat × Nat)) → Tree (List (Nat × Nat))
  | [], tree => tree
  | o :: rest, tree =>
    lookaheads follow rest (tree.modify o.state (addLookahead o.production (g.row follow o.place)))

/-! ## Rows -/

def setOf : List (Nat × Nat) → Nat
  | [] => 0
  | (x, _) :: rest => (single x).lor (setOf rest)

/-- The reductions of a state, before terminals that it does not shift. -/
def reductions (shifted : Nat) : List (Nat × Nat) → List (Nat × Nat)
  | [] => []
  | (p, set) :: rest =>
    let free := set.xor (set.land shifted)
    bif free.beq 0 then reductions shifted rest else (p, free) :: reductions shifted rest

def pick (keep : Nat → Bool) : List Move → List (Nat × Nat)
  | [] => []
  | m :: ms => bif keep m.symbol then (m.symbol, m.target) :: pick keep ms else pick keep ms

def rows : List (List (Nat × Nat)) → List State → List Row
  | lookaheads :: more, st :: rest =>
    let shifts := pick (fun x => x.blt g.terminals) st.moves
    ⟨shifts, reductions (setOf shifts) lookaheads, pick (fun x => (x.blt g.terminals).not) st.moves⟩
    :: rows more rest
  | _, _ => []

/-- The LALR(1) automaton. -/
def automaton : List Row :=
  let states := g.states
  let survey := g.survey states
  let lookaheads := g.lookaheads (g.follow survey) survey.origins (.ofList (states.map fun _ => []))
  g.rows (lookaheads.values []) states

end Grammar

end RbsSynth.Lr
