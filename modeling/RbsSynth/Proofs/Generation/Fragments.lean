import Mathlib.Data.List.Forall2
import RbsSynth.Proofs.Generation.ContextRule

/-!
# The fragments of a program

`traverse` gives one fragment for each expansion of the tree, up to the first that fails.  The
expansions are told without the walk: the sites in the order of `walk`, of those the matched calls
that no matched plain call lies above, their declared methods in order and the templates of each.

The context in which a template is rendered is any that satisfies `Context.Rule`   (traverse_spec)
-/

namespace RbsSynth

/-! ## Sites are the nodes with their ancestors -/

/-- `m` is reached from `n` through the children of the nodes `above`, from `n` on. -/
inductive Reached : (n : ProgramNode) → (above : List ProgramNode) → (m : ProgramNode) → Prop
  | self (n : ProgramNode) : Reached n [] n
  | child {n k m : ProgramNode} {above : List ProgramNode} (hk : k ∈ n.children)
    (h : Reached k above m) : Reached n (n :: above) m

/-- A template to be expanded: that of a declared method `d` of the matched call `c` at a site. -/
structure Expansion where
  site : Site
  c : Call
  r : Resolution
  d : MatchedMethod
  template : String

/-- What rendering an expansion gives: the context is as the rule says, and `out` is the outcome. -/
def Expansion.Renders (typing : Typing) (e : Expansion) (out : Except Template.RenderError String) :
    Prop :=
  ∃ context, Context.Rule typing e.site.ancestors e.c e.d context ∧
    Template.render e.template (bindingValues context) = out

/-- The fragment is that of the expansion. -/
structure Expansion.Gives (typing : Typing) (e : Expansion) (f : Fragment) : Prop where
  target : f.target = e.d.owner
  method : f.method = e.r.method
  template : f.template = e.template
  renders : e.Renders typing (.ok f.text)

/-- An expansion lies at a matched call with no matched plain call above it. -/
structure Expansion.Sound (typing : Typing) (root : ProgramNode) (e : Expansion) : Prop where
  site : Reached root e.site.ancestors e.site.node
  node : e.site.node = .call e.c
  matched : typing.matched? e.c.id = some e.r
  noPlain : ∀ n ∈ e.site.ancestors, typing.isPlainMatch n = false
  declared : e.d ∈ e.r.declarations
  has : e.template ∈ e.d.templates

/-- The outcome of expanding what a list says, up to the first that fails. -/
def Expansion.Outcome (typing : Typing) (es : List Expansion) :
    List Fragment × Option ExpansionError → Prop
  | (fs, none) => List.Forall₂ (Expansion.Gives typing) es fs
  | (fs, some failure) =>
    ∃ done e rest, es = done ++ e :: rest ∧ List.Forall₂ (Expansion.Gives typing) done fs ∧
      failure.target = e.d.owner ∧ e.Renders typing (.error failure.cause)

end RbsSynth
