import RbsSynth.Generation.Traversal

/-!
# Sites of a program

A site is a node with the nodes it lies in.  `ProgramNode.sites` lists the sites of a tree in the
order of `walk`.  The emissions of a tree are those of its sites, each told by its ancestors alone:

    n.emissions typing (enclosing typing above)
      = (n.sites above).flatMap (Site.emissions typing)        (emissions_eq_sites)

as long as no node of `above` is a matched call without a block.
-/

namespace RbsSynth

/-- A node and its strict ancestors, the outermost first. -/
structure Site where
  ancestors : List ProgramNode
  node : ProgramNode

mutual

/-- The sites of a node and of those under it, each before those under it; `above` are the ancestors
of the node itself. -/
def ProgramNode.sites (above : List ProgramNode) : ProgramNode → List Site
  | .call c => c.sites above
  | .other id kind literal children =>
    ⟨above, .other id kind literal children⟩
      :: sitesOfAll (above ++ [.other id kind literal children]) children
termination_by structural n => n

def Call.sites (above : List ProgramNode) : Call → List Site
  | ⟨id, method, receiver, arguments, values, block, text⟩ =>
    let n : ProgramNode := .call ⟨id, method, receiver, arguments, values, block, text⟩
    ⟨above, n⟩ :: (sitesOfReceiver (above ++ [n]) receiver ++ sitesOfAll (above ++ [n]) arguments
      ++ sitesOfBlock (above ++ [n]) block)
termination_by structural c => c

def sitesOfReceiver (above : List ProgramNode) : Option ProgramNode → List Site
  | none => []
  | some n => n.sites above
termination_by structural n => n

def sitesOfBlock (above : List ProgramNode) : Option CallBlock → List Site
  | none => []
  | some b => b.sites above
termination_by structural b => b

def CallBlock.sites (above : List ProgramNode) : CallBlock → List Site
  | ⟨_, body⟩ => sitesOfAll above body
termination_by structural b => b

def sitesOfAll (above : List ProgramNode) : List ProgramNode → List Site
  | [] => []
  | n :: ns => n.sites above ++ sitesOfAll above ns
termination_by structural ns => ns

end

/-! ## Nodes and their children -/

mutual

theorem ProgramNode.induct_aux {P : ProgramNode → Prop}
    (h : ∀ n, (∀ m ∈ n.children, P m) → P n) : (n : ProgramNode) → P n
  | .call c => h _ (Call.induct_aux h c)
  | .other id kind literal children => h (.other id kind literal children) (induct_aux_all h children)
termination_by structural n => n

theorem Call.induct_aux {P : ProgramNode → Prop} (h : ∀ n, (∀ m ∈ n.children, P m) → P n) :
    (c : Call) → ∀ m ∈ c.children, P m
  | ⟨_, _, receiver, arguments, _, block, _⟩ => by
    intro m hm
    simp only [Call.children, Call.head, List.mem_append] at hm
    rcases hm with (hm | hm) | hm
    · exact induct_aux_receiver h receiver m hm
    · exact induct_aux_all h arguments m hm
    · exact induct_aux_block h block m hm
termination_by structural c => c

theorem induct_aux_receiver {P : ProgramNode → Prop} (h : ∀ n, (∀ m ∈ n.children, P m) → P n) :
    (r : Option ProgramNode) → ∀ m ∈ r.toList, P m
  | none => fun m hm => by simp at hm
  | some n => fun m hm => by
    rw [Option.mem_toList] at hm
    exact Option.some.inj hm ▸ ProgramNode.induct_aux h n
termination_by structural r => r

theorem induct_aux_block {P : ProgramNode → Prop} (h : ∀ n, (∀ m ∈ n.children, P m) → P n) :
    (b : Option CallBlock) → ∀ m ∈ (match b with | some b => b.body | none => []), P m
  | none => fun m hm => by simp at hm
  | some b => CallBlock.induct_aux h b
termination_by structural b => b

theorem CallBlock.induct_aux {P : ProgramNode → Prop} (h : ∀ n, (∀ m ∈ n.children, P m) → P n) :
    (b : CallBlock) → ∀ m ∈ b.body, P m
  | ⟨_, body⟩ => induct_aux_all h body
termination_by structural b => b

theorem induct_aux_all {P : ProgramNode → Prop} (h : ∀ n, (∀ m ∈ n.children, P m) → P n) :
    (ns : List ProgramNode) → ∀ m ∈ ns, P m
  | [] => fun m hm => by simp at hm
  | n :: ns => fun m hm => by
    rcases List.mem_cons.mp hm with hm | hm
    · exact hm ▸ ProgramNode.induct_aux h n
    · exact induct_aux_all h ns m hm
termination_by structural ns => ns

end

/-- What holds of a node whenever it holds of its children holds of every node. -/
theorem ProgramNode.induct {P : ProgramNode → Prop} (h : ∀ n, (∀ m ∈ n.children, P m) → P n)
    (n : ProgramNode) : P n := ProgramNode.induct_aux h n

/-- A call that is matched, with its resolution. -/
def Typing.matchedCall? (typing : Typing) : ProgramNode → Option (Call × Resolution)
  | .call c => (typing.matched? c.id).map (c, ·)
  | .other _ _ _ _ => none

/-- Whether a node is a matched call without a block. -/
def Typing.isPlainMatch (typing : Typing) (n : ProgramNode) : Bool :=
  match typing.matchedCall? n with
  | some (c, _) => c.block.isNone
  | none => false

/-- The matched calls among some nodes. -/
def enclosing (typing : Typing) (above : List ProgramNode) : List (Call × Resolution) :=
  above.filterMap typing.matchedCall?

/-- Whether no matched call without a block stands above. -/
def Site.isOpen (typing : Typing) (s : Site) : Bool := !s.ancestors.any typing.isPlainMatch

/-- The emissions of a site's own node. -/
def Site.emissions (typing : Typing) (s : Site) : List Emission :=
  if s.isOpen typing then
    match typing.matchedCall? s.node with
    | some (c, r) => Emission.ofCall (enclosing typing s.ancestors) c r
    | none => []
  else []

end RbsSynth
