import Mathlib.Data.List.Forall2
import RbsSynth.Proofs.Analysis.Entered

/-!
# Trees that differ inside of bodies

`Alike` is told of two trees, each with the text that it stands for, which agree outside of some bodies:
those of methods, classes, modules, blocks and lambdas.  The nodes inside have numbers of their own
(`inner`).  An expression has the same type in both, wherever the same is known of the variables and of
the calls outside:

    Alike t t'  →  infer v t = infer v' t'                                             (infer_alike)
-/

namespace RbsSynth.Analysis

open Signature

namespace Tree

/-! ## Nodes outside of bodies -/

/-- The kinds of nodes whose own text is read. -/
def textKinds : List String := ["identifier", "constant", "global_variable"]

/-- The fields of the nodes whose own text is read. -/
def textFields : List String := ["method", "name"]

/-- What a node declares besides parameters of methods: the names in order, and for a block the names
that are given a type. -/
def declared (source : List Char) (t : Tree) : List String × List (Option String) :=
  match t.kind with
  | "left_assignment_list" | "destructured_left_assignment" | "destructured_parameter" =>
    (t.identifiers source, [])
  | "lambda" => ((t.child? "parameters").elim [] (·.identifiers source), [])
  | "block" | "do_block" =>
    t.blockParameters?.elim ([], []) fun ps => (ps.identifiers source, ps.parameterNames source)
  | _ => ([], [])

/-- Two nodes outside of bodies agree.  A path that goes through a body is no path of constants; with
`strict`, both nodes declare the same names.  Arguments and blocks are what they are in programs without
faults. -/
structure Outside (inner : Nat → Prop) (strict : Prop) (source source' : List Char) (t t' : Tree) :
    Prop where
  outer : ¬ inner t.id
  id : t.id = t'.id
  kind : t.kind = t'.kind
  field : t.field = t'.field
  named : t.named = t'.named
  text : t.kind ∈ textKinds ∨ t.field ∈ textFields → t.text source = t'.text source'
  path : t.kind = "scope_resolution" → t.text source = t'.text source' ∨
    isConstantPath (t.text source) = false ∧ isConstantPath (t'.text source') = false
  declared : strict → t.declared source = t'.declared source'
  arguments : t.field = "arguments" → t.kind = "argument_list"
  block : t.field = "block" → t.isBlock = true

/-- Nodes beside each other inside of a body. -/
structure Statements (inner : Nat → Prop) (ts : List Tree) : Prop where
  inside : ∀ t ∈ ts, ∀ i ∈ t.ids, inner i
  field : ∀ t ∈ ts, t.field = "" ∨ t.field = "body"
  kind : ∀ t ∈ ts, t.kind ∉ ["superclass", "method_parameters", "block_parameters"]

/-- The kinds of nodes with a body of their own. -/
def definitionKinds : List String :=
  ["class", "module", "singleton_class", "method", "singleton_method"]

mutual

/-- Two trees agree outside of some bodies. -/
inductive Alike (inner : Nat → Prop) (strict : Prop) (source source' : List Char) : Tree → Tree → Prop
  | node {t t' : Tree} (outside : Outside inner strict source source' t t')
    (children : List.Forall₂ (Alike inner strict source source') t.children t'.children) :
    Alike inner strict source source' t t'
  /-- A class, module or method, with other statements. -/
  | definition {t t' : Tree} {front front' body body' : List Tree}
    (outside : Outside inner strict source source' t t') (kind : t.kind ∈ definitionKinds)
    (named : t.kind = "class" ∨ t.kind = "module" → (t.child? "name").isSome)
    (children : t.children = front ++ body) (children' : t'.children = front' ++ body')
    (agree : List.Forall₂ (Alike inner strict source source') front front')
    (statements : Statements inner body) (statements' : Statements inner body') :
    Alike inner strict source source' t t'
  /-- A call or lambda, with other statements in its block. -/
  | block {t t' b b' : Tree} {front front' : List Tree}
    (outside : Outside inner strict source source' t t') (kind : t.kind = "call" ∨ t.kind = "lambda")
    (children : t.children = front ++ [b]) (children' : t'.children = front' ++ [b'])
    (agree : List.Forall₂ (Alike inner strict source source') front front')
    (field : b.field = "block" ∨ b.field = "body") (last : AlikeBlock inner strict source source' b b') :
    Alike inner strict source source' t t'

/-- Two blocks agree but for their statements. -/
inductive AlikeBlock (inner : Nat → Prop) (strict : Prop) (source source' : List Char) :
    Tree → Tree → Prop
  | mk {b b' : Tree} {front front' body body' : List Tree}
    (outside : Outside inner strict source source' b b') (isBlock : b.isBlock = true)
    (children : b.children = front ++ body) (children' : b'.children = front' ++ body')
    (agree : List.Forall₂ (Alike inner strict source source') front front')
    (statements : Statements inner body) (statements' : Statements inner body') :
    AlikeBlock inner strict source source' b b'

end

variable {inner : Nat → Prop} {strict : Prop} {source source' : List Char} {t t' : Tree}

instance {inner : Nat → Prop} {strict : Prop} {source source' : List Char} {t t' : Tree}
    [DecidablePred inner] [Decidable strict] : Decidable (Outside inner strict source source' t t') :=
  decidable_of_iff
    (¬ inner t.id ∧ t.id = t'.id ∧ t.kind = t'.kind ∧ t.field = t'.field ∧ t.named = t'.named ∧
      (t.kind ∈ textKinds ∨ t.field ∈ textFields → t.text source = t'.text source') ∧
      (t.kind = "scope_resolution" → t.text source = t'.text source' ∨
        isConstantPath (t.text source) = false ∧ isConstantPath (t'.text source') = false) ∧
      (strict → t.declared source = t'.declared source') ∧
      (t.field = "arguments" → t.kind = "argument_list") ∧ (t.field = "block" → t.isBlock = true))
    ⟨fun ⟨outer, id, kind, field, named, text, path, declared, arguments, block⟩ =>
      ⟨outer, id, kind, field, named, text, path, declared, arguments, block⟩,
    fun ⟨outer, id, kind, field, named, text, path, declared, arguments, block⟩ =>
      ⟨outer, id, kind, field, named, text, path, declared, arguments, block⟩⟩

theorem Alike.outside (h : Alike inner strict source source' t t') :
    Outside inner strict source source' t t' := by
  cases h with
  | node outside => exact outside
  | definition outside => exact outside
  | block outside => exact outside

mutual

/-- A tree stands for the same in two texts, if each node does. -/
theorem alike_self : (t : Tree) → (∀ c ∈ t.nodes, Outside inner strict source source' c c) →
    Alike inner strict source source' t t
  | ⟨_, _, _, _, _, _, _, _, children⟩, h =>
    .node (h _ (mem_nodes_self _)) (alike_all children fun c hc => h c (List.mem_cons_of_mem _ hc))
termination_by structural t => t

theorem alike_all : (ts : List Tree) → (∀ c ∈ nodesOfAll ts, Outside inner strict source source' c c) →
    List.Forall₂ (Alike inner strict source source') ts ts
  | [], _ => .nil
  | t :: ts, h => .cons (alike_self t fun c hc => h c (List.mem_append_left _ hc))
    (alike_all ts fun c hc => h c (List.mem_append_right _ hc))
termination_by structural ts => ts

end

/-- A call by the name of its method, with a block. -/
theorem Alike.ofBlock {m m' b b' : Tree} (outside : Outside inner strict source source' t t')
    (kind : t.kind = "call") (children : t.children = [m, b]) (children' : t'.children = [m', b'])
    (method : Alike inner strict source source' m m') (field : b.field = "block")
    (last : AlikeBlock inner strict source source' b b') : Alike inner strict source source' t t' :=
  .block outside (.inl kind) (children.trans (List.singleton_append (x := m)).symm)
    (children'.trans (List.singleton_append (x := m')).symm) (.cons method .nil) (.inl field) last

/-- Blocks without parameters. -/
theorem AlikeBlock.ofStatements (outside : Outside inner strict source source' t t')
    (isBlock : t.isBlock = true) (statements : Statements inner t.children)
    (statements' : Statements inner t'.children) : AlikeBlock inner strict source source' t t' :=
  .mk outside isBlock (List.nil_append _).symm (List.nil_append _).symm .nil statements statements'

theorem AlikeBlock.outside (h : AlikeBlock inner strict source source' t t') :
    Outside inner strict source source' t t' := by
  cases h with
  | mk outside => exact outside

theorem Statements.nil : Statements inner [] :=
  ⟨List.forall_mem_nil _, List.forall_mem_nil _, List.forall_mem_nil _⟩

/-- Where there is no body, all children agree. -/
theorem Alike.children (h : Alike inner strict source source' t t') (hk : t.kind ∉ definitionKinds)
    (hcall : t.kind ≠ "call") (hlambda : t.kind ≠ "lambda") :
    List.Forall₂ (Alike inner strict source source') t.children t'.children := by
  cases h with
  | node _ children => exact children
  | definition _ kind => exact absurd kind hk
  | block _ kind => exact (kind.elim hcall hlambda).elim

/-- The children of a definition, split before its statements. -/
theorem Alike.split (h : Alike inner strict source source' t t') (hk : t.kind ∈ definitionKinds) :
    ∃ front front' body body', t.children = front ++ body ∧ t'.children = front' ++ body' ∧
      List.Forall₂ (Alike inner strict source source') front front' ∧ Statements inner body ∧
        Statements inner body' := by
  cases h with
  | node _ children =>
    exact ⟨_, _, [], [], (List.append_nil _).symm, (List.append_nil _).symm, children, .nil, .nil⟩
  | definition _ _ _ children children' agree statements statements' =>
    exact ⟨_, _, _, _, children, children', agree, statements, statements'⟩
  | block _ kind =>
    rcases kind with h | h
    · rw [h] at hk
      exact absurd hk (by decide)
    · rw [h] at hk
      exact absurd hk (by decide)

/-- The children of a call or lambda, split before its block. -/
theorem Alike.splitBlock (h : Alike inner strict source source' t t')
    (hk : t.kind = "call" ∨ t.kind = "lambda") :
    ∃ front front' last last', t.children = front ++ last ∧ t'.children = front' ++ last' ∧
      List.Forall₂ (Alike inner strict source source') front front' ∧
        (last = [] ∧ last' = [] ∨ ∃ b b', last = [b] ∧ last' = [b'] ∧
          (b.field = "block" ∨ b.field = "body") ∧ AlikeBlock inner strict source source' b b') := by
  cases h with
  | node _ children =>
    exact ⟨_, _, [], [], (List.append_nil _).symm, (List.append_nil _).symm, children,
      .inl ⟨rfl, rfl⟩⟩
  | definition _ kind =>
    rcases hk with h | h
    · rw [h] at kind
      exact absurd kind (by decide)
    · rw [h] at kind
      exact absurd kind (by decide)
  | block _ _ children children' agree field last =>
    exact ⟨_, _, _, _, children, children', agree, .inr ⟨_, _, rfl, rfl, field, last⟩⟩

theorem isBlock_iff {t : Tree} : t.isBlock = true ↔ t.kind = "block" ∨ t.kind = "do_block" := by
  rw [isBlock, Bool.or_eq_true, beq_iff_eq, beq_iff_eq]

/-- A block all of which agrees is one that agrees but for its statements. -/
theorem Alike.asBlock (h : Alike inner strict source source' t t') (hk : t.isBlock = true) :
    AlikeBlock inner strict source source' t t' := by
  have hchildren : List.Forall₂ (Alike inner strict source source') t.children t'.children := by
    rcases isBlock_iff.mp hk with hk | hk
    · exact h.children (by rw [hk]; decide) (by rw [hk]; decide) (by rw [hk]; decide)
    · exact h.children (by rw [hk]; decide) (by rw [hk]; decide) (by rw [hk]; decide)
  exact .mk h.outside hk (List.append_nil _).symm (List.append_nil _).symm hchildren .nil .nil

/-! ## Children -/

section

variable {ts ts' : List Tree}

theorem forall₂_find? {R : Tree → Tree → Prop} {p : Tree → Bool} (h : List.Forall₂ R ts ts')
    (hp : ∀ t t', R t t' → p t = p t') :
    Option.Rel R (ts.find? p) (ts'.find? p) := by
  induction h with
  | nil => exact .none
  | @cons t t' _ _ ht _ ih =>
    rw [List.find?_cons, List.find?_cons, ← hp t t' ht]
    cases p t with
    | true => exact .some ht
    | false => exact ih

theorem forall₂_filter {R : Tree → Tree → Prop} {p : Tree → Bool} (h : List.Forall₂ R ts ts')
    (hp : ∀ t t', R t t' → p t = p t') : List.Forall₂ R (ts.filter p) (ts'.filter p) :=
  List.rel_filter (fun t t' ht => Bool.eq_iff_iff.mp (hp t t' ht)) h

theorem forall₂_mem {R : Tree → Tree → Prop} (h : List.Forall₂ R ts ts') :
    List.Forall₂ (fun t t' => t ∈ ts ∧ t' ∈ ts' ∧ R t t') ts ts' := by
  induction h with
  | nil => exact .nil
  | cons ht _ ih =>
    refine .cons ⟨List.mem_cons_self, List.mem_cons_self, ht⟩ (ih.imp fun _ _ ⟨hc, hc', h⟩ => ?_)
    exact ⟨List.mem_cons_of_mem _ hc, List.mem_cons_of_mem _ hc', h⟩

theorem forall₂_any {R : Tree → Tree → Prop} {p : Tree → Bool} (h : List.Forall₂ R ts ts')
    (hp : ∀ t t', R t t' → p t = p t') : ts.any p = ts'.any p := by
  induction h with
  | nil => rfl
  | @cons t t' _ _ ht _ ih => rw [List.any_cons, List.any_cons, hp t t' ht, ih]

end

variable {ts ts' : List Tree}

theorem Outside.isCode (h : Outside inner strict source source' t t') : t.isCode = t'.isCode := by
  rw [Tree.isCode, Tree.isCode, h.named, h.kind]

theorem Outside.isBlock (h : Outside inner strict source source' t t') : t.isBlock = t'.isBlock := by
  rw [Tree.isBlock, Tree.isBlock, h.kind]

/-- The kinds of nodes that declare all the names at and under them. -/
def targetKinds : List String :=
  ["left_assignment_list", "destructured_left_assignment", "destructured_parameter"]

theorem declared_of_target (source : List Char) (hk : t.kind ∈ targetKinds) :
    t.declared source = (t.identifiers source, []) := by
  simp only [targetKinds, List.mem_cons, List.not_mem_nil, or_false] at hk
  rcases hk with hk | hk | hk
  · simp only [Tree.declared, hk]
  · simp only [Tree.declared, hk]
  · simp only [Tree.declared, hk]

theorem Outside.identifiers (h : Outside inner strict source source' t t') (hstrict : strict)
    (hk : t.kind ∈ targetKinds) : t.identifiers source = t'.identifiers source' := by
  have hdeclared := h.declared hstrict
  rw [declared_of_target source hk, declared_of_target source' (h.kind ▸ hk)] at hdeclared
  exact (Prod.mk.inj hdeclared).1

theorem forall₂_isCode (h : List.Forall₂ (Alike inner strict source source') ts ts') :
    List.Forall₂ (Alike inner strict source source') (ts.filter Tree.isCode) (ts'.filter Tree.isCode) :=
  forall₂_filter h fun _ _ ht => ht.outside.isCode

theorem Statements.mono {us : List Tree} (h : Statements inner ts) (hsub : us ⊆ ts) :
    Statements inner us where
  inside t ht := h.inside t (hsub ht)
  field t ht := h.field t (hsub ht)
  kind t ht := h.kind t (hsub ht)

theorem Statements.filter (h : Statements inner ts) (p : Tree → Bool) :
    Statements inner (ts.filter p) := h.mono (List.filter_subset_self ts)

/-- The parts of a definition, split before its statements. -/
theorem Alike.splitParts (h : Alike inner strict source source' t t') (hk : t.kind ∈ definitionKinds) :
    ∃ front front' body body', t.parts = front ++ body ∧ t'.parts = front' ++ body' ∧
      List.Forall₂ (Alike inner strict source source') front front' ∧ Statements inner body ∧
        Statements inner body' := by
  obtain ⟨front, front', body, body', hc, hc', hagree, hbody, hbody'⟩ := h.split hk
  refine ⟨_, _, _, _, ?_, ?_, forall₂_isCode hagree, hbody.filter isCode, hbody'.filter isCode⟩
  · rw [Tree.parts, hc, List.filter_append]
  · rw [Tree.parts, hc', List.filter_append]

/-- Fields that no statement has, and no block that is told of. -/
def outerFields : List String := ["name", "value", "object", "receiver", "method", "arguments", "parameters",
  "left", "right"]

theorem Statements.child (h : Statements inner ts) {field : String} (hf : field ∈ outerFields) :
    ts.find? (·.field == field) = none := by
  refine List.find?_eq_none.mpr fun t ht hfield => ?_
  have hfield : t.field = field := eq_of_beq hfield
  rw [← hfield] at hf
  rcases h.field t ht with h | h
  · rw [h] at hf
    exact absurd hf (by decide)
  · rw [h] at hf
    exact absurd hf (by decide)

/-- A child outside of bodies agrees. -/
theorem Alike.child (h : Alike inner strict source source' t t') (field : String)
    (hf : field ∈ outerFields) :
    Option.Rel (Alike inner strict source source') (t.child? field) (t'.child? field) := by
  have hagree : ∀ {ts ts'}, List.Forall₂ (Alike inner strict source source') ts ts' →
      Option.Rel (Alike inner strict source source') (ts.find? (·.field == field))
        (ts'.find? (·.field == field)) := fun h =>
    forall₂_find? h fun c c' hc => by rw [hc.outside.field]
  unfold child?
  cases h with
  | node _ children => exact hagree children
  | definition _ _ _ children children' agree statements statements' =>
    rw [children, children', List.find?_append, List.find?_append, statements.child hf,
      statements'.child hf, Option.or_none, Option.or_none]
    exact hagree agree
  | @block _ _ b b' _ _ _ _ children children' agree hfield last =>
    have hb : (b.field == field) = false := by
      refine beq_eq_false_iff_ne.mpr fun he => ?_
      rw [← he] at hf
      rcases hfield with h | h
      · rw [h] at hf
        exact absurd hf (by decide)
      · rw [h] at hf
        exact absurd hf (by decide)
    have hnone : [b].find? (·.field == field) = none := by rw [List.find?_cons, hb, List.find?_nil]
    have hnone' : [b'].find? (·.field == field) = none := by
      rw [List.find?_cons, ← last.outside.field, hb, List.find?_nil]
    rw [children, children', List.find?_append, List.find?_append, hnone, hnone', Option.or_none,
      Option.or_none]
    exact hagree agree

theorem Alike.child_cases (h : Alike inner strict source source' t t') (field : String)
    (hf : field ∈ outerFields) : (t.child? field = none ∧ t'.child? field = none) ∨
      ∃ c c', t.child? field = some c ∧ t'.child? field = some c' ∧
        Alike inner strict source source' c c' := by
  have hchild := h.child field hf
  generalize t.child? field = o at hchild ⊢
  generalize t'.child? field = o' at hchild ⊢
  cases hchild with
  | none => exact .inl ⟨rfl, rfl⟩
  | some hc => exact .inr ⟨_, _, rfl, rfl, hc⟩

theorem Alike.parts (h : Alike inner strict source source' t t') (hk : t.kind ∉ definitionKinds)
    (hcall : t.kind ≠ "call") (hlambda : t.kind ≠ "lambda") :
    List.Forall₂ (Alike inner strict source source') t.parts t'.parts :=
  forall₂_isCode (h.children hk hcall hlambda)

theorem Alike.argumentList (h : Alike inner strict source source' t t') :
    List.Forall₂ (Alike inner strict source source') t.arguments t'.arguments := by
  have hargs := h.child "arguments" (by decide)
  rw [Tree.arguments, Tree.arguments]
  generalize ha : t.child? "arguments" = a at hargs
  generalize t'.child? "arguments" = a' at hargs
  cases hargs with
  | none => exact .nil
  | @some a a' h =>
    have hk := h.outside.arguments (field_of_child ha)
    exact h.parts (by rw [hk]; decide) (by rw [hk]; decide) (by rw [hk]; decide)

theorem Alike.childText (h : Alike inner strict source source' t t') (field : String)
    (hf : field ∈ textFields) :
    (t.child? field).map (·.text source) = (t'.child? field).map (·.text source') := by
  have houter : ∀ field ∈ textFields, field ∈ outerFields := by decide
  rcases h.child_cases field (houter field hf) with ⟨hc, hc'⟩ | ⟨c, c', hc, hc', halike⟩
  · rw [hc, hc']
    rfl
  · rw [hc, hc', Option.map_some, Option.map_some,
      halike.outside.text (.inr (field_of_child hc ▸ hf))]

theorem Statements.inner_id (h : Statements inner ts) {c : Tree} (hc : c ∈ ts) : inner c.id :=
  h.inside c hc c.id (List.mem_map.mpr ⟨c, c.mem_nodes_self, rfl⟩)

theorem Alike.child_id (h : Alike inner strict source source' t t') (field : String)
    (hf : field ∈ outerFields) (i : Nat) :
    (t'.child? field).any (·.id = i) = (t.child? field).any (·.id = i) := by
  rcases h.child_cases field hf with ⟨hc, hc'⟩ | ⟨c, c', hc, hc', halike⟩
  · rw [hc, hc']
  · rw [hc, hc', Option.any_some, Option.any_some, halike.outside.id]

/-- No node inside has the number of a child outside. -/
theorem Alike.child_id_inner (h : Alike inner strict source source' t t') (field : String)
    (hf : field ∈ outerFields) {i : Nat} (hi : inner i) :
    (t.child? field).any (·.id = i) = false := by
  rcases h.child_cases field hf with ⟨hc, -⟩ | ⟨c, c', hc, -, halike⟩
  · rw [hc]
    rfl
  · rw [hc, Option.any_some]
    exact decide_eq_false fun he => halike.outside.outer (he ▸ hi)

/-- A class or module without a name agrees all through. -/
theorem Alike.parts_of_unnamed (h : Alike inner strict source source' t t')
    (hk : t.kind = "class" ∨ t.kind = "module") (hname : t.child? "name" = none) :
    List.Forall₂ (Alike inner strict source source') t.parts t'.parts := by
  cases h with
  | node _ children => exact forall₂_isCode children
  | definition _ _ named =>
    have hsome := named hk
    rw [hname] at hsome
    cases hsome
  | block _ kind =>
    rcases hk with hk | hk
    · exact absurd (hk ▸ kind) (by decide)
    · exact absurd (hk ▸ kind) (by decide)

theorem Alike.parameterName? (h : Alike inner strict source source' t t') :
    t.parameterName? source = t'.parameterName? source' := by
  unfold Tree.parameterName?
  rw [← h.outside.kind, h.childText "name" (by decide)]
  split
  · next hk => rw [h.outside.text (.inl (by rw [hk]; decide))]
  · rfl

/-- What a call tells of its arguments. -/
theorem forall₂_arguments (h : List.Forall₂ (Alike inner strict source source') ts ts') :
    (⟨(ts.filter isPositional).length, ts.any isSplat, ts.any (·.kind == "pair")⟩ : Arguments)
      = ⟨(ts'.filter isPositional).length, ts'.any isSplat, ts'.any (·.kind == "pair")⟩ := by
  have hpositional : (ts.filter isPositional).length = (ts'.filter isPositional).length :=
    (forall₂_filter h fun _ _ ht => by
      rw [isPositional, isPositional, ht.outside.kind]).length_eq
  have hsplat : ts.any isSplat = ts'.any isSplat := forall₂_any h fun _ _ ht => by
    rw [isSplat, isSplat, ht.outside.kind]
  have hpair : ts.any (·.kind == "pair") = ts'.any (·.kind == "pair") := forall₂_any h fun _ _ ht => by
    rw [ht.outside.kind]
  rw [hpositional, hsplat, hpair]

/-! ### Blocks -/

/-- The statements at a part of a block. -/
def statementsAt (c : Tree) : List Tree :=
  if c.kind = "block_parameters" then []
  else if c.kind = "block_body" ∨ c.kind = "body_statement" then c.parts
  else [c]

theorem body_eq (b : Tree) : b.body = b.parts.flatMap statementsAt := rfl

theorem forall₂_statementsAt (h : t.Alike inner strict source source' t') :
    List.Forall₂ (Alike inner strict source source') t.statementsAt t'.statementsAt := by
  unfold statementsAt
  rw [← h.outside.kind]
  split
  · exact .nil
  · split
    · next hk =>
      rcases hk with hk | hk
      · exact h.parts (by rw [hk]; decide) (by rw [hk]; decide) (by rw [hk]; decide)
      · exact h.parts (by rw [hk]; decide) (by rw [hk]; decide) (by rw [hk]; decide)
    · exact .cons h .nil

theorem Statements.statementsAt (h : Statements inner ts) :
    ∀ s ∈ ts.flatMap Tree.statementsAt, ∀ i ∈ s.ids, inner i := by
  intro s hs i hi
  obtain ⟨c, hc, hs⟩ := List.mem_flatMap.mp hs
  have hsub : s.nodes ⊆ c.nodes := by
    unfold Tree.statementsAt at hs
    split at hs
    · cases hs
    · split at hs
      · exact nodes_subset_of_child (mem_of_part hs)
      · exact List.mem_singleton.mp hs ▸ List.Subset.refl _
  exact h.inside c hc i (List.map_subset _ hsub hi)

/-- The statements of a block, split before those inside. -/
theorem AlikeBlock.body (h : AlikeBlock inner strict source source' t t') :
    ∃ front front' body body', t.body = front ++ body ∧ t'.body = front' ++ body' ∧
      List.Forall₂ (Alike inner strict source source') front front' ∧
        (∀ s ∈ body, ∀ i ∈ s.ids, inner i) ∧ ∀ s ∈ body', ∀ i ∈ s.ids, inner i := by
  cases h with
  | mk _ _ children children' agree statements statements' =>
    refine ⟨_, _, _, _, ?_, ?_, List.rel_flatMap (forall₂_isCode agree) fun _ _ hc =>
      forall₂_statementsAt hc, (statements.filter isCode).statementsAt,
      (statements'.filter isCode).statementsAt⟩
    · rw [body_eq, parts, children, List.filter_append, List.flatMap_append]
    · rw [body_eq, parts, children', List.filter_append, List.flatMap_append]

/-- A block all of which agrees. -/
theorem Alike.body (h : Alike inner strict source source' t t') (hk : t.isBlock = true) :
    List.Forall₂ (Alike inner strict source source') t.body t'.body := by
  have hparts : List.Forall₂ (Alike inner strict source source') t.parts t'.parts := by
    rcases isBlock_iff.mp hk with hk | hk
    · exact h.parts (by rw [hk]; decide) (by rw [hk]; decide) (by rw [hk]; decide)
    · exact h.parts (by rw [hk]; decide) (by rw [hk]; decide) (by rw [hk]; decide)
  exact List.rel_flatMap hparts fun _ _ hc => forall₂_statementsAt hc

theorem forall₂_blocks (h : t.Alike inner strict source source' t') (hk : t.kind = "call") :
    List.Forall₂ (fun c c' => Outside inner strict source source' c c' ∧
      (c.isBlock = true → AlikeBlock inner strict source source' c c')) t.children t'.children := by
  obtain ⟨front, front', last, last', hc, hc', hagree, hlast⟩ := h.splitBlock (.inl hk)
  rw [hc, hc']
  refine List.rel_append (hagree.imp fun _ _ h => ⟨h.outside, h.asBlock⟩) ?_
  rcases hlast with ⟨rfl, rfl⟩ | ⟨b, b', rfl, rfl, -, hb⟩
  · exact .nil
  · exact .cons ⟨hb.outside, fun _ => hb⟩ .nil

/-- The blocks of two calls agree but for their statements. -/
theorem Alike.block? (h : t.Alike inner strict source source' t') (hk : t.kind = "call") :
    Option.Rel (AlikeBlock inner strict source source') t.block? t'.block? := by
  have hblocks := forall₂_blocks h hk
  have hchild := forall₂_find? (p := (·.field == "block")) hblocks fun _ _ h => by rw [h.1.field]
  have hnamed : List.Forall₂ (fun c c' => Outside inner strict source source' c c' ∧
      (c.isBlock = true → AlikeBlock inner strict source source' c c')) t.namedChildren
        t'.namedChildren := forall₂_filter hblocks fun _ _ h => h.1.named
  have hfirst := forall₂_find? (p := Tree.isBlock) hnamed fun _ _ h => h.1.isBlock
  unfold Tree.block? Tree.child?
  generalize hc : t.children.find? (·.field == "block") = c at hchild ⊢
  generalize t'.children.find? (·.field == "block") = c' at hchild ⊢
  generalize hn : t.namedChildren.find? Tree.isBlock = n at hfirst ⊢
  generalize t'.namedChildren.find? Tree.isBlock = n' at hfirst ⊢
  cases hchild with
  | some h =>
    exact .some (h.2 (h.1.block (field_of_child hc)))
  | none =>
    cases hfirst with
    | none => exact .none
    | some h => exact .some (h.2 (List.find?_some hn))

end Tree

/-! ## Types of expressions -/

section

variable {inner : Nat → Prop} {strict : Prop} {source source' : List Char} {env : Environment}
  {types types' : List (Nat × Option TypeExpr)} {scope : Scope} {ctx : Context}

/-- The same is recorded for the nodes outside. -/
def SameTypes (inner : Nat → Prop) (types types' : List (Nat × Option TypeExpr)) : Prop :=
  ∀ i, ¬ inner i → types.lookup i = types'.lookup i

theorem recorded_eq (h : SameTypes inner types types') {i : Nat} (hi : ¬ inner i) :
    View.recorded ⟨env, source, types, scope, ctx⟩ i
      = View.recorded ⟨env, source', types', scope, ctx⟩ i := congrArg Option.join (h i hi)

theorem constantType_eq_none {v : View} {text : String} (h : isConstantPath text = false) :
    v.constantType text = none := by
  rw [View.constantType, h]
  rfl

mutual

/-- **An expression outside has the same type.** -/
theorem infer_alike (hsame : SameTypes inner types types') :
    (t t' : Tree) → t.Alike inner strict source source' t' →
      infer ⟨env, source, types, scope, ctx⟩ t = infer ⟨env, source', types', scope, ctx⟩ t'
  | ⟨id, kind, start, stop, field, named, missing, faulty, children⟩,
    ⟨id', kind', start', stop', field', named', missing', faulty', children'⟩, h => by
    have hout := h.outside
    have hid : id = id' := hout.id
    have hkind : kind = kind' := hout.kind
    have houter : ¬ inner id := hout.outer
    have htext : kind ∈ Tree.textKinds ∨ field ∈ Tree.textFields →
        between source start stop = between source' start' stop' := hout.text
    have hpath : kind = "scope_resolution" →
        between source start stop = between source' start' stop' ∨
          isConstantPath (between source start stop) = false ∧
            isConstantPath (between source' start' stop') = false := hout.path
    subst hid hkind
    unfold infer
    split
    · rfl
    · split
      · rfl
      · have ht := htext (.inl (by decide))
        rw [ht, recorded_eq hsame houter]
      · have ht := htext (.inl (by decide))
        rw [ht]
        rfl
      · rcases hpath rfl with ht | ⟨hc, hc'⟩
        · rw [ht]
          rfl
        · exact (constantType_eq_none hc).trans (constantType_eq_none hc').symm
      · exact recorded_eq hsame houter
      · rw [inferLast_alike hsame children children'
          (h.children (by dsimp only; decide) (by dsimp only; decide) (by dsimp only; decide))]
      · exact inferRight_alike hsame children children'
          (h.children (by dsimp only; decide) (by dsimp only; decide) (by dsimp only; decide))
      · have ht := htext (.inl (by decide))
        rw [ht]
      · rfl
termination_by structural t => t

theorem inferLast_alike (hsame : SameTypes inner types types') :
    (ts ts' : List Tree) → List.Forall₂ (Tree.Alike inner strict source source') ts ts' →
      inferLast ⟨env, source, types, scope, ctx⟩ ts = inferLast ⟨env, source', types', scope, ctx⟩ ts'
  | [], _, h => by
    cases h
    rfl
  | t :: ts, _, h => by
    cases h with
    | @cons _ t' _ ts' ht hts =>
      rw [inferLast, inferLast, inferLast_alike hsame ts ts' hts, ht.outside.isCode,
        infer_alike hsame t t' ht]
termination_by structural ts => ts

theorem inferRight_alike (hsame : SameTypes inner types types') :
    (ts ts' : List Tree) → List.Forall₂ (Tree.Alike inner strict source source') ts ts' →
      inferRight ⟨env, source, types, scope, ctx⟩ ts
        = inferRight ⟨env, source', types', scope, ctx⟩ ts'
  | [], _, h => by
    cases h
    rfl
  | t :: ts, _, h => by
    cases h with
    | @cons _ t' _ ts' ht hts =>
      rw [inferRight, inferRight, inferRight_alike hsame ts ts' hts, ht.outside.field,
        infer_alike hsame t t' ht]
termination_by structural ts => ts

end

end

end RbsSynth.Analysis
