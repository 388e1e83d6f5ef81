import Mathlib.Data.Set.Insert
import RbsSynth.Proofs.Analysis.Conversion

/-!
# Where a walk goes

Below a node the walk goes on at some of the nodes (`Tree.entered`).  It passes by the names of
definitions, the parameters of lambdas and blocks, those parameters of methods that have no default
value, and left sides that only name variables:

    t.Reaches c  ↔  c = t ∨ some d of t.entered reaches c                              (reaches_iff)
    t.entered ⊆ t.inner, the nodes under t                                          (entered_subset)
-/

namespace RbsSynth.Analysis

namespace Tree

/-- The default values among the parameters of a method. -/
def defaults (t : Tree) : List Tree := t.parts.filterMap (·.child? "value")

/-- Where the walk goes on below a method, but for one part. -/
def methodEntered (t : Tree) (skip : Option Nat) : List Tree :=
  (t.parts.filter fun c => skip != some c.id).flatMap fun c =>
    if (t.child? "name").any (·.id = c.id) then []
    else if c.kind = "method_parameters" then c.defaults
    else [c]

/-- Below a method of an object: at the object, and then as below every method. -/
def singletonMethodEntered (t : Tree) : List Tree :=
  match t.child? "object" with
  | none => t.methodEntered none
  | some target => target :: t.methodEntered (some target.id)

/-- Below a call: at its receiver, at its arguments, and at the statements of its block. -/
def callEntered (t : Tree) : List Tree :=
  (t.child? "receiver").toList ++ (t.arguments ++ t.blockBody)

/-- Below an assignment: at both sides, unless the left one only names variables. -/
def assignmentEntered (t : Tree) : List Tree :=
  match t.child? "left", t.child? "right" with
  | some left, some right =>
    if ["identifier", "left_assignment_list", "destructured_left_assignment"].contains left.kind then
      [right]
    else [left, right]
  | _, _ => t.parts

def operatorEntered (t : Tree) : List Tree :=
  match t.child? "left", t.child? "right" with
  | some left, some right => if left.kind = "identifier" then [right] else t.parts
  | _, _ => t.parts

def moduleEntered (t : Tree) : List Tree :=
  t.parts.flatMap fun c => if (t.child? "name").any (·.id = c.id) then [] else [c]

def lambdaEntered (t : Tree) : List Tree :=
  t.parts.flatMap fun c =>
    if (t.child? "parameters").any (·.id = c.id) then []
    else if c.isBlock then c.body
    else [c]

/-- The nodes below a node at which the walk goes on. -/
def entered (t : Tree) : List Tree :=
  match t.kind with
  | "class" | "module" => t.moduleEntered
  | "method" => t.methodEntered none
  | "singleton_method" => t.singletonMethodEntered
  | "identifier" => []
  | "assignment" => t.assignmentEntered
  | "operator_assignment" => t.operatorEntered
  | "call" => t.callEntered
  | "lambda" => t.lambdaEntered
  | _ => t.parts

/-- The walk comes from one node to another. -/
inductive Reaches : Tree → Tree → Prop
  | self (t : Tree) : Reaches t t
  | deeper {t c d : Tree} (hc : c ∈ t.entered) (h : Reaches c d) : Reaches t d

/-- The nodes that the walk comes to from one of several. -/
def reachedFrom (ts : List Tree) : Set Tree := {c | ∃ t ∈ ts, t.Reaches c}

theorem reaches_iff {t c : Tree} : t.Reaches c ↔ c = t ∨ c ∈ reachedFrom t.entered := by
  constructor
  · intro h
    cases h with
    | self => exact .inl rfl
    | deeper hc h => exact .inr ⟨_, hc, h⟩
  · rintro (rfl | ⟨d, hd, h⟩)
    · exact .self c
    · exact .deeper hd h

@[simp] theorem reachedFrom_nil : reachedFrom [] = ∅ := by
  ext c
  exact iff_of_false (fun ⟨_, h, _⟩ => nomatch h) (Set.notMem_empty c)

theorem reachedFrom_append (ts us : List Tree) :
    reachedFrom (ts ++ us) = reachedFrom ts ∪ reachedFrom us := by
  ext c
  simp only [reachedFrom, Set.mem_ofPred_eq, Set.mem_union, List.mem_append, or_and_right, exists_or]

theorem reachedFrom_cons (t : Tree) (ts : List Tree) :
    reachedFrom (t :: ts) = reachedFrom [t] ∪ reachedFrom ts := reachedFrom_append [t] ts

theorem reachedFrom_singleton (t : Tree) :
    reachedFrom [t] = {t} ∪ reachedFrom t.entered := by
  ext c
  refine Iff.trans ?_ reaches_iff
  exact ⟨fun ⟨d, hd, h⟩ => List.mem_singleton.mp hd ▸ h, fun h => ⟨t, List.mem_singleton.mpr rfl, h⟩⟩

/-! ### The walk only goes down -/

/-- The nodes under a node. -/
def inner (t : Tree) : List Tree := t.children.flatMap nodes

theorem mem_nodes_self (t : Tree) : t ∈ t.nodes := by
  rw [nodes_eq]
  exact List.mem_cons_self

theorem mem_inner {t c d : Tree} (hc : c ∈ t.children) (hd : d ∈ c.nodes) : d ∈ t.inner :=
  List.mem_flatMap.mpr ⟨c, hc, hd⟩

theorem children_subset_inner (t : Tree) : t.children ⊆ t.inner :=
  fun c hc => mem_inner hc c.mem_nodes_self

theorem parts_subset_inner (t : Tree) : t.parts ⊆ t.inner :=
  List.Subset.trans (parts_sublist t).subset t.children_subset_inner

mutual

/-- What is under a node under another is under that one, and is less high. -/
theorem nodes_under : (t : Tree) → ∀ c ∈ t.nodes, c.nodes ⊆ t.nodes ∧ c.height ≤ t.height
  | ⟨id, kind, start, stop, field, named, missing, faulty, children⟩, c, hc => by
    rcases List.mem_cons.mp hc with rfl | hc
    · exact ⟨List.Subset.refl _, Nat.le_refl _⟩
    · obtain ⟨hsub, hle⟩ := nodesOfAll_under children c hc
      exact ⟨fun _ hd => List.mem_cons_of_mem _ (hsub hd), Nat.le_succ_of_le hle⟩
termination_by structural t => t

theorem nodesOfAll_under :
    (ts : List Tree) → ∀ c ∈ nodesOfAll ts, c.nodes ⊆ nodesOfAll ts ∧ c.height ≤ heightOfAll ts
  | [], _, hc => nomatch hc
  | t :: ts, c, hc => by
    rcases List.mem_append.mp hc with hc | hc
    · obtain ⟨hsub, hle⟩ := nodes_under t c hc
      exact ⟨fun _ hd => List.mem_append_left _ (hsub hd), Nat.le_trans hle (Nat.le_max_left _ _)⟩
    · obtain ⟨hsub, hle⟩ := nodesOfAll_under ts c hc
      exact ⟨fun _ hd => List.mem_append_right _ (hsub hd), Nat.le_trans hle (Nat.le_max_right _ _)⟩
termination_by structural ts => ts

end

theorem height_pos (t : Tree) : 0 < t.height := by
  obtain ⟨id, kind, start, stop, field, named, missing, faulty, children⟩ := t
  exact Nat.succ_pos _

theorem height_lt_of_inner {t c : Tree} (hc : c ∈ t.inner) : c.height < t.height := by
  obtain ⟨id, kind, start, stop, field, named, missing, faulty, children⟩ := t
  have hmem : c ∈ nodesOfAll children := by
    rw [nodesOfAll_eq]
    exact hc
  exact Nat.lt_succ_of_le (nodesOfAll_under children c hmem).2

theorem nodes_subset_inner {t c : Tree} (hc : c ∈ t.inner) : c.nodes ⊆ t.inner := by
  obtain ⟨d, hd, hc⟩ := List.mem_flatMap.mp hc
  exact fun e he => mem_inner hd ((nodes_under d c hc).1 he)

theorem inner_subset_nodes (t : Tree) : t.inner ⊆ t.nodes := by
  rw [nodes_eq]
  exact List.subset_cons_self _ _

theorem inner_subset_inner {t c : Tree} (hc : c ∈ t.inner) : c.inner ⊆ t.inner :=
  List.Subset.trans c.inner_subset_nodes (nodes_subset_inner hc)

theorem child_subset_inner {t : Tree} (field : String) : (t.child? field).toList ⊆ t.inner :=
  fun _ hc => t.children_subset_inner (mem_of_child (Option.mem_toList.mp hc))

theorem body_subset_inner {t b : Tree} (hb : b ∈ t.children) : b.body ⊆ t.inner := fun s hs =>
  mem_inner hb (nodes_subset_of_body hs s.mem_nodes_self)

theorem blockBody_subset_inner (t : Tree) : t.blockBody ⊆ t.inner := by
  intro s hs
  obtain ⟨b, hb, hs⟩ := List.mem_flatMap.mp hs
  exact body_subset_inner (mem_of_block (Option.mem_toList.mp hb)) hs

theorem arguments_subset_inner (t : Tree) : t.arguments ⊆ t.inner := by
  intro a ha
  rw [arguments] at ha
  split at ha
  · next as has =>
    exact mem_inner (mem_of_child has) (nodes_subset_of_child (mem_of_part ha) a.mem_nodes_self)
  · cases ha

theorem defaults_subset_inner (t : Tree) : t.defaults ⊆ t.inner := by
  intro v hv
  obtain ⟨q, hq, hv⟩ := List.mem_filterMap.mp hv
  exact inner_subset_inner (t.parts_subset_inner hq) (q.children_subset_inner (mem_of_child hv))

theorem callEntered_subset (t : Tree) : t.callEntered ⊆ t.inner :=
  List.append_subset.mpr ⟨child_subset_inner "receiver",
    List.append_subset.mpr ⟨t.arguments_subset_inner, t.blockBody_subset_inner⟩⟩

theorem methodEntered_subset (t : Tree) (skip : Option Nat) : t.methodEntered skip ⊆ t.inner := by
  intro d hd
  obtain ⟨c, hc, hd⟩ := List.mem_flatMap.mp hd
  have hc : c ∈ t.children := mem_of_part (List.mem_of_mem_filter hc)
  split at hd
  · cases hd
  · split at hd
    · exact inner_subset_inner (t.children_subset_inner hc) (c.defaults_subset_inner hd)
    · exact List.mem_singleton.mp hd ▸ t.children_subset_inner hc

theorem singletonMethodEntered_subset (t : Tree) : t.singletonMethodEntered ⊆ t.inner := by
  rw [singletonMethodEntered]
  split
  · exact t.methodEntered_subset none
  · next target htarget =>
    exact List.cons_subset.mpr ⟨t.children_subset_inner (mem_of_child htarget),
      t.methodEntered_subset (some target.id)⟩

theorem moduleEntered_subset (t : Tree) : t.moduleEntered ⊆ t.inner := by
  intro d hd
  obtain ⟨c, hc, hd⟩ := List.mem_flatMap.mp hd
  split at hd
  · cases hd
  · exact List.mem_singleton.mp hd ▸ t.parts_subset_inner hc

theorem lambdaEntered_subset (t : Tree) : t.lambdaEntered ⊆ t.inner := by
  intro d hd
  obtain ⟨c, hc, hd⟩ := List.mem_flatMap.mp hd
  split at hd
  · cases hd
  · split at hd
    · exact body_subset_inner (mem_of_part hc) hd
    · exact List.mem_singleton.mp hd ▸ t.parts_subset_inner hc

theorem assignmentEntered_subset (t : Tree) : t.assignmentEntered ⊆ t.inner := by
  rw [assignmentEntered]
  split
  · next left right hl hr =>
    have hleft := t.children_subset_inner (mem_of_child hl)
    have hright := t.children_subset_inner (mem_of_child hr)
    split
    · exact List.cons_subset.mpr ⟨hright, List.nil_subset _⟩
    · exact List.cons_subset.mpr ⟨hleft, List.cons_subset.mpr ⟨hright, List.nil_subset _⟩⟩
  · exact t.parts_subset_inner

theorem operatorEntered_subset (t : Tree) : t.operatorEntered ⊆ t.inner := by
  rw [operatorEntered]
  split
  · next left right _ hr =>
    split
    · exact List.cons_subset.mpr
        ⟨t.children_subset_inner (mem_of_child hr), List.nil_subset _⟩
    · exact t.parts_subset_inner
  · exact t.parts_subset_inner

theorem entered_subset (t : Tree) : t.entered ⊆ t.inner := by
  rw [entered]
  split
  · exact t.moduleEntered_subset
  · exact t.moduleEntered_subset
  · exact t.methodEntered_subset none
  · exact t.singletonMethodEntered_subset
  · exact List.nil_subset _
  · exact t.assignmentEntered_subset
  · exact t.operatorEntered_subset
  · exact t.callEntered_subset
  · exact t.lambdaEntered_subset
  · exact t.parts_subset_inner

theorem Reaches.mem_nodes {t c : Tree} (h : t.Reaches c) : c ∈ t.nodes := by
  induction h with
  | self t => exact t.mem_nodes_self
  | @deeper t c d hc _ ih =>
    exact t.inner_subset_nodes (nodes_subset_inner (t.entered_subset hc) ih)

end Tree

end RbsSynth.Analysis
