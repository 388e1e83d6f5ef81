import Mathlib.Logic.Relation
import RbsSynth.Analysis.Program
import RbsSynth.Proofs.Analysis.Entered

/-!
# Nodes in the order of the text

`t.nodes` are the nodes of a tree in the order of the text, and `t.namedNodes` those that named children
lead to.  Where every node above a fault is marked, nothing is missed in nodes that are not marked:

    t.firstFault? = t.nodes.find? isFault                                        (firstFault_eq_find)
    t.identifiers source = (t.namedNodes.filter isIdentifier).map (text source)
                                                                              (identifiers_eq_filter)

Both are also found with a stack.  In each turn the last node comes off it, and the nodes to look at
below go on in reverse; so the stack, read from its end, is what is left of the tree in the order of the
text (`turn_eq_some`), and what is found on it is what is found there:

    faultOn? stack = firstFaultOfAll? stack.reverse                                    (faultOn_eq)
    identifiersOn source stack found
      = found ++ stack.reverse.flatMap (identifiers source)                      (identifiersOn_eq)
-/

namespace RbsSynth.Analysis

namespace Tree

mutual

/-- What holds of a node when it holds of its children holds of every node. -/
theorem induct {P : Tree → Prop} (h : ∀ t : Tree, (∀ c ∈ t.children, P c) → P t) : (t : Tree) → P t
  | ⟨_, _, _, _, _, _, _, _, children⟩ => h _ (induct_all h children)
termination_by structural t => t

theorem induct_all {P : Tree → Prop} (h : ∀ t : Tree, (∀ c ∈ t.children, P c) → P t) :
    (ts : List Tree) → ∀ t ∈ ts, P t
  | [] => List.forall_mem_nil P
  | t :: ts => List.forall_mem_cons.mpr ⟨induct h t, induct_all h ts⟩
termination_by structural ts => ts

end

/-! ## Faults -/

/-- A node that does not fit the language, or that was put in where the text lacks something. -/
def isFault (t : Tree) : Bool := t.kind == "ERROR" || t.missing

/-- Every node that has a fault under it is marked. -/
def Marked (t : Tree) : Prop := ∀ n ∈ t.nodes, (∃ d ∈ n.inner, d.isFault = true) → n.faulty = true

instance (t : Tree) : Decidable t.Marked :=
  inferInstanceAs (Decidable (∀ n ∈ t.nodes, (∃ d ∈ n.inner, d.isFault = true) → n.faulty = true))

/-- The nodes below a node in which faults are looked for. -/
def searched (t : Tree) : List Tree := if t.faulty then t.children else []

theorem firstFault_eq (t : Tree) :
    t.firstFault? = if t.isFault then some t else firstFaultOfAll? t.searched := by
  obtain ⟨id, kind, start, stop, field, named, missing, faulty, children⟩ := t
  have hfault : (kind = "ERROR" ∨ missing = true) ↔ (kind == "ERROR" || missing) = true := by simp
  rw [firstFault?, isFault, searched]
  simp only [hfault]
  split
  · rfl
  · cases faulty <;> rfl

theorem firstFaultOfAll_append (ts us : List Tree) :
    firstFaultOfAll? (ts ++ us) = (firstFaultOfAll? ts).or (firstFaultOfAll? us) := by
  induction ts with
  | nil => rfl
  | cons t ts ih => rw [List.cons_append, firstFaultOfAll?, firstFaultOfAll?, ih, Option.or_assoc]

namespace Marked

variable {t c : Tree}

theorem child (h : t.Marked) (hc : c ∈ t.children) : c.Marked :=
  fun n hn => h n (nodes_subset_of_child hc hn)

/-- There is no fault under a node that is not marked. -/
theorem find_below (h : t.Marked) (hfaulty : ¬ t.faulty = true) :
    (nodesOfAll t.children).find? isFault = none := by
  refine List.find?_eq_none.mpr fun d hd hfault => hfaulty ?_
  rw [nodesOfAll_eq] at hd
  exact h t t.mem_nodes_self ⟨d, hd, hfault⟩

end Marked

theorem firstFaultOfAll_eq_find {ts : List Tree} (h : ∀ t ∈ ts, t.firstFault? = t.nodes.find? isFault) :
    firstFaultOfAll? ts = (nodesOfAll ts).find? isFault := by
  induction ts with
  | nil => rfl
  | cons t ts ih =>
    rw [firstFaultOfAll?, nodesOfAll, List.find?_append, h t List.mem_cons_self,
      ih fun u hu => h u (List.mem_cons_of_mem t hu)]

/-- Where nodes are marked, the first fault is the first of all nodes that is one. -/
theorem firstFault_eq_find (t : Tree) (h : t.Marked) : t.firstFault? = t.nodes.find? isFault := by
  induction t using induct with
  | h t ih =>
    rw [firstFault_eq, nodes_eq, ← nodesOfAll_eq]
    by_cases hfault : t.isFault = true
    · rw [if_pos hfault, List.find?_cons_of_pos hfault]
    · rw [if_neg hfault, List.find?_cons_of_neg hfault, searched]
      split
      · exact firstFaultOfAll_eq_find fun c hc => ih c hc (h.child hc)
      · next hfaulty => exact (h.find_below hfaulty).symm

/-! ## Identifiers -/

mutual

/-- A node and the nodes that named children lead to from it, each before those under it. -/
def namedNodes : Tree → List Tree
  | ⟨id, kind, start, stop, field, named, missing, faulty, children⟩ =>
    ⟨id, kind, start, stop, field, named, missing, faulty, children⟩ :: namedNodesOfAll children
termination_by structural t => t

def namedNodesOfAll : List Tree → List Tree
  | [] => []
  | t :: ts => (if t.named then t.namedNodes else []) ++ namedNodesOfAll ts
termination_by structural ts => ts

end

/-- Named children lead from one node to another. -/
def LeadsTo : Tree → Tree → Prop := Relation.ReflTransGen fun t c => c ∈ t.namedChildren

def isIdentifier (t : Tree) : Bool := t.kind == "identifier"

/-- The text of a node that is an identifier. -/
def ownIdentifier (source : List Char) (t : Tree) : List String :=
  if t.isIdentifier then [t.text source] else []

/-- A function of lists that passes over the nodes that are not named. -/
theorem eq_flatMap_named {α : Type} {f : Tree → List α} {g : List Tree → List α} (hnil : g [] = [])
    (hcons : ∀ t ts, g (t :: ts) = (if t.named then f t else []) ++ g ts) (ts : List Tree) :
    g ts = (ts.filter (·.named)).flatMap f := by
  induction ts with
  | nil => exact hnil
  | cons t ts ih =>
    rw [hcons, ih]
    split
    · next hnamed => rw [List.filter_cons_of_pos hnamed, List.flatMap_cons]
    · next hnamed => rw [List.filter_cons_of_neg hnamed, List.nil_append]

theorem namedNodesOfAll_eq (ts : List Tree) :
    namedNodesOfAll ts = (ts.filter (·.named)).flatMap namedNodes :=
  eq_flatMap_named rfl (fun _ _ => rfl) ts

theorem namedNodes_eq (t : Tree) : t.namedNodes = t :: t.namedChildren.flatMap namedNodes := by
  obtain ⟨id, kind, start, stop, field, named, missing, faulty, children⟩ := t
  rw [namedNodes, namedNodesOfAll_eq]
  rfl

theorem mem_of_namedChild {t c : Tree} (h : c ∈ t.namedChildren) : c ∈ t.children :=
  List.mem_of_mem_filter h

theorem mem_namedNodes_iff {t n : Tree} : n ∈ t.namedNodes ↔ t.LeadsTo n := by
  constructor
  · intro hn
    induction t using induct with
    | h t ih =>
      rw [namedNodes_eq] at hn
      rcases List.mem_cons.mp hn with rfl | hn
      · exact .refl
      · obtain ⟨c, hc, hn⟩ := List.mem_flatMap.mp hn
        exact .head hc (ih c (mem_of_namedChild hc) hn)
  · intro h
    induction h using Relation.ReflTransGen.head_induction_on with
    | refl =>
      rw [namedNodes_eq]
      exact List.mem_cons_self
    | head hc _ ih =>
      rw [namedNodes_eq]
      exact List.mem_cons_of_mem _ (List.mem_flatMap.mpr ⟨_, hc, ih⟩)

variable {source : List Char}

theorem identifiersOfAll_eq (ts : List Tree) :
    identifiersOfAll source ts = (ts.filter (·.named)).flatMap (identifiers source) :=
  eq_flatMap_named rfl (fun _ _ => rfl) ts

theorem identifiers_eq (t : Tree) : t.identifiers source
    = t.ownIdentifier source ++ t.namedChildren.flatMap (identifiers source) := by
  obtain ⟨id, kind, start, stop, field, named, missing, faulty, children⟩ := t
  rw [identifiers, identifiersOfAll_eq, ownIdentifier, isIdentifier]
  simp only [beq_iff_eq]
  rfl

theorem identifiers_eq_filter (t : Tree) :
    t.identifiers source = (t.namedNodes.filter isIdentifier).map (text source) := by
  induction t using induct with
  | h t ih =>
    have hbelow : t.namedChildren.flatMap (identifiers source)
        = ((t.namedChildren.flatMap namedNodes).filter isIdentifier).map (text source) := by
      rw [List.filter_flatMap, List.map_flatMap]
      exact List.flatMap_congr fun c hc => ih c (mem_of_namedChild hc)
    rw [identifiers_eq, namedNodes_eq, hbelow, List.filter_cons, ownIdentifier]
    split <;> rfl

/-! ## Stacks -/

/-- One turn of a stack: the last node comes off, and the nodes to look at below it go on in reverse. -/
def turn? (below : Tree → List Tree) (stack : List Tree) : Option (Tree × List Tree) :=
  stack.getLast?.map fun t => (t, stack.dropLast ++ (below t).reverse)

variable {below : Tree → List Tree} {stack stack' : List Tree} {t : Tree}

theorem turn_eq_none (h : turn? below stack = none) : stack = [] :=
  List.getLast?_eq_none_iff.mp (Option.map_eq_none_iff.mp h)

/-- Read from its end, a stack holds what is left in the order of the text, before and after a turn. -/
theorem turn_eq_some (h : turn? below stack = some (t, stack')) :
    ∃ rest, stack.reverse = t :: rest ∧ stack'.reverse = below t ++ rest := by
  obtain ⟨u, hlast, hu⟩ := Option.map_eq_some_iff.mp h
  obtain ⟨rfl, rfl⟩ := Prod.mk.inj hu
  obtain ⟨front, rfl⟩ := List.getLast?_eq_some_iff.mp hlast
  refine ⟨front.reverse, List.reverse_concat .., ?_⟩
  rw [List.dropLast_concat, List.reverse_append, List.reverse_reverse]

/-- Fewer nodes are left after a turn. -/
theorem turn_lt (hbelow : (below t).Sublist t.children) (h : turn? below stack = some (t, stack')) :
    (nodesOfAll stack'.reverse).length < (nodesOfAll stack.reverse).length := by
  obtain ⟨rest, hs, hs'⟩ := turn_eq_some h
  have hle : (nodesOfAll (below t)).length ≤ (nodesOfAll t.children).length := by
    rw [nodesOfAll_eq, nodesOfAll_eq]
    exact (hbelow.flatMap nodes).length_le
  rw [hs, hs', nodesOfAll, nodes_eq, ← nodesOfAll_eq, nodesOfAll_eq (below t ++ rest),
    List.flatMap_append, ← nodesOfAll_eq, ← nodesOfAll_eq, List.length_append, List.length_append,
    List.length_cons]
  omega

theorem searched_sublist (t : Tree) : t.searched.Sublist t.children := by
  rw [searched]
  split
  · exact List.Sublist.refl _
  · exact List.nil_sublist _

/-- The first fault that a stack leads to. -/
def faultOn? (stack : List Tree) : Option Tree :=
  match _ : turn? searched stack with
  | none => none
  | some (t, stack') => if t.isFault then some t else faultOn? stack'
termination_by (nodesOfAll stack.reverse).length
decreasing_by exact turn_lt (searched_sublist t) ‹_›

/-- The identifiers that a stack leads to, behind those that were found before. -/
def identifiersOn (source : List Char) (stack : List Tree) (found : List String) : List String :=
  match _ : turn? namedChildren stack with
  | none => found
  | some (t, stack') => identifiersOn source stack' (found ++ t.ownIdentifier source)
termination_by (nodesOfAll stack.reverse).length
decreasing_by exact turn_lt List.filter_sublist ‹_›

theorem faultOn_eq (stack : List Tree) : faultOn? stack = firstFaultOfAll? stack.reverse := by
  fun_induction faultOn? stack with
  | case1 stack h => rw [turn_eq_none h]; rfl
  | case2 stack t stack' h hfault =>
    obtain ⟨rest, hs, -⟩ := turn_eq_some h
    rw [hs, firstFaultOfAll?, firstFault_eq, if_pos hfault, Option.some_or]
  | case3 stack t stack' h hfault ih =>
    obtain ⟨rest, hs, hs'⟩ := turn_eq_some h
    rw [ih, hs, hs', firstFaultOfAll_append, firstFaultOfAll?, firstFault_eq, if_neg hfault]

theorem identifiersOn_eq (stack : List Tree) (found : List String) :
    identifiersOn source stack found = found ++ stack.reverse.flatMap (identifiers source) := by
  fun_induction identifiersOn source stack found with
  | case1 stack found h => rw [turn_eq_none h]; exact (List.append_nil found).symm
  | case2 stack found t stack' h ih =>
    obtain ⟨rest, hs, hs'⟩ := turn_eq_some h
    rw [ih, hs, hs', List.flatMap_append, List.flatMap_cons, identifiers_eq, List.append_assoc,
      List.append_assoc]

end Tree

/-! ## What is found -/

/-- What is reported of a faulty node. -/
def faultAt (name : String) (source : List Char) (t : Tree) : ProgramFault :=
  ⟨name, (t.position source).1, (t.position source).2, faultDetails source t⟩

theorem analyzeProgram_of_faulty (env : Environment) (name text : String) {t : Tree}
    (h : t.faulty = true) : analyzeProgram env name text t
      = .error (.fault (faultAt name text.toList (t.firstFault?.getD t))) := by
  rw [analyzeProgram, if_pos h]
  rfl

/-- **Faults and identifiers in the order of the text.**  The two walks with a stack find what the
recursive functions do.  Where all nodes above faults are marked, this is the first node that is a fault,
if there is one, and a marked program is refused there.  The identifiers are the texts of exactly those
identifier nodes that named children lead to. -/
theorem found_in_text_order (source : List Char) (t : Tree) :
    (Tree.faultOn? [t] = t.firstFault? ∧ Tree.identifiersOn source [t] [] = t.identifiers source) ∧
    (t.Marked → t.firstFault? = t.nodes.find? Tree.isFault ∧
      (t.firstFault? = none ↔ ∀ n ∈ t.nodes, ¬ n.isFault = true) ∧
      ∀ env name text, t.faulty = true → analyzeProgram env name text t
        = .error (.fault (faultAt name text.toList ((t.nodes.find? Tree.isFault).getD t)))) ∧
    t.identifiers source = (t.namedNodes.filter Tree.isIdentifier).map (Tree.text source) ∧
    ∀ n, n ∈ t.namedNodes ↔ t.LeadsTo n := by
  refine ⟨⟨?_, ?_⟩, fun h => ?_, Tree.identifiers_eq_filter t, fun n => Tree.mem_namedNodes_iff⟩
  · rw [Tree.faultOn_eq, List.reverse_singleton, Tree.firstFaultOfAll?, Tree.firstFaultOfAll?,
      Option.or_none]
  · rw [Tree.identifiersOn_eq, List.nil_append, List.reverse_singleton, List.flatMap_singleton]
  · have hfind := Tree.firstFault_eq_find t h
    refine ⟨hfind, ?_, fun env name text hfaulty => ?_⟩
    · rw [hfind, List.find?_eq_none]
    · rw [analyzeProgram_of_faulty env name text hfaulty, hfind]

/-- The parenthesis that `f(x end` lacks. -/
def lacking : Tree := ⟨5, ")", 3, 3, "", false, true, true, []⟩

/-- The tree of `f(x end`, in which a parenthesis is put in and a word does not fit. -/
def unclosed : Tree :=
  ⟨0, "program", 0, 7, "", true, false, true, [
    ⟨1, "call", 0, 3, "", true, false, true, [
      ⟨2, "identifier", 0, 1, "method", true, false, false, []⟩,
      ⟨3, "argument_list", 1, 3, "arguments", true, false, true, [
        ⟨4, "identifier", 2, 3, "", true, false, false, []⟩,
        lacking]⟩]⟩,
    ⟨6, "ERROR", 4, 7, "", true, false, true, []⟩]⟩

theorem found_in_text_order_unclosed :
    unclosed.Marked ∧ unclosed.firstFault? = some lacking ∧
      Tree.faultOn? [unclosed] = some lacking ∧
      Tree.identifiersOn "f(x end".toList [unclosed] [] = ["f", "x"] ∧
      ∀ env, analyzeProgram env "a.rb" "f(x end" unclosed
        = .error (.fault ⟨"a.rb", 1, 4, "missing )"⟩) := by
  have hmarked : unclosed.Marked := by decide
  obtain ⟨⟨hfault, hnames⟩, hfirst, hidentifiers, -⟩ :=
    found_in_text_order "f(x end".toList unclosed
  obtain ⟨hfind, -, hrefused⟩ := hfirst hmarked
  have hlacking : unclosed.nodes.find? Tree.isFault = some lacking := rfl
  have hat : faultAt "a.rb" "f(x end".toList lacking = ⟨"a.rb", 1, 4, "missing )"⟩ := by decide
  refine ⟨hmarked, hfind.trans hlacking, (hfault.trans hfind).trans hlacking, ?_, fun env => ?_⟩
  · rw [hnames, hidentifiers]
    decide
  · rw [hrefused env _ _ rfl, hlacking, Option.getD_some, hat]

end RbsSynth.Analysis
