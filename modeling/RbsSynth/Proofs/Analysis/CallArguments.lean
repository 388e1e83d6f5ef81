import RbsSynth.Environment.Registration
import RbsSynth.Proofs.Analysis.CallSites
import RbsSynth.Proofs.Generation.ContextRule

/-!
# Which argument a parameter gets

`Yields P act` says that `P` holds of whatever a walk gives.  Each function of the walk yields nodes of
which every call `IsWritten` in the tree, if `visit` does: a name without arguments, a call with those in
its parentheses, or an assignment to a call with the right side behind them.  Its values are those of
its positional arguments, so what is bound to the required parameter at position `i` is

    the argument in `before ++ a :: after` with  (before.filter isPositional).length = i

That is the argument written at position `i` exactly if all those before it are positional; arguments
behind a splat move up                                                      (resolveTree_arguments)
-/

namespace RbsSynth.Analysis

open Signature Walk

/-! ## Calls as they are written -/

/-- A node of a tree that calls something, with the arguments that are written for it, in order. -/
inductive ArgumentsOf (root : Tree) : Tree → List Tree → Prop
  | name {n : Tree} (hn : n ∈ root.nodes) (hk : n.kind = "identifier") : ArgumentsOf root n []
  | call {n : Tree} (hn : n ∈ root.nodes) (hk : n.kind = "call") : ArgumentsOf root n n.arguments
  | assigned {a n right : Tree} (ha : a ∈ root.nodes) (hk : a.kind = "assignment")
    (hleft : a.child? "left" = some n) (hright : a.child? "right" = some right)
    (hn : n.kind = "call") : ArgumentsOf root n (n.arguments ++ [right])

/-- A call stands for a node of the tree and has the values of its positional arguments. -/
def IsWritten (source : List Char) (root : Tree) (c : Call) : Prop :=
  ∃ n args, c.id = n.id ∧ c.text = n.text source ∧ ArgumentsOf root n args ∧
    c.values = (args.filter Tree.isPositional).map (·.value source)

/-- All calls at and under some nodes are written in the tree. -/
def AllWritten (source : List Char) (root : Tree) (ns : List ProgramNode) : Prop :=
  ∀ c, .call c ∈ walkAll ns → IsWritten source root c

namespace AllWritten

variable {source : List Char} {root : Tree} {n : ProgramNode} {ns ms : List ProgramNode}

theorem nil : AllWritten source root [] := fun _ h => nomatch h

theorem append (h : AllWritten source root ns) (h' : AllWritten source root ms) :
    AllWritten source root (ns ++ ms) := by
  intro c hc
  rw [walkAll_append] at hc
  rcases List.mem_append.mp hc with hc | hc
  · exact h c hc
  · exact h' c hc

theorem cons (h : AllWritten source root [n]) (h' : AllWritten source root ns) :
    AllWritten source root (n :: ns) := h.append h'

theorem other (h : AllWritten source root ns) (id : Nat) (kind literal : String) :
    AllWritten source root [.other id kind literal ns] := by
  intro c hc
  rw [walkAll_singleton, walk_other] at hc
  rcases List.mem_cons.mp hc with hc | hc
  · cases hc
  · exact h c hc

theorem call {c : Call} (hc : IsWritten source root c) (h : AllWritten source root c.children) :
    AllWritten source root [.call c] := by
  intro d hd
  rw [walkAll_singleton, walk_call] at hd
  rcases List.mem_cons.mp hd with hd | hd
  · cases hd
    exact hc
  · exact h d hd

end AllWritten

/-! ## What a walk gives -/

/-- If the walk ends, it gives something of which `P` holds. -/
def Yields {α : Type} (P : α → Prop) (act : Walk α) : Prop := ∀ f a g, act f = .ok (a, g) → P a

section

variable {α β : Type} {P : α → Prop} {Q : β → Prop}

theorem yields_any (act : Walk α) : Yields Any act := fun _ _ _ _ => trivial

theorem yields_pure {a : α} (h : P a) : Yields P (pure a) := by
  intro f b g hrun
  cases hrun
  exact h

theorem Yields.bind {act : Walk α} {k : α → Walk β} (h : Yields P act)
    (hk : ∀ a, P a → Yields Q (k a)) : Yields Q (act >>= k) := by
  intro f b g hrun
  replace hrun : (act f >>= fun r => k r.1 r.2) = .ok (b, g) := hrun
  cases hact : act f with
  | error e =>
    rw [hact] at hrun
    cases hrun
  | ok r =>
    rw [hact] at hrun
    exact hk r.1 (h f r.1 r.2 hact) r.2 b g hrun

/-- A first step of which nothing is asked. -/
theorem Yields.after (act : Walk α) {k : α → Walk β} (hk : ∀ a, Yields Q (k a)) :
    Yields Q (act >>= k) := (yields_any act).bind fun a _ => hk a

/-- A last step that only makes something of the result. -/
theorem Yields.give {act : Walk α} (h : Yields P act) (make : α → β) (hq : ∀ a, P a → Q (make a)) :
    Yields Q (do return make (← act)) := h.bind fun a ha => yields_pure (hq a ha)

theorem yields_within {act : Walk α} (h : Yields P act) (scope : Scope) :
    Yields (fun r => P r.1) (within scope act) := by
  intro f r g hrun
  rw [within] at hrun
  cases hact : act { f with scope := scope } with
  | error e =>
    rw [hact] at hrun
    cases hrun
  | ok s =>
    rw [hact] at hrun
    cases hrun
    exact h _ s.1 s.2 hact

end

/-! ## Functions of the walk -/

/-- Nodes all of whose calls are written in the tree. -/
abbrev YieldsAll (p : Program) (root : Tree) : Walk (List ProgramNode) → Prop :=
  Yields (AllWritten p.source root)

/-- The same for one node. -/
abbrev YieldsOne (p : Program) (root : Tree) : Walk ProgramNode → Prop :=
  Yields fun n => AllWritten p.source root [n]

/-- From these nodes `visit` yields only calls that are written in the tree. -/
def Visit.YieldsFrom (visit : Visit) (p : Program) (root : Tree) (ts : List Tree) : Prop :=
  ∀ ctx, ∀ t ∈ ts, YieldsOne p root (visit ctx t)

theorem Visit.YieldsFrom.mono {visit : Visit} {p : Program} {root : Tree} {ts us : List Tree}
    (h : visit.YieldsFrom p root us) (hsub : ts ⊆ us) : visit.YieldsFrom p root ts :=
  fun ctx t ht => h ctx t (hsub ht)

variable {p : Program} {root : Tree} {visit : Visit} {ctx : Context} {t : Tree}

theorem allWritten_leaf (t : Tree) : AllWritten p.source root [p.leaf t] :=
  AllWritten.nil.other t.id t.kind (t.value p.source)

theorem AllWritten.otherAt {ns : List ProgramNode} (h : AllWritten p.source root ns) (t : Tree) :
    AllWritten p.source root [p.other t ns] := h.other t.id t.kind _

theorem yieldsOne_leaf : YieldsOne p root (pure (p.leaf t)) := yields_pure (allWritten_leaf t)

theorem yields_visitAll {ts : List Tree} (hv : visit.YieldsFrom p root ts) :
    YieldsAll p root (Program.visitAll visit ctx ts) := by
  induction ts with
  | nil => exact yields_pure .nil
  | cons t ts ih =>
    rw [Program.visitAll]
    exact (hv ctx t List.mem_cons_self).bind fun _ hn =>
      (ih (hv.mono (List.subset_cons_self t ts))).give _ fun _ hns => hn.cons hns

theorem yields_visitBody {inside : Tree → Walk ProgramNode}
    {outside : Tree → Option (Walk ProgramNode)} {scope : Scope} {ts : List Tree}
    (hin : ∀ c ∈ ts, YieldsOne p root (inside c))
    (hout : ∀ c ∈ ts, ∀ act, outside c = some act → YieldsOne p root act) :
    YieldsAll p root (Program.visitBody inside outside scope ts) := by
  induction ts generalizing scope with
  | nil => exact yields_pure .nil
  | cons c ts ih =>
    have hrest : ∀ scope, YieldsAll p root (Program.visitBody inside outside scope ts) := fun _ =>
      ih (fun d hd => hin d (List.mem_cons_of_mem c hd)) fun d hd => hout d (List.mem_cons_of_mem c hd)
    rw [Program.visitBody]
    split
    · next act hact =>
      exact (hout c List.mem_cons_self act hact).bind fun _ hn =>
        (hrest scope).give _ fun _ hns => hn.cons hns
    · exact (yields_within (hin c List.mem_cons_self) scope).bind fun _ hn =>
        (hrest _).give _ fun _ hns => hn.cons hns

theorem yields_mapM {act : Tree → Walk ProgramNode} {ts : List Tree}
    (h : ∀ c ∈ ts, YieldsOne p root (act c)) : YieldsAll p root (ts.mapM act) := by
  induction ts with
  | nil => exact yields_pure .nil
  | cons c ts ih =>
    rw [List.mapM_cons]
    exact (h c List.mem_cons_self).bind fun _ hn =>
      (ih fun d hd => h d (List.mem_cons_of_mem c hd)).give _ fun _ hns => hn.cons hns

theorem yields_visitOther (hv : visit.YieldsFrom p root t.parts) :
    YieldsOne p root (p.visitOther visit ctx t) :=
  (yields_visitAll hv).give _ fun _ hns => hns.otherAt t

theorem yields_visitIdentifier (ht : t ∈ root.nodes) (hk : t.kind = "identifier") :
    YieldsOne p root (p.visitIdentifier ctx t) := by
  unfold Program.visitIdentifier
  refine .after _ fun f => ?_
  split
  · exact yieldsOne_leaf
  · refine .after _ fun _ => yields_pure (AllWritten.call ?_ .nil)
    exact ⟨t, [], rfl, rfl, .name ht hk, rfl⟩

/-! ### Calls -/

theorem yields_visitBlock {b : Tree} (hv : visit.YieldsFrom p root b.body) (ms : List Match) :
    Yields (fun b => AllWritten p.source root b.body) (p.visitBlock visit ctx b ms) := by
  unfold Program.visitBlock
  refine .after _ fun f => ?_
  exact (yields_within (yields_visitAll hv) _).give _ fun _ hbody => hbody

theorem yields_visitReceiver (hv : visit.YieldsFrom p root t.inner) :
    Yields (fun r => AllWritten p.source root r.1.toList) (p.visitReceiver visit ctx t) := by
  unfold Program.visitReceiver
  split
  · exact yields_pure .nil
  · next r hr =>
    have hin := t.children_subset_inner (Tree.mem_of_child hr)
    exact (hv ctx r hin).bind fun _ hn => .after _ fun _ => yields_pure hn

theorem yields_visitBlock? (hv : visit.YieldsFrom p root t.inner) (ms : List Match) :
    Yields (fun b => AllWritten p.source root (b.elim [] CallBlock.body))
      (p.visitBlock? visit ctx t ms) := by
  unfold Program.visitBlock?
  split
  · exact yields_pure .nil
  · next b hb =>
    have hbody := hv.mono (Tree.body_subset_inner (Tree.mem_of_block hb))
    exact (yields_visitBlock hbody ms).give _ fun _ hbody => hbody

/-- A call, and what is assigned to it. -/
theorem yields_visitCall {assigned : Option Tree} (hv : visit.YieldsFrom p root t.inner)
    (hassigned : visit.YieldsFrom p root assigned.toList)
    (hargs : ArgumentsOf root t (t.arguments ++ assigned.toList)) :
    YieldsOne p root (p.visitCall visit ctx t assigned) := by
  have harguments : visit.YieldsFrom p root (t.arguments ++ assigned.toList) := by
    intro ctx a ha
    rcases List.mem_append.mp ha with ha | ha
    · exact hv ctx a (t.arguments_subset_inner ha)
    · exact hassigned ctx a ha
  unfold Program.visitCall
  refine (yields_visitReceiver hv).bind fun r hreceiver => ?_
  refine (yields_visitAll harguments).bind fun arguments hns => ?_
  refine .after _ fun ms => ?_
  refine (yields_visitBlock? hv ms).give _ fun block hbody => ?_
  refine AllWritten.call ⟨t, _, rfl, rfl, hargs, rfl⟩ ?_
  cases block <;> exact (hreceiver.append hns).append hbody

/-! ### Assignments -/

section

variable (hv : visit.YieldsFrom p root t.inner)
include hv

/-- A child, wherever the walk goes on. -/
theorem yields_visitChild {field : String} {c : Tree} (hc : t.child? field = some c) :
    YieldsOne p root (visit ctx c) :=
  hv ctx c (t.children_subset_inner (Tree.mem_of_child hc))

theorem yields_visitPart {c : Tree} (hc : c ∈ t.parts) : YieldsOne p root (visit ctx c) :=
  hv ctx c (t.parts_subset_inner hc)

theorem yields_visitAssignment (ht : t ∈ root.nodes) (hk : t.kind = "assignment") :
    YieldsOne p root (p.visitAssignment visit ctx t) := by
  unfold Program.visitAssignment
  split
  · next left right hl hr =>
    have hright : YieldsOne p root (visit ctx right) := yields_visitChild hv hr
    by_cases hcall : left.kind = "call"
    · rw [if_pos hcall]
      have hleft := Tree.inner_subset_inner (t.children_subset_inner (Tree.mem_of_child hl))
      have hassigned : visit.YieldsFrom p root (some right).toList := by
        intro ctx c hc
        obtain rfl := List.mem_singleton.mp hc
        exact yields_visitChild hv hr
      exact (yields_visitCall (hv.mono hleft) hassigned (.assigned ht hk hl hr hcall)).give _
        fun _ hn => hn.otherAt t
    · rw [if_neg hcall]
      by_cases hname : left.kind = "identifier"
      · rw [if_pos hname]
        exact hright.bind fun _ hn => .after _ fun _ => .after _ fun _ =>
          yields_pure (((allWritten_leaf left).cons hn).otherAt t)
      · rw [if_neg hname]
        refine hright.bind fun _ hn => ?_
        split
        · exact .after _ fun _ => yields_pure (((allWritten_leaf left).cons hn).otherAt t)
        · exact (yields_visitChild hv hl).give _ fun _ hleft => (hleft.cons hn).otherAt t
  · exact yields_visitOther (hv.mono t.parts_subset_inner)

theorem yields_visitOperatorAssignment : YieldsOne p root (p.visitOperatorAssignment visit ctx t) := by
  unfold Program.visitOperatorAssignment
  split
  · next left right hl hr =>
    by_cases hname : left.kind = "identifier"
    · rw [if_pos hname]
      refine (yields_visitChild hv hr).bind fun _ hn => .after _ fun f => ?_
      have hboth := ((allWritten_leaf (p := p) left).cons hn).otherAt t
      split
      · exact .after _ fun _ => .after _ fun _ => yields_pure hboth
      · exact yields_pure hboth
    · rw [if_neg hname]
      exact yields_visitOther (hv.mono t.parts_subset_inner)
  · exact yields_visitOther (hv.mono t.parts_subset_inner)

/-! ### Definitions -/

theorem yields_visitModule : YieldsOne p root (p.visitModule visit ctx t) := by
  unfold Program.visitModule
  split
  · exact yields_visitOther (hv.mono t.parts_subset_inner)
  · next name hname =>
    refine (yields_visitBody (fun c hc => yields_visitPart hv hc) ?_).give _ fun _ hns => hns.otherAt t
    intro c hc act hact
    split at hact
    · exact Option.some.inj hact ▸ yieldsOne_leaf
    · split at hact
      · exact Option.some.inj hact ▸ yields_visitPart hv hc
      · cases hact

theorem yields_visitSingletonClass : YieldsOne p root (p.visitSingletonClass visit ctx t) := by
  have hbody : ∀ self, YieldsOne p root (do return p.other t (← Program.visitBody
      (visit ⟨self, ctx.nesting, true⟩) (fun c =>
        if (t.child? "value").any (·.id = c.id) then some (visit ctx c) else none) [] t.parts)) := by
    intro self
    refine (yields_visitBody (fun c hc => yields_visitPart hv hc) ?_).give _
      fun _ hns => hns.otherAt t
    intro c hc act hact
    split at hact
    · exact Option.some.inj hact ▸ yields_visitPart hv hc
    · cases hact
  unfold Program.visitSingletonClass
  dsimp only
  split
  · exact .after _ hbody
  · exact .after _ hbody

/-- The value that a parameter has by default. -/
theorem yields_default {c : Tree} (hc : c ∈ t.parts) :
    YieldsOne p root (match c.child? "value" with
      | some v => do return p.other c [← visit ctx v]
      | none => return p.leaf c) := by
  split
  · next v hval =>
    have hin := Tree.inner_subset_inner (t.parts_subset_inner hc)
      (c.children_subset_inner (Tree.mem_of_child hval))
    exact (hv ctx v hin).give _ fun _ hn => hn.otherAt c
  · exact yieldsOne_leaf

theorem yields_visitParameters : YieldsOne p root (p.visitParameters visit ctx t) := by
  unfold Program.visitParameters
  refine (yields_mapM fun c hc => ?_).give _ fun _ hns => hns.otherAt t
  have hnames : YieldsOne p root (do
      if c.kind = "destructured_parameter" then Walk.declareAll (c.identifiers p.source)
      match c.child? "value" with
      | some v => return p.other c [← visit ctx v]
      | none => return p.leaf c) := by
    dsimp only
    split
    · exact .after _ fun _ => yields_default hv hc
    · exact yields_default hv hc
  dsimp only
  split
  · exact .after _ fun _ => hnames
  · exact hnames

theorem yields_methodParts (inner : Context) (skip : Option Nat) :
    YieldsAll p root (p.methodParts visit inner t skip) := by
  unfold Program.methodParts
  refine yields_visitBody (fun c hc => ?_) fun c hc act hact => ?_
  · have hpart := List.mem_of_mem_filter hc
    split
    · exact yields_visitParameters (hv.mono (Tree.inner_subset_inner (t.parts_subset_inner hpart)))
    · exact yields_visitPart hv hpart
  · split at hact
    · exact Option.some.inj hact ▸ yieldsOne_leaf
    · cases hact

theorem yields_visitMethod : YieldsOne p root (p.visitMethod visit ctx t) :=
  (yields_methodParts hv _ none).give _ fun _ hns => hns.otherAt t

theorem yields_visitSingletonMethod : YieldsOne p root (p.visitSingletonMethod visit ctx t) := by
  unfold Program.visitSingletonMethod
  split
  · exact (yields_methodParts hv _ none).give _ fun _ hns => hns.otherAt t
  · next target htarget =>
    refine (yields_visitChild hv htarget).bind fun _ hn => .after _ fun self => ?_
    exact (yields_methodParts hv _ (some target.id)).give _ fun _ hns => (hn.cons hns).otherAt t

theorem yields_visitLambda : YieldsOne p root (p.visitLambda visit ctx t) := by
  unfold Program.visitLambda
  refine .after _ fun f => ?_
  refine (yields_visitBody (fun c hc => ?_) fun c hc act hact => ?_).bind fun _ hns =>
    .after _ fun _ => yields_pure (hns.otherAt t)
  · split
    · have hbody := hv.mono (Tree.body_subset_inner (Tree.mem_of_part hc))
      exact (yields_visitAll hbody).give _ fun _ hns => hns.otherAt c
    · exact yields_visitPart hv hc
  · split at hact
    · exact Option.some.inj hact ▸ yieldsOne_leaf
    · cases hact

/-! ## The walk -/

/-- The step: a node of the tree. -/
theorem yields_visitNode (ht : t ∈ root.nodes) : YieldsOne p root (p.visitNode visit ctx t) := by
  unfold Program.visitNode
  split
  · exact yields_visitModule hv
  · exact yields_visitModule hv
  · exact yields_visitSingletonClass hv
  · exact yields_visitMethod hv
  · exact yields_visitSingletonMethod hv
  · next hk => exact yields_visitIdentifier ht hk
  · next hk => exact yields_visitAssignment hv ht hk
  · exact yields_visitOperatorAssignment hv
  · next hk =>
    have hargs : ArgumentsOf root t (t.arguments ++ (none : Option Tree).toList) := by
      rw [Option.toList_none, List.append_nil]
      exact .call ht hk
    exact yields_visitCall hv (fun _ _ h => nomatch h) hargs
  · exact yields_visitLambda hv
  · exact yields_visitOther (hv.mono t.parts_subset_inner)

end

/-- The run: however far down the walk goes. -/
theorem yields_visitWithin (n : Nat) (ht : t ∈ root.nodes) :
    YieldsOne p root (p.visitWithin n ctx t) := by
  induction n generalizing ctx t with
  | zero => exact yieldsOne_leaf
  | succ n ih =>
    refine yields_visitNode ?_ ht
    intro ctx c hc
    exact ih ((Tree.nodes_under root t ht).1 (t.inner_subset_nodes hc))

/-! ## Arguments and parameters -/

/-- An item that is kept by a filter stands behind as many that are kept. -/
theorem exists_split_of_filter {α : Type} {keep : α → Bool} {xs : List α} {i : Nat} {a : α}
    (h : (xs.filter keep)[i]? = some a) :
    ∃ before after, xs = before ++ a :: after ∧ keep a = true ∧ (before.filter keep).length = i := by
  induction xs generalizing i with
  | nil => simp at h
  | cons x xs ih =>
    by_cases hx : keep x = true
    · rw [List.filter_cons_of_pos hx] at h
      cases i with
      | zero =>
        obtain rfl := Option.some.inj h
        exact ⟨[], xs, rfl, hx, rfl⟩
      | succ i =>
        obtain ⟨before, after, rfl, ha, hlength⟩ := ih h
        refine ⟨x :: before, after, rfl, ha, ?_⟩
        rw [List.filter_cons_of_pos hx, List.length_cons, hlength]
    · rw [List.filter_cons_of_neg hx] at h
      obtain ⟨before, after, rfl, ha, hlength⟩ := ih h
      refine ⟨x :: before, after, rfl, ha, ?_⟩
      rw [List.filter_cons_of_neg hx, hlength]

/-- The argument `a` among `args` is given for the required parameter `v` of `d`: both have the same
position when only positional arguments count, which is the position at which `a` is written exactly if
all arguments before it are positional. -/
def GivenFor (d : MatchedMethod) (args : List Tree) (v : String) (a : Tree) : Prop :=
  ∃ (i : Nat) (before after : List Tree), d.required[i]? = some (some v) ∧
    args = before ++ a :: after ∧ a.isPositional = true ∧
    (before.filter Tree.isPositional).length = i ∧
    (before.length = i ↔ ∀ b ∈ before, b.isPositional = true)

theorem givenFor_of_bound {source : List Char} {c : Call} {args : List Tree}
    (hvalues : c.values = (args.filter Tree.isPositional).map (·.value source))
    {d : MatchedMethod} {v x : String}
    (h : (Context.bindAll (Context.arguments c d) []).find? v = some (.scalar x)) :
    ∃ a, GivenFor d args v a ∧ x = a.value source := by
  rw [Context.arguments, Context.find?_bindAll_pairs] at h
  have hgiven : Context.lastGiven v d.required c.values = some x := by
    cases hlast : Context.lastGiven v d.required c.values with
    | none =>
      rw [hlast] at h
      cases h
    | some y =>
      rw [hlast] at h
      cases h
      rfl
  obtain ⟨i, ⟨hrequired, hvalue⟩, -⟩ := Context.lastGiven_eq_some hgiven
  rw [hvalues, List.getElem?_map, Option.map_eq_some_iff] at hvalue
  obtain ⟨a, ha, rfl⟩ := hvalue
  obtain ⟨before, after, hsplit, hpositional, hlength⟩ := exists_split_of_filter ha
  refine ⟨a, ⟨i, before, after, hrequired, hsplit, hpositional, hlength, ?_⟩, rfl⟩
  rw [← hlength, eq_comm, List.length_filter_eq_length_iff]

/-- **Arguments bind by their position among the positional ones.**  Every program can be resolved.
Each of its calls stands for a node of the tree, and what is bound to a required parameter of a method
is the value of a positional argument that is written there; the two have the same position when only
positional arguments count. -/
theorem resolveTree_arguments (p : Program) (t : Tree) :
    ∃ root typing, p.resolveTree t = .ok (root, typing) ∧ ∀ c ∈ root.calls,
      ∃ n args, c.id = n.id ∧ c.text = n.text p.source ∧ ArgumentsOf t n args ∧
        ∀ (d : MatchedMethod) (v x : String),
          (Context.bindAll (Context.arguments c d) []).find? v = some (.scalar x) →
            ∃ a, GivenFor d args v a ∧ x = a.value p.source := by
  have hfound : Findings.IsResolved AnyName {} := ⟨emptyScope_resolved, fun _ _ h => nomatch h⟩
  have hself : Known AnyName (p.env.instanceNamed? "Object") := Environment.instanceNamed_known _
  obtain ⟨root, f, he, -, -, -⟩ :=
    searches_visitWithin p t.height ⟨p.env.instanceNamed? "Object", [], false⟩ hself t (Nat.le_refl _)
      {} hfound
  have hwritten : AllWritten p.source t [root] :=
    yields_visitWithin t.height t.mem_nodes_self {} root f he
  have hrun : p.resolveTree t = .ok (root, f.typing) := by
    show ((p.visitWithin t.height _ t).run {} >>= fun r => pure (r.1, r.2.typing)) = _
    rw [StateT.run, he]
    rfl
  refine ⟨root, f.typing, hrun, ?_⟩
  intro c hc
  rw [mem_calls, ← walkAll_singleton] at hc
  obtain ⟨n, args, hid, htext, hargs, hvalues⟩ := hwritten c hc
  exact ⟨n, args, hid, htext, hargs, fun d v x h => givenFor_of_bound hvalues h⟩

/-! ## A splat before an argument -/

/-- A method with two required parameters. -/
def twoParameters : MatchedMethod := ⟨"A", "m", .ofSingleton, [some "a", some "b"], [], []⟩

def twoParametersText : String :=
  "class A
  def self.m: (Symbol a, Symbol b) -> void
end
"

/-- The program `A.m(*xs, :foo)`, where the method is declared. -/
def splatProgram : Program :=
  let base : Environment := { marker := .standard }
  ⟨((base.addSignature twoParametersText).toOption.map (·.1)).getD base, "A.m(*xs, :foo)".toList⟩

/-- Its tree. -/
def splatTree : Tree :=
  let node := fun (id : Nat) (kind : String) (start stop : Nat) (field : String)
      (children : List Tree) => Tree.mk id kind start stop field true false false children
  node 0 "program" 0 14 "" [
    node 1 "call" 0 14 "" [
      node 2 "constant" 0 1 "receiver" [],
      node 3 "identifier" 2 3 "method" [],
      node 4 "argument_list" 3 14 "arguments" [
        node 5 "splat_argument" 4 7 "" [node 6 "identifier" 5 7 "" []],
        node 7 "simple_symbol" 9 13 "" []]]]

theorem resolveTree_splat : ∃ root typing, splatProgram.resolveTree splatTree = .ok (root, typing) ∧
    typing.of? 1 = some (.matched "m" twoParameters []) ∧
    ∃ c ∈ root.calls, c.id = 1 ∧ c.values = ["foo"] := by
  have hrun : (splatProgram.resolveTree splatTree).toOption.map
      (fun r => (r.2.of? 1, r.1.calls.map fun c => (c.id, c.values)))
        = some (some (.matched "m" twoParameters []), [(1, ["foo"]), (6, [])]) := by
    decide +kernel
  cases htree : splatProgram.resolveTree splatTree with
  | error e =>
    rw [htree] at hrun
    cases hrun
  | ok r =>
    rw [htree] at hrun
    obtain ⟨htyping, hcalls⟩ := Prod.mk.inj (Option.some.inj hrun)
    obtain ⟨c, cs, hc, hvalues, -⟩ := List.map_eq_cons_iff.mp hcalls
    obtain ⟨hid, hvalues⟩ := Prod.mk.inj hvalues
    exact ⟨r.1, r.2, rfl, htyping, c, hc ▸ List.mem_cons_self, hid, hvalues⟩

/-- What is bound to `a` is a positional argument. -/
theorem resolveTree_arguments_splat :
    ∃ root typing, splatProgram.resolveTree splatTree = .ok (root, typing) ∧ ∃ c ∈ root.calls,
      ∃ n args a, c.id = n.id ∧ ArgumentsOf splatTree n args ∧ GivenFor twoParameters args "a" a ∧
        "foo" = a.value splatProgram.source := by
  obtain ⟨root, typing, hrun, -, c, hc, -, hvalues⟩ := resolveTree_splat
  obtain ⟨root', typing', hrun', hcalls⟩ := resolveTree_arguments splatProgram splatTree
  obtain ⟨rfl, rfl⟩ := Prod.mk.inj (Except.ok.inj (hrun.symm.trans hrun'))
  obtain ⟨n, args, hid, -, hargs, hbound⟩ := hcalls c hc
  have ha : (Context.bindAll (Context.arguments c twoParameters) []).find? "a"
      = some (.scalar "foo") := by
    rw [Context.arguments, hvalues]
    rfl
  obtain ⟨a, hgiven, hvalue⟩ := hbound twoParameters "a" "foo" ha
  exact ⟨root, typing, hrun, c, hc, n, args, a, hid, hargs, hgiven, hvalue⟩

/-- The first parameter gets the second argument, which stands behind a splat. -/
theorem splat_passedOver :
    ∃ root typing, splatProgram.resolveTree splatTree = .ok (root, typing) ∧ ∃ c ∈ root.calls,
      typing.of? c.id = some (.matched "m" twoParameters []) ∧
      twoParameters.required[0]? = some (some "a") ∧
      (Context.bindAll (Context.arguments c twoParameters) []).find? "a" = some (.scalar "foo") ∧
      ∃ n ∈ splatTree.nodes, n.id = c.id ∧ ∃ s a, n.arguments = [s, a] ∧ s.isSplat = true ∧
        s.value splatProgram.source = "*xs" ∧ a.value splatProgram.source = "foo" := by
  obtain ⟨root, typing, hrun, htyping, c, hc, hid, hvalues⟩ := resolveTree_splat
  refine ⟨root, typing, hrun, c, hc, hid ▸ htyping, rfl, ?_, ?_⟩
  · rw [Context.arguments, hvalues]
    rfl
  · rw [hid]
    have hnode : ∃ n ∈ splatTree.nodes, n.id = 1 ∧ n.arguments.map (fun s =>
        (s.isSplat, s.value splatProgram.source)) = [(true, "*xs"), (false, "foo")] := by
      decide +kernel
    obtain ⟨n, hn, hnid, harguments⟩ := hnode
    obtain ⟨s, rest, hsplit, hs, hrest⟩ := List.map_eq_cons_iff.mp harguments
    obtain ⟨a, rfl, ha⟩ := List.map_eq_singleton_iff.mp hrest
    obtain ⟨hsplat, hvalue⟩ := Prod.mk.inj hs
    exact ⟨n, hn, hnid, s, a, hsplit, hsplat, hvalue, (Prod.mk.inj ha).2⟩

end RbsSynth.Analysis
