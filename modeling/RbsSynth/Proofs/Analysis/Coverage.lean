import Mathlib.Data.List.Flatten
import Mathlib.Data.List.Nodup
import Mathlib.Data.List.Pairwise
import RbsSynth.Analysis.Resolver
import RbsSynth.Proofs.Analysis.Resolved

/-!
# Calls and their resolutions

A walk converts the trees with some numbers (`Converts`) when it ends, keeps what is known resolved, and
gives nodes that are numbered apart by these numbers, with a resolution recorded for each call among
them and for nothing else (`Covers`).  Each function of the walk converts the trees it is given, if
`visit` does; so the whole walk does:

    numbers apart, block of a call apart from its receiver and arguments
      →  the resolutions that are recorded are those of the calls          (resolveTree_typing)
-/

namespace RbsSynth.Analysis

open Signature

/-! ## Trees -/

namespace Tree

mutual

/-- A node and all nodes under it, each before those under it. -/
def nodes : Tree → List Tree
  | ⟨id, kind, start, stop, field, named, missing, faulty, children⟩ =>
    ⟨id, kind, start, stop, field, named, missing, faulty, children⟩ :: nodesOfAll children
termination_by structural t => t

def nodesOfAll : List Tree → List Tree
  | [] => []
  | t :: ts => t.nodes ++ nodesOfAll ts
termination_by structural ts => ts

end

/-- The receiver, the arguments and the block of a call. -/
def callParts (t : Tree) : List Tree :=
  (t.child? "receiver").toList ++ ((t.child? "arguments").toList ++ t.block?.toList)

/-- The receiver, the arguments and the block of each call are different nodes. -/
def CallsApart (t : Tree) : Prop :=
  ∀ c ∈ t.nodes, c.kind = "call" → (c.callParts.map (·.id)).Nodup

def ids (t : Tree) : List Nat := t.nodes.map (·.id)

def idsOfAll (ts : List Tree) : List Nat := ts.flatMap ids

theorem nodesOfAll_eq (ts : List Tree) : nodesOfAll ts = ts.flatMap nodes := by
  induction ts with
  | nil => rfl
  | cons t ts ih => rw [nodesOfAll, ih, List.flatMap_cons]

theorem nodes_eq (t : Tree) : t.nodes = t :: t.children.flatMap nodes := by
  obtain ⟨id, kind, start, stop, field, named, missing, faulty, children⟩ := t
  rw [nodes, nodesOfAll_eq]

theorem ids_eq (t : Tree) : t.ids = t.id :: idsOfAll t.children := by
  rw [ids, nodes_eq, List.map_cons, List.map_flatMap]
  rfl

theorem id_mem_ids (t : Tree) : t.id ∈ t.ids := by
  rw [ids_eq]
  exact List.mem_cons_self

theorem idsOfAll_append (ts us : List Tree) : idsOfAll (ts ++ us) = idsOfAll ts ++ idsOfAll us :=
  List.flatMap_append

theorem idsOfAll_cons (t : Tree) (ts : List Tree) : idsOfAll (t :: ts) = t.ids ++ idsOfAll ts :=
  List.flatMap_cons

theorem idsOfAll_singleton (t : Tree) : idsOfAll [t] = t.ids := List.flatMap_singleton ..

theorem idsOfAll_sublist {ts us : List Tree} (h : ts.Sublist us) :
    (idsOfAll ts).Sublist (idsOfAll us) := h.flatMap ids

theorem nodes_subset_of_child {t c : Tree} (hc : c ∈ t.children) : c.nodes ⊆ t.nodes := by
  intro d hd
  rw [nodes_eq]
  exact List.mem_cons_of_mem t (List.mem_flatMap.mpr ⟨c, hc, hd⟩)

theorem CallsApart.child {t c : Tree} (h : t.CallsApart) (hc : c ∈ t.children) : c.CallsApart :=
  fun d hd => h d (nodes_subset_of_child hc hd)

/-! ### Children -/

variable {t c : Tree} {field : String}

theorem mem_of_child (h : t.child? field = some c) : c ∈ t.children := List.mem_of_find?_eq_some h

theorem field_of_child (h : t.child? field = some c) : c.field = field :=
  eq_of_beq (List.find?_some (p := fun c : Tree => c.field == field) h)

theorem mem_of_block (h : t.block? = some c) : c ∈ t.children := by
  rw [block?, Option.or_eq_some_iff] at h
  rcases h with h | ⟨_, h⟩
  · exact mem_of_child h
  · exact List.mem_of_mem_filter (List.mem_of_find?_eq_some h)

theorem parts_sublist (t : Tree) : t.parts.Sublist t.children := List.filter_sublist

theorem mem_of_part (h : c ∈ t.parts) : c ∈ t.children := (parts_sublist t).subset h

theorem idsOfAll_children_sublist (t : Tree) : (idsOfAll t.children).Sublist t.ids := by
  rw [ids_eq]
  exact List.sublist_cons_self _ _

theorem idsOfAll_parts_sublist (t : Tree) : (idsOfAll t.parts).Sublist t.ids :=
  (idsOfAll_sublist (parts_sublist t)).trans (idsOfAll_children_sublist t)

/-- A statement of a block is a part of it or of the node around its statements. -/
theorem mem_of_body {b s : Tree} (h : s ∈ b.body) :
    s ∈ b.parts ∨ ∃ c ∈ b.parts, s ∈ c.parts := by
  obtain ⟨c, hc, hs⟩ := List.mem_flatMap.mp h
  split at hs
  · cases hs
  · split at hs
    · exact .inr ⟨c, hc, hs⟩
    · exact .inl (List.mem_singleton.mp hs ▸ hc)

theorem idsOfAll_body_sublist (b : Tree) : (idsOfAll b.body).Sublist (idsOfAll b.children) := by
  refine List.Sublist.trans ?_ (idsOfAll_sublist (parts_sublist b))
  rw [body]
  induction b.parts with
  | nil => exact List.Sublist.slnil
  | cons c cs ih =>
    rw [List.flatMap_cons, idsOfAll_append, idsOfAll_cons]
    refine List.Sublist.append ?_ ih
    split
    · exact List.nil_sublist _
    · split
      · exact idsOfAll_parts_sublist c
      · rw [idsOfAll_singleton]

theorem nodes_subset_of_body {b s : Tree} (hs : s ∈ b.body) : s.nodes ⊆ b.nodes := by
  rcases mem_of_body hs with hs | ⟨c, hc, hs⟩
  · exact nodes_subset_of_child (mem_of_part hs)
  · exact List.Subset.trans (nodes_subset_of_child (mem_of_part hs))
      (nodes_subset_of_child (mem_of_part hc))

theorem nodes_subset_of_argument {a : Tree} (ha : a ∈ t.arguments) : a.nodes ⊆ t.nodes := by
  rw [Tree.arguments] at ha
  split at ha
  · next as has =>
    exact List.Subset.trans (nodes_subset_of_child (mem_of_part ha))
      (nodes_subset_of_child (mem_of_child has))
  · cases ha

theorem CallsApart.body {b : Tree} (h : b.CallsApart) : ∀ s ∈ b.body, s.CallsApart :=
  fun _ hs d hd => h d (nodes_subset_of_body hs hd)

/-- Trees beside each other whose own numbers differ are numbered apart. -/
theorem idsOfAll_nodup {ts us : List Tree} (h : (idsOfAll us).Nodup) (hsub : ts ⊆ us)
    (hne : (ts.map (·.id)).Nodup) : (idsOfAll ts).Nodup := by
  obtain ⟨hself, hpair⟩ := List.nodup_flatMap.mp h
  refine List.nodup_flatMap.mpr ⟨fun t ht => hself t (hsub ht), ?_⟩
  have hsymm : Std.Symm (Function.onFun List.Disjoint ids) := ⟨fun _ _ h _ hb ha => h ha hb⟩
  refine (List.pairwise_map.mp hne).imp_of_mem fun {a b} ha hb hab => ?_
  exact hpair.forall (hsub ha) (hsub hb) fun he => hab (congrArg (·.id) he)

theorem nodup_map_id {ts : List Tree} (h : (idsOfAll ts).Nodup) : (ts.map (·.id)).Nodup := by
  obtain ⟨_, hpair⟩ := List.nodup_flatMap.mp h
  refine List.pairwise_map.mpr (hpair.imp fun {a b} hab he => ?_)
  exact hab (id_mem_ids a) (by rw [he]; exact id_mem_ids b)

theorem idsOfAll_children_nodup (h : t.ids.Nodup) : (idsOfAll t.children).Nodup :=
  h.sublist (idsOfAll_children_sublist t)

theorem ids_nodup_of_mem (h : t.ids.Nodup) (hc : c ∈ t.children) : c.ids.Nodup :=
  (List.nodup_flatMap.mp (idsOfAll_children_nodup h)).1 c hc

theorem idsOfAll_subset {ts : List Tree} (h : ts ⊆ t.children) : idsOfAll ts ⊆ idsOfAll t.children :=
  fun _ hi =>
    let ⟨c, hc, hi⟩ := List.mem_flatMap.mp hi
    List.mem_flatMap.mpr ⟨c, h hc, hi⟩

end Tree

/-! ## Nodes -/

theorem walkReceiver_eq (o : Option ProgramNode) : walkReceiver o = walkAll o.toList := by
  cases o with
  | none => rfl
  | some n => exact (List.append_nil _).symm

theorem walkAll_append (ns ms : List ProgramNode) : walkAll (ns ++ ms) = walkAll ns ++ walkAll ms := by
  induction ns with
  | nil => rfl
  | cons n ns ih => rw [List.cons_append, walkAll, ih, walkAll, List.append_assoc]

theorem walkAll_singleton (n : ProgramNode) : walkAll [n] = n.walk := List.append_nil _

theorem walk_call (c : Call) : ProgramNode.walk (.call c) = .call c :: walkAll c.children := by
  obtain ⟨id, method, receiver, arguments, values, block, text⟩ := c
  rw [ProgramNode.walk, Call.walkUnder, walkReceiver_eq, Call.children, Call.head, walkAll_append,
    walkAll_append]
  cases block with
  | none => rfl
  | some b =>
    obtain ⟨parameters, body⟩ := b
    rfl

theorem walk_other (id : Nat) (kind literal : String) (children : List ProgramNode) :
    ProgramNode.walk (.other id kind literal children)
      = .other id kind literal children :: walkAll children := rfl

/-! ## Recorded resolutions -/

theorem of_record (typing : Typing) (id i : Nat) (r : Resolution) :
    (typing.record id r).of? i = if i = id then some r else typing.of? i := by
  rw [Typing.of?, Typing.of?]
  induction typing with
  | nil =>
    rw [Typing.record, List.lookup_cons]
    by_cases h : i = id
    · rw [if_pos h, beq_iff_eq.mpr h]
    · rw [if_neg h, beq_eq_false_iff_ne.mpr h]
  | cons p rest ih =>
    obtain ⟨j, s⟩ := p
    rw [Typing.record, List.lookup_cons]
    by_cases hj : j = id
    · rw [if_pos hj, List.lookup_cons]
      by_cases h : i = id
      · rw [if_pos h, beq_iff_eq.mpr (h.trans hj.symm)]
      · have hne : (i == j) = false := beq_eq_false_iff_ne.mpr fun he => h (he.trans hj)
        rw [if_neg h, hne]
    · rw [if_neg hj, List.lookup_cons, ih]
      by_cases h : i = j
      · subst h
        rw [BEq.rfl]
        exact (if_neg hj).symm
      · rw [beq_eq_false_iff_ne.mpr h]

/-- Nodes numbered apart, by some of `ids`; between `before` and `after` the resolutions of the calls
among them were recorded, and nothing else. -/
structure Covers (ids : List Nat) (before after : Typing) (ns : List ProgramNode) : Prop where
  within : ∀ n ∈ walkAll ns, n.id ∈ ids
  apart : ((walkAll ns).map ProgramNode.id).Nodup
  kept : ∀ i, (∀ c, .call c ∈ walkAll ns → c.id ≠ i) → after.of? i = before.of? i
  recorded : ∀ c, .call c ∈ walkAll ns → ∃ r, after.of? c.id = some r ∧ r.method = c.method

namespace Covers

variable {ids ids' : List Nat} {before between after : Typing} {ns ms : List ProgramNode}

theorem call_mem (h : Covers ids before after ns) {c : Call} (hc : .call c ∈ walkAll ns) :
    c.id ∈ ids := h.within (.call c) hc

theorem nil (ids : List Nat) (typing : Typing) : Covers ids typing typing [] where
  within _ h := nomatch h
  apart := .nil
  kept _ _ := rfl
  recorded _ h := nomatch h

theorem mono (h : Covers ids before after ns) (hsub : ids ⊆ ids') : Covers ids' before after ns where
  within n hn := hsub (h.within n hn)
  apart := h.apart
  kept := h.kept
  recorded := h.recorded

theorem append (h : Covers ids before between ns) (h' : Covers ids' between after ms)
    (hdisj : ids.Disjoint ids') : Covers (ids ++ ids') before after (ns ++ ms) where
  within n hn := by
    rw [walkAll_append] at hn
    rcases List.mem_append.mp hn with hn | hn
    · exact List.mem_append_left ids' (h.within n hn)
    · exact List.mem_append_right ids (h'.within n hn)
  apart := by
    rw [walkAll_append, List.map_append]
    refine h.apart.append h'.apart fun i hi hi' => ?_
    obtain ⟨n, hn, rfl⟩ := List.mem_map.mp hi
    obtain ⟨m, hm, he⟩ := List.mem_map.mp hi'
    exact hdisj (h.within n hn) (he ▸ h'.within m hm)
  kept i hi := by
    rw [walkAll_append] at hi
    rw [h'.kept i fun c hc => hi c (List.mem_append_right _ hc),
      h.kept i fun c hc => hi c (List.mem_append_left _ hc)]
  recorded c hc := by
    rw [walkAll_append] at hc
    rcases List.mem_append.mp hc with hc | hc
    · obtain ⟨r, hr, hm⟩ := h.recorded c hc
      refine ⟨r, ?_, hm⟩
      rw [h'.kept c.id fun d hd he => hdisj (h.call_mem hc) (he ▸ h'.call_mem hd)]
      exact hr
    · exact h'.recorded c hc

/-- The order of the nodes is not told. -/
theorem swap (h : Covers ids before after (ns ++ ms)) : Covers ids before after (ms ++ ns) := by
  have hperm : (walkAll (ns ++ ms)).Perm (walkAll (ms ++ ns)) := by
    rw [walkAll_append, walkAll_append]
    exact List.perm_append_comm
  exact ⟨fun n hn => h.within n (hperm.mem_iff.mpr hn), (hperm.map _).nodup_iff.mp h.apart,
    fun i hi => h.kept i fun c hc => hi c (hperm.mem_iff.mp hc),
    fun c hc => h.recorded c (hperm.mem_iff.mpr hc)⟩

theorem other (h : Covers ids before after ns) (id : Nat) (kind literal : String) (hid : id ∉ ids) :
    Covers (id :: ids) before after [.other id kind literal ns] where
  within n hn := by
    rw [walkAll_singleton, walk_other] at hn
    rcases List.mem_cons.mp hn with rfl | hn
    · exact List.mem_cons_self
    · exact List.mem_cons_of_mem id (h.within n hn)
  apart := by
    rw [walkAll_singleton, walk_other, List.map_cons]
    refine List.nodup_cons.mpr ⟨fun hmem => ?_, h.apart⟩
    obtain ⟨n, hn, he⟩ := List.mem_map.mp hmem
    have hn := h.within n hn
    rw [he] at hn
    exact hid hn
  kept i hi := h.kept i fun c hc => hi c (by
    rw [walkAll_singleton, walk_other]
    exact List.mem_cons_of_mem _ hc)
  recorded c hc := by
    rw [walkAll_singleton, walk_other] at hc
    rcases List.mem_cons.mp hc with hc | hc
    · cases hc
    · exact h.recorded c hc

/-- A call is recorded when what stands before its block has been visited. -/
theorem call {r : Resolution} {c : Call} {body : List ProgramNode}
    (hc : c.children = ns ++ body) (h : Covers ids before between ns)
    (h' : Covers ids' (between.record c.id r) after body) (hdisj : ids.Disjoint ids')
    (hid : c.id ∉ ids ++ ids') (hr : r.method = c.method) :
    Covers (c.id :: (ids ++ ids')) before after [.call c] := by
  have hwalk : walkAll [.call c] = .call c :: (walkAll ns ++ walkAll body) := by
    rw [walkAll_singleton, walk_call, hc, walkAll_append]
  have hboth : ∀ n ∈ walkAll ns ++ walkAll body, n.id ∈ ids ++ ids' := by
    intro n hn
    rcases List.mem_append.mp hn with hn | hn
    · exact List.mem_append_left ids' (h.within n hn)
    · exact List.mem_append_right ids (h'.within n hn)
  constructor
  · intro n hn
    rw [hwalk] at hn
    rcases List.mem_cons.mp hn with rfl | hn
    · exact List.mem_cons_self
    · exact List.mem_cons_of_mem c.id (hboth n hn)
  · rw [hwalk, List.map_cons, List.map_append]
    refine List.nodup_cons.mpr ⟨fun hmem => ?_, h.apart.append h'.apart fun i hi hi' => ?_⟩
    · rw [← List.map_append] at hmem
      obtain ⟨n, hn, he⟩ := List.mem_map.mp hmem
      have hn := hboth n hn
      rw [he] at hn
      exact hid hn
    · obtain ⟨n, hn, rfl⟩ := List.mem_map.mp hi
      obtain ⟨m, hm, he⟩ := List.mem_map.mp hi'
      exact hdisj (h.within n hn) (he ▸ h'.within m hm)
  · intro i hi
    rw [hwalk] at hi
    rw [h'.kept i fun d hd => hi d (List.mem_cons_of_mem _ (List.mem_append_right _ hd)), of_record,
      if_neg fun he => hi c List.mem_cons_self he.symm,
      h.kept i fun d hd => hi d (List.mem_cons_of_mem _ (List.mem_append_left _ hd))]
  · intro d hd
    rw [hwalk] at hd
    rcases List.mem_cons.mp hd with hd | hd
    · cases hd
      refine ⟨r, ?_, hr⟩
      have hbody : ∀ d, .call d ∈ walkAll body → d.id ≠ c.id := fun d hd he =>
        hid (he ▸ List.mem_append_right ids (h'.call_mem hd))
      rw [h'.kept c.id hbody, of_record, if_pos rfl]
    · rcases List.mem_append.mp hd with hd | hd
      · obtain ⟨s, hs, hm⟩ := h.recorded d hd
        refine ⟨s, ?_, hm⟩
        have hne : d.id ≠ c.id := fun he => hid (he ▸ List.mem_append_left ids' (h.call_mem hd))
        rw [h'.kept d.id fun e he hde => hdisj (h.call_mem hd) (hde ▸ h'.call_mem he), of_record,
          if_neg hne]
        exact hs
      · exact h'.recorded d hd

end Covers

/-! ## Walks -/

/-- What a walk has found is resolved. -/
structure Findings.IsResolved (named : TypeName → Prop) (f : Findings) : Prop where
  scope : Scope.IsResolved named f.scope
  types : ∀ id o, f.types.lookup id = some o → Known named o

variable {named : TypeName → Prop}

theorem Scope.IsResolved.put {scope : Scope} (h : Scope.IsResolved named scope) (name : String)
    {o : Option TypeExpr} (ho : Known named o) : Scope.IsResolved named (scope.put name o) := by
  intro n p hp
  rw [Index.find?_put] at hp
  split at hp
  · exact Option.some.inj hp ▸ ho
  · exact h n p hp

theorem Scope.IsResolved.putNone {scope : Scope} (h : Scope.IsResolved named scope) (names : List String) :
    Scope.IsResolved named (names.foldl (fun s n => s.put n none) scope) := by
  induction names generalizing scope with
  | nil => exact h
  | cons n names ih => exact ih (h.put n known_none)

namespace Walk

variable {α β : Type} {f : Findings} {Q : α → Findings → Prop}

/-- The walk ends, with a result and findings of which `Q` holds. -/
def Gives (act : Walk α) (f : Findings) (Q : α → Findings → Prop) : Prop :=
  ∃ a g, act f = .ok (a, g) ∧ Q a g

theorem Gives.bind {act : Walk α} {k : α → Walk β} {P : α → Findings → Prop}
    {Q : β → Findings → Prop} (h : Gives act f P) (hk : ∀ a g, P a g → Gives (k a) g Q) :
    Gives (act >>= k) f Q := by
  obtain ⟨a, g, he, hp⟩ := h
  obtain ⟨b, g', he', hq⟩ := hk a g hp
  refine ⟨b, g', ?_, hq⟩
  show (act f >>= fun r => k r.1 r.2) = _
  rw [he]
  exact he'

theorem Gives.imp {act : Walk α} {P : α → Findings → Prop} (h : Gives act f P)
    (hq : ∀ a g, P a g → Q a g) : Gives act f Q :=
  let ⟨a, g, he, hp⟩ := h
  ⟨a, g, he, hq a g hp⟩

theorem gives_pure {a : α} (h : Q a f) : Gives (pure a) f Q := ⟨a, f, rfl, h⟩

theorem gives_get {k : Findings → Walk α} (h : Gives (k f) f Q) : Gives (get >>= k) f Q := h

/-- The walk changes local variables only, if anything. -/
def Assigns (named : TypeName → Prop) (act : Walk Unit) : Prop :=
  ∀ f : Findings, f.IsResolved named →
    Gives act f fun _ g => g.IsResolved named ∧ g.typing = f.typing

theorem assigns_declare (name : String) {type : Option TypeExpr} (h : Known named type) :
    Assigns named (declare name type) :=
  fun _ hf => ⟨(), _, rfl, ⟨hf.scope.put name h, hf.types⟩, rfl⟩

theorem assigns_declareAll (names : List String) : Assigns named (declareAll names) := by
  intro f hf
  rw [declareAll]
  induction names generalizing f with
  | nil => exact gives_pure ⟨hf, rfl⟩
  | cons n names ih =>
    show Gives (do declare n none; names.forM (declare · none)) f _
    refine (assigns_declare n known_none f hf).bind fun _ g hg => ?_
    exact (ih g hg.1).imp fun _ g' hg' => ⟨hg'.1, hg'.2.trans hg.2⟩

theorem gives_recordType (id : Nat) {type : Option TypeExpr} (h : Known named type)
    (hf : f.IsResolved named) :
    Gives (recordType id type) f fun _ g => g.IsResolved named ∧ g.typing = f.typing := by
  refine ⟨(), _, rfl, ⟨hf.scope, fun i o ho => ?_⟩, rfl⟩
  rw [List.lookup_cons] at ho
  split at ho
  · exact Option.some.inj ho ▸ h
  · exact hf.types i o ho

theorem gives_within {scope : Scope} {act : Walk α} {P : α → Findings → Prop}
    (h : Gives act { f with scope := scope } P) :
    Gives (within scope act) f fun r g =>
      ∃ g', P r.1 g' ∧ r.2 = g'.scope ∧ g = { g' with scope := f.scope } := by
  obtain ⟨a, g, he, hp⟩ := h
  refine ⟨(a, g.scope), { g with scope := f.scope }, ?_, g, hp, rfl, rfl⟩
  rw [within, he]
  rfl

end Walk

open Walk

/-! ## Conversions -/

/-- The walk gives nodes for trees numbered by `ids`, and records the calls among them. -/
def Converts (ids : List Nat) (act : Walk (List ProgramNode)) : Prop :=
  ∀ f : Findings, f.IsResolved AnyName →
    Gives act f fun ns g => g.IsResolved AnyName ∧ Covers ids f.typing g.typing ns

/-- The same for a walk that gives one node. -/
def ConvertsOne (ids : List Nat) (act : Walk ProgramNode) : Prop :=
  ∀ f : Findings, f.IsResolved AnyName →
    Gives act f fun n g => g.IsResolved AnyName ∧ Covers ids f.typing g.typing [n]

/-- Every tree that is numbered apart is converted. -/
def Visit.Converts (visit : Visit) : Prop :=
  ∀ ctx t, Known AnyName ctx.self → t.ids.Nodup → t.CallsApart → ConvertsOne t.ids (visit ctx t)

variable {ids ids' : List Nat}

theorem ConvertsOne.mono {act : Walk ProgramNode} (h : ConvertsOne ids act) (hsub : ids ⊆ ids') :
    ConvertsOne ids' act := fun f hf =>
  (h f hf).imp fun _ _ hg => ⟨hg.1, hg.2.mono hsub⟩

theorem Converts.mono {act : Walk (List ProgramNode)} (h : Converts ids act) (hsub : ids ⊆ ids') :
    Converts ids' act := fun f hf =>
  (h f hf).imp fun _ _ hg => ⟨hg.1, hg.2.mono hsub⟩

theorem converts_nil : Converts [] (pure []) := fun f hf => gives_pure ⟨hf, .nil [] f.typing⟩

theorem ConvertsOne.cons {act : Walk ProgramNode} {rest : Walk (List ProgramNode)}
    (h : ConvertsOne ids act) (h' : Converts ids' rest) (hdisj : ids.Disjoint ids') :
    Converts (ids ++ ids') (do let n ← act; return n :: (← rest)) := by
  intro f hf
  refine (h f hf).bind fun n g hg => ?_
  refine (h' g hg.1).bind fun ns g' hg' => ?_
  exact gives_pure ⟨hg'.1, hg.2.append hg'.2 hdisj⟩

theorem ConvertsOne.single {act : Walk ProgramNode} (h : ConvertsOne ids act) :
    Converts ids (do return [← act]) := fun f hf =>
  (h f hf).bind fun _ _ hg => gives_pure hg

variable {p : Program} {t : Tree}

theorem covers_leaf (typing : Typing) : Covers t.ids typing typing [p.leaf t] :=
  ((Covers.nil [] typing).other t.id t.kind (t.value p.source) List.not_mem_nil).mono
    (List.cons_subset.mpr ⟨t.id_mem_ids, List.nil_subset _⟩)

theorem convertsOne_leaf : ConvertsOne t.ids (pure (p.leaf t)) := fun f hf =>
  gives_pure ⟨hf, covers_leaf f.typing⟩

/-- A node covers what the nodes under it cover. -/
theorem Covers.under {before after : Typing} {ns : List ProgramNode} (h : Covers ids before after ns)
    (hn : t.ids.Nodup) (hsub : ids ⊆ Tree.idsOfAll t.children) :
    Covers t.ids before after [p.other t ns] := by
  rw [Tree.ids_eq] at hn ⊢
  have hid := fun hmem => (List.nodup_cons.mp hn).1 (hsub hmem)
  exact (h.other t.id t.kind _ hid).mono (List.cons_subset_cons t.id hsub)

theorem Converts.other {act : Walk (List ProgramNode)} (h : Converts ids act)
    (hn : t.ids.Nodup) (hsub : ids ⊆ Tree.idsOfAll t.children) :
    ConvertsOne t.ids (do return p.other t (← act)) := fun f hf =>
  (h f hf).bind fun _ _ hg => gives_pure ⟨hg.1, hg.2.under hn hsub⟩

variable {visit : Visit} {ctx : Context}

theorem visitAll_converts (hv : visit.Converts) (hctx : Known AnyName ctx.self) {ts : List Tree}
    (hn : (Tree.idsOfAll ts).Nodup) (ha : ∀ t ∈ ts, t.CallsApart) :
    Converts (Tree.idsOfAll ts) (Program.visitAll visit ctx ts) := by
  induction ts with
  | nil => exact converts_nil
  | cons t ts ih =>
    rw [Tree.idsOfAll_cons] at hn ⊢
    obtain ⟨ht, hts, _⟩ := List.nodup_append.mp hn
    exact (hv ctx t hctx ht (ha t List.mem_cons_self)).cons
      (ih hts fun u hu => ha u (List.mem_cons_of_mem t hu)) (List.disjoint_of_nodup_append hn)

theorem mapM_converts {act : Tree → Walk ProgramNode} {ts : List Tree}
    (hn : (Tree.idsOfAll ts).Nodup) (h : ∀ t ∈ ts, ConvertsOne t.ids (act t)) :
    Converts (Tree.idsOfAll ts) (ts.mapM act) := by
  induction ts with
  | nil => exact converts_nil
  | cons t ts ih =>
    rw [Tree.idsOfAll_cons] at hn ⊢
    rw [List.mapM_cons]
    exact (h t List.mem_cons_self).cons
      (ih (List.nodup_append.mp hn).2.1 fun u hu => h u (List.mem_cons_of_mem t hu))
      (List.disjoint_of_nodup_append hn)

theorem visitBody_converts {inside : Tree → Walk ProgramNode}
    {outside : Tree → Option (Walk ProgramNode)} {ts : List Tree} {scope : Scope}
    (hscope : Scope.IsResolved AnyName scope) (hn : (Tree.idsOfAll ts).Nodup)
    (hin : ∀ t ∈ ts, ConvertsOne t.ids (inside t))
    (hout : ∀ t ∈ ts, ∀ act, outside t = some act → ConvertsOne t.ids act) :
    Converts (Tree.idsOfAll ts) (Program.visitBody inside outside scope ts) := by
  induction ts generalizing scope with
  | nil => exact converts_nil
  | cons t ts ih =>
    rw [Tree.idsOfAll_cons] at hn ⊢
    have hdisj := List.disjoint_of_nodup_append hn
    obtain ⟨_, hts, _⟩ := List.nodup_append.mp hn
    have hrest : ∀ {scope : Scope}, Scope.IsResolved AnyName scope →
        Converts (Tree.idsOfAll ts) (Program.visitBody inside outside scope ts) := fun hs =>
      ih hs hts (fun u hu => hin u (List.mem_cons_of_mem t hu))
        fun u hu => hout u (List.mem_cons_of_mem t hu)
    rw [Program.visitBody]
    split
    · next act hact => exact (hout t List.mem_cons_self act hact).cons (hrest hscope) hdisj
    · intro f hf
      refine (gives_within (hin t List.mem_cons_self { f with scope := scope }
        ⟨hscope, hf.types⟩)).bind fun (n, s) g ⟨g', ⟨hg', hcov⟩, hs, hg⟩ => ?_
      subst hs hg
      refine (hrest hg'.scope { g' with scope := f.scope } ⟨hf.scope, hg'.types⟩).bind
        fun ns g hg => gives_pure ⟨hg.1, ?_⟩
      exact hcov.append hg.2 hdisj

/-- Nodes beside each other below a node, each apart from the others. -/
structure Below (t : Tree) (ts : List Tree) : Prop where
  subset : ts ⊆ t.children
  nodup : (Tree.idsOfAll ts).Nodup

theorem Below.of_ids {ts : List Tree} (hn : t.ids.Nodup) (hsub : ts ⊆ t.children)
    (hne : (ts.map (·.id)).Nodup) : Below t ts :=
  ⟨hsub, Tree.idsOfAll_nodup (Tree.idsOfAll_children_nodup hn) hsub hne⟩

theorem Below.sublist {ts us : List Tree} (h : Below t ts) (hs : us.Sublist ts) : Below t us :=
  ⟨fun _ hu => h.subset (hs.subset hu), h.nodup.sublist (Tree.idsOfAll_sublist hs)⟩

theorem below_parts (hn : t.ids.Nodup) : Below t t.parts :=
  ⟨(Tree.parts_sublist t).subset, hn.sublist (Tree.idsOfAll_parts_sublist t)⟩

theorem Below.calls {ts : List Tree} (h : Below t ts) (ha : t.CallsApart) :
    ∀ c ∈ ts, c.CallsApart := fun _ hc => ha.child (h.subset hc)

theorem Below.visited {c : Tree} {ts : List Tree} (h : Below t ts) (hn : t.ids.Nodup)
    (ha : t.CallsApart) (hv : visit.Converts) (hctx : Known AnyName ctx.self) (hc : c ∈ ts) :
    ConvertsOne c.ids (visit ctx c) :=
  hv ctx c hctx (Tree.ids_nodup_of_mem hn (h.subset hc)) (ha.child (h.subset hc))

end RbsSynth.Analysis
