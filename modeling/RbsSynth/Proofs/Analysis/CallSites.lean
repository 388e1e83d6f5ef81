import RbsSynth.Proofs.Analysis.Entered
import RbsSynth.Settings.Basic

/-!
# Which call sites get a resolution

`Searches came P act` says that a walk ends, with a result of which `P` holds, and gives a resolution to
each call among the nodes in `came` and to no node outside.  Each function of the walk searches the
nodes that it comes to, if `visit` does, so a call has a resolution exactly when the walk comes to it:

    numbers apart  →  (the call c has a resolution  ↔  t.Reaches c)            (resolveTree_callSites)

Not every call has one: the walk of `->(x = foo()) { x }` passes by `foo()`     (not_everyCallResolved)
-/

namespace RbsSynth.Analysis

open Signature Walk

open Analysis.Tree (reachedFrom reachedFrom_nil reachedFrom_append reachedFrom_cons reachedFrom_singleton)

/-! ## What a walk finds -/

/-- Between `before` and `after` each call among the nodes in `came` got a resolution, and nothing was
recorded for nodes outside of `came`. -/
structure Finds (came : Set Tree) (before after : Findings) : Prop where
  kept : ∀ i, (before.typing.of? i).isSome → (after.typing.of? i).isSome
  calls : ∀ c ∈ came, c.kind = "call" → (after.typing.of? c.id).isSome
  elsewhere : ∀ i, (∀ c ∈ came, c.id ≠ i) →
    after.typing.of? i = before.typing.of? i ∧ after.types.lookup i = before.types.lookup i

namespace Finds

variable {came came' : Set Tree} {before between after : Findings}

theorem trans (h : Finds came before between) (h' : Finds came' between after) :
    Finds (came ∪ came') before after where
  kept i hi := h'.kept i (h.kept i hi)
  calls c hc hk := hc.elim (fun hc => h'.kept c.id (h.calls c hc hk)) fun hc => h'.calls c hc hk
  elsewhere i hi := by
    obtain ⟨htyping, htypes⟩ := h.elsewhere i fun c hc => hi c (.inl hc)
    obtain ⟨htyping', htypes'⟩ := h'.elsewhere i fun c hc => hi c (.inr hc)
    exact ⟨htyping'.trans htyping, htypes'.trans htypes⟩

/-- Only local variables differ. -/
theorem of_eq (htyping : after.typing = before.typing) (htypes : after.types = before.types) :
    Finds ∅ before after where
  kept _ := by
    rw [htyping]
    exact id
  calls _ h := h.elim
  elsewhere _ _ := by
    rw [htyping, htypes]
    exact ⟨rfl, rfl⟩

theorem refl (f : Findings) : Finds ∅ f f := of_eq rfl rfl

/-- A node that is no call is come to. -/
theorem come {t : Tree} (hk : t.kind ≠ "call") (f : Findings) : Finds {t} f f where
  kept _ := id
  calls _ hc hcall := absurd (Set.mem_singleton_iff.mp hc ▸ hcall) hk
  elsewhere _ _ := ⟨rfl, rfl⟩

theorem lookup_elsewhere {t : Tree} {i : Nat} (hi : ∀ c ∈ ({t} : Set Tree), c.id ≠ i)
    (type : Option TypeExpr) (types : List (Nat × Option TypeExpr)) :
    List.lookup i ((t.id, type) :: types) = types.lookup i := by
  rw [List.lookup_cons, beq_eq_false_iff_ne.mpr fun he => hi t (Set.mem_singleton t) he.symm]

theorem record (t : Tree) (f : Findings) (r : Resolution) (type : Option TypeExpr) :
    Finds {t} f { f with types := (t.id, type) :: f.types, typing := f.typing.record t.id r } where
  kept i hi := by
    rw [of_record]
    split
    · rfl
    · exact hi
  calls c hc _ := by
    rw [Set.mem_singleton_iff.mp hc, of_record, if_pos rfl]
    rfl
  elsewhere i hi := by
    rw [of_record, if_neg fun he => hi t (Set.mem_singleton t) he.symm]
    exact ⟨rfl, lookup_elsewhere hi type f.types⟩

theorem recordType {t : Tree} (hk : t.kind ≠ "call") (f : Findings) (type : Option TypeExpr) :
    Finds {t} f { f with types := (t.id, type) :: f.types } where
  kept _ := id
  calls _ hc hcall := absurd (Set.mem_singleton_iff.mp hc ▸ hcall) hk
  elsewhere _ hi := ⟨rfl, lookup_elsewhere hi type f.types⟩

end Finds

/-- The walk ends, with a result of which `P` holds, and resolves the calls among the nodes in
`came`. -/
def Searches {α : Type} (came : Set Tree) (P : α → Prop) (act : Walk α) : Prop :=
  ∀ f : Findings, f.IsResolved AnyName →
    Gives act f fun a g => g.IsResolved AnyName ∧ P a ∧ Finds came f g

/-- Nothing is asked of the result. -/
abbrev Any {α : Type} : α → Prop := fun _ => True

section

variable {α β : Type} {came came' : Set Tree} {P : α → Prop} {Q : β → Prop}

theorem Searches.bind {act : Walk α} {k : α → Walk β} (h : Searches came P act)
    (hk : ∀ a, P a → Searches came' Q (k a)) : Searches (came ∪ came') Q (act >>= k) := fun f hf =>
  (h f hf).bind fun a g ⟨hg, ha, hfound⟩ => (hk a ha g hg).imp fun _ _ ⟨hg', hb, hfound'⟩ =>
    ⟨hg', hb, hfound.trans hfound'⟩

/-- A step that comes to no node. -/
theorem Searches.step {act : Walk α} {k : α → Walk β} (h : Searches ∅ P act)
    (hk : ∀ a, P a → Searches came Q (k a)) : Searches came Q (act >>= k) :=
  Set.empty_union came ▸ h.bind hk

theorem searches_pure {a : α} (h : P a) : Searches ∅ P (pure a) :=
  fun f hf => gives_pure ⟨hf, h, .refl f⟩

/-- A last step that only makes something of the result. -/
theorem Searches.give {act : Walk α} (h : Searches came P act) (make : α → β)
    (hq : ∀ a, P a → Q (make a)) : Searches came Q (do return make (← act)) := fun f hf =>
  (h f hf).bind fun a _ ⟨hg, ha, hfound⟩ => gives_pure ⟨hg, hq a ha, hfound⟩

theorem searches_get {k : Findings → Walk α}
    (h : ∀ f : Findings, f.IsResolved AnyName → Searches came P (k f)) :
    Searches came P (get >>= k) := fun f hf => h f hf f hf

theorem searches_declare (name : String) {type : Option TypeExpr} (h : Known AnyName type) :
    Searches ∅ Any (declare name type) :=
  fun _ hf => ⟨(), _, rfl, ⟨hf.scope.put name h, hf.types⟩, trivial, .of_eq rfl rfl⟩

theorem searches_declareAll (names : List String) : Searches ∅ Any (declareAll names) := by
  induction names with
  | nil => exact searches_pure trivial
  | cons n names ih => exact (searches_declare n known_none).step fun _ _ => ih

theorem searches_within {act : Walk α} {scope : Scope} (hscope : Scope.IsResolved AnyName scope)
    (h : Searches came P act) :
    Searches came (fun r => P r.1 ∧ Scope.IsResolved AnyName r.2) (within scope act) := fun f hf =>
  (gives_within (h { f with scope := scope } ⟨hscope, hf.types⟩)).imp
    fun _ _ ⟨_, ⟨hg, ha, hfound⟩, hs, he⟩ =>
      he ▸ ⟨⟨hf.scope, hg.types⟩, ⟨ha, hs ▸ hg.scope⟩, hfound.kept, hfound.calls, hfound.elsewhere⟩

variable {p : Program} {ctx : Context} {t : Tree}

theorem searches_typeOf (hctx : Known AnyName ctx.self) (t : Tree) :
    Searches ∅ (Known AnyName) (p.typeOf ctx t) := fun f hf =>
  (gives_typeOf hctx hf t).imp fun _ _ ⟨he, ho⟩ => ⟨he ▸ hf, ho, he ▸ .refl f⟩

theorem searches_recordType (hk : t.kind ≠ "call") {type : Option TypeExpr}
    (h : Known AnyName type) : Searches {t} Any (Walk.recordType t.id type) := fun f hf =>
  let ⟨_, _, he, hg, _⟩ := gives_recordType t.id h hf
  ⟨(), _, rfl, by cases he; exact hg, trivial, .recordType hk f type⟩

/-- What is recorded for a call. -/
theorem resolve_eq {id : Nat} {method : String} {receiver : Option TypeExpr} {args : Arguments}
    {r : Resolution} {ms : List Match} (h : resolveCall p.env method receiver args = .ok (r, ms))
    (f : Findings) : p.resolve id method receiver args f = .ok (ms, { f with
      types := (id, resultType p.env method ms) :: f.types, typing := f.typing.record id r }) := by
  show (liftM (resolveCall p.env method receiver args) >>= _ : Walk (List Match)) f = _
  rw [h]
  rfl

theorem searches_resolve (t : Tree) (method : String) {receiver : Option TypeExpr}
    (h : Known AnyName receiver) (args : Arguments) :
    Searches {t} (fun ms => ∀ m ∈ ms, Resolved AnyName m.member)
      (p.resolve t.id method receiver args) := by
  intro f hf
  obtain ⟨r, ms, hcall, -, hms⟩ := resolveCall_ok p.env method args h
  obtain ⟨_, g, he, hg, -⟩ := gives_resolve hf t.id method h args
  rw [resolve_eq hcall] at he
  obtain ⟨-, rfl⟩ := Prod.mk.inj (Except.ok.inj he)
  exact ⟨ms, _, resolve_eq hcall f, hg, hms, .record t f r _⟩

end

/-! ## Functions of the walk -/

/-- Wherever the walk goes on at these nodes, it resolves the calls that it comes to. -/
def Visit.Searches (visit : Visit) (ts : List Tree) : Prop :=
  ∀ ctx, Known AnyName ctx.self → ∀ t ∈ ts, Analysis.Searches (reachedFrom [t]) Any (visit ctx t)

theorem Visit.Searches.mono {visit : Visit} {ts us : List Tree} (h : visit.Searches us)
    (hsub : ts ⊆ us) : visit.Searches ts := fun ctx hctx t ht => h ctx hctx t (hsub ht)

variable {p : Program} {visit : Visit} {ctx : Context} {t : Tree}

theorem searches_visitAll (hctx : Known AnyName ctx.self) {ts : List Tree} (hv : visit.Searches ts) :
    Searches (reachedFrom ts) Any (Program.visitAll visit ctx ts) := by
  induction ts with
  | nil => exact reachedFrom_nil ▸ searches_pure trivial
  | cons t ts ih =>
    rw [reachedFrom_cons]
    exact (hv ctx hctx t List.mem_cons_self).bind fun _ _ =>
      (ih (hv.mono (List.subset_cons_self t ts))).give _ fun _ _ => trivial

/-- The parts of a body, when the walk goes on at `places c` from each part `c`. -/
theorem searches_visitBody {inside : Tree → Walk ProgramNode}
    {outside : Tree → Option (Walk ProgramNode)} (places : Tree → List Tree) {scope : Scope}
    (hscope : Scope.IsResolved AnyName scope) {ts : List Tree}
    (hin : ∀ c ∈ ts, outside c = none → Searches (reachedFrom (places c)) Any (inside c))
    (hout : ∀ c ∈ ts, ∀ act, outside c = some act → Searches (reachedFrom (places c)) Any act) :
    Searches (reachedFrom (ts.flatMap places)) Any (Program.visitBody inside outside scope ts) := by
  induction ts generalizing scope with
  | nil => exact reachedFrom_nil ▸ searches_pure trivial
  | cons c ts ih =>
    have hrest : ∀ {scope : Scope}, Scope.IsResolved AnyName scope →
        Searches (reachedFrom (ts.flatMap places)) Any (Program.visitBody inside outside scope ts) :=
      fun hscope => ih hscope (fun d hd => hin d (List.mem_cons_of_mem c hd))
        fun d hd => hout d (List.mem_cons_of_mem c hd)
    rw [List.flatMap_cons, reachedFrom_append, Program.visitBody]
    split
    · next act hact =>
      exact (hout c List.mem_cons_self act hact).bind fun _ _ =>
        (hrest hscope).give _ fun _ _ => trivial
    · next hnone =>
      exact (searches_within hscope (hin c List.mem_cons_self hnone)).bind fun r hr =>
        (hrest hr.2).give _ fun _ _ => trivial

theorem searches_mapM {act : Tree → Walk ProgramNode} (places : Tree → List Tree) {ts : List Tree}
    (h : ∀ c ∈ ts, Searches (reachedFrom (places c)) Any (act c)) :
    Searches (reachedFrom (ts.flatMap places)) Any (ts.mapM act) := by
  induction ts with
  | nil => exact reachedFrom_nil ▸ searches_pure trivial
  | cons c ts ih =>
    rw [List.flatMap_cons, reachedFrom_append, List.mapM_cons]
    exact (h c List.mem_cons_self).bind fun _ _ =>
      (ih fun d hd => h d (List.mem_cons_of_mem c hd)).give _ fun _ _ => trivial

/-- The walk comes to a node that is no call, and to where it goes on below. -/
theorem Searches.at {act : Walk ProgramNode} {ts : List Tree} (h : Searches (reachedFrom ts) Any act)
    (hk : t.kind ≠ "call") (hts : t.entered = ts) : Searches (reachedFrom [t]) Any act := by
  intro f hf
  refine (h f hf).imp fun _ g ⟨hg, _, hfound⟩ => ⟨hg, trivial, ?_⟩
  rw [reachedFrom_singleton, hts]
  exact (Finds.come hk f).trans hfound

theorem searches_leaf : Searches ∅ Any (pure (p.leaf t)) := searches_pure trivial

theorem searches_visitOther (hctx : Known AnyName ctx.self) (hv : visit.Searches t.parts) :
    Searches (reachedFrom t.parts) Any (p.visitOther visit ctx t) :=
  (searches_visitAll hctx hv).give _ fun _ _ => trivial

theorem searches_visitIdentifier (hctx : Known AnyName ctx.self) (hk : t.kind = "identifier") :
    Searches (reachedFrom [t]) Any (p.visitIdentifier ctx t) := by
  have hnone : t.entered = [] := by
    simp only [Tree.entered, hk]
  rw [reachedFrom_singleton, hnone, reachedFrom_nil, Set.union_empty]
  refine searches_get fun f hf => ?_
  split
  · intro f hf
    exact gives_pure ⟨hf, trivial, .come (by rw [hk]; decide) f⟩
  · exact (searches_resolve t (p.text t) hctx {}).give _ fun _ _ => trivial

/-! ### Calls -/

theorem searches_visitBlock (hctx : Known AnyName ctx.self) {b : Tree} (hv : visit.Searches b.body)
    {ms : List Match} (hms : ∀ m ∈ ms, Resolved AnyName m.member) :
    Searches (reachedFrom b.body) Any (p.visitBlock visit ctx b ms) := by
  refine searches_get fun f hf => ?_
  have hself := blockSelf_known hctx p.env ms hms
  have hscope := blockScope_resolved (p := p) hf.scope b (blockTypes_known p.env ms hms)
  have hbody : Searches (reachedFrom b.body) Any
      (Program.visitAll visit { ctx with self := _ } b.body) := searches_visitAll hself hv
  exact (searches_within hscope hbody).give _ fun _ _ => trivial

theorem searches_visitReceiver (hctx : Known AnyName ctx.self)
    (hv : visit.Searches (t.child? "receiver").toList) :
    Searches (reachedFrom (t.child? "receiver").toList) (fun r => Known AnyName r.2)
      (p.visitReceiver visit ctx t) := by
  unfold Program.visitReceiver
  cases hr : t.child? "receiver" with
  | none =>
    rw [Option.toList_none, reachedFrom_nil]
    exact searches_pure hctx
  | some r =>
    rw [hr] at hv
    rw [Option.toList_some, ← Set.union_empty (reachedFrom [r])]
    exact (hv ctx hctx r List.mem_cons_self).bind fun _ _ =>
      (searches_typeOf hctx r).give _ fun _ ho => ho

theorem searches_visitBlock? (hctx : Known AnyName ctx.self) (hv : visit.Searches t.blockBody)
    {ms : List Match} (hms : ∀ m ∈ ms, Resolved AnyName m.member) :
    Searches (reachedFrom t.blockBody) Any (p.visitBlock? visit ctx t ms) := by
  rw [Program.visitBlock?]
  rw [Tree.blockBody] at hv ⊢
  cases hb : t.block? with
  | none =>
    rw [Option.toList_none, List.flatMap_nil, reachedFrom_nil]
    exact searches_pure trivial
  | some b =>
    rw [hb, Option.toList_some, List.flatMap_singleton] at hv
    rw [Option.toList_some, List.flatMap_singleton]
    exact (searches_visitBlock hctx hv hms).give _ fun _ _ => trivial

/-- A call, and what is assigned to it. -/
theorem searches_visitCall (hctx : Known AnyName ctx.self) (hk : t.kind = "call")
    {assigned : Option Tree} (hv : visit.Searches (t.entered ++ assigned.toList)) :
    Searches (reachedFrom [t] ∪ reachedFrom assigned.toList) Any
      (p.visitCall visit ctx t assigned) := by
  have hentered : t.entered = t.callEntered := by simp only [Tree.entered, hk]
  rw [hentered, Tree.callEntered] at hv
  have hwhole : reachedFrom (t.child? "receiver").toList ∪ (reachedFrom (t.arguments
      ++ assigned.toList) ∪ ({t} ∪ reachedFrom t.blockBody))
      = reachedFrom [t] ∪ reachedFrom assigned.toList := by
    rw [reachedFrom_singleton, hentered, Tree.callEntered]
    simp only [reachedFrom_append]
    ext c
    simp only [Set.mem_union]
    tauto
  have hreceiver : visit.Searches (t.child? "receiver").toList :=
    hv.mono fun _ hc => List.mem_append_left _ (List.mem_append_left _ hc)
  have hargs : visit.Searches (t.arguments ++ assigned.toList) := by
    refine hv.mono (List.append_subset.mpr ⟨fun _ hc => ?_, List.subset_append_right _ _⟩)
    exact List.mem_append_left _ (List.mem_append_right _ (List.mem_append_left _ hc))
  have hblock : visit.Searches t.blockBody := hv.mono fun _ hc =>
    List.mem_append_left _ (List.mem_append_right _ (List.mem_append_right _ hc))
  rw [← hwhole]
  unfold Program.visitCall
  exact (searches_visitReceiver hctx hreceiver).bind fun _ hr =>
    (searches_visitAll hctx hargs).bind fun _ _ =>
      (searches_resolve t _ hr _).bind fun _ hms =>
        (searches_visitBlock? hctx hblock hms).give _ fun _ _ => trivial

/-! ### Assignments -/

section

variable (hctx : Known AnyName ctx.self) (hv : visit.Searches t.inner)
include hctx hv

/-- A child, wherever the walk goes on. -/
theorem searches_visitChild {field : String} {c : Tree} (hc : t.child? field = some c) :
    Searches (reachedFrom [c]) Any (visit ctx c) :=
  hv ctx hctx c (t.children_subset_inner (Tree.mem_of_child hc))

theorem searches_visitAssignment : Searches (reachedFrom t.assignmentEntered) Any
    (p.visitAssignment visit ctx t) := by
  unfold Program.visitAssignment Tree.assignmentEntered
  cases hl : t.child? "left" with
  | none => exact searches_visitOther hctx (hv.mono t.parts_subset_inner)
  | some left =>
    cases hr : t.child? "right" with
    | none => exact searches_visitOther hctx (hv.mono t.parts_subset_inner)
    | some right =>
      have hleft := t.children_subset_inner (Tree.mem_of_child hl)
      have hright := searches_visitChild hctx hv hr
      dsimp only
      by_cases hcall : left.kind = "call"
      · have hsides : visit.Searches (left.entered ++ (some right).toList) :=
          hv.mono (List.append_subset.mpr
            ⟨List.Subset.trans left.entered_subset (Tree.inner_subset_inner hleft),
              List.cons_subset.mpr ⟨t.children_subset_inner (Tree.mem_of_child hr),
                List.nil_subset _⟩⟩)
        rw [if_pos hcall, hcall, if_neg (by decide), reachedFrom_cons]
        exact (searches_visitCall hctx hcall hsides).give _ fun _ _ => trivial
      · rw [if_neg hcall]
        by_cases hname : left.kind = "identifier"
        · rw [if_pos hname, hname, if_pos (by decide), ← Set.union_empty (reachedFrom [right])]
          exact hright.bind fun _ _ => (searches_typeOf hctx right).step fun _ ho =>
            (searches_declare (p.text left) ho).step fun _ _ => searches_pure trivial
        · rw [if_neg hname]
          by_cases hlist : left.kind = "left_assignment_list" ∨
              left.kind = "destructured_left_assignment"
          · rw [if_pos (by simpa using .inr hlist), ← Set.union_empty (reachedFrom [right])]
            refine hright.bind fun _ _ => ?_
            rw [if_pos hlist]
            exact (searches_declareAll (left.identifiers p.source)).step fun _ _ =>
              searches_pure trivial
          · rw [if_neg (by simpa [hname] using hlist), reachedFrom_cons, Set.union_comm]
            refine hright.bind fun _ _ => ?_
            rw [if_neg hlist]
            exact (searches_visitChild hctx hv hl).give _ fun _ _ => trivial

theorem searches_visitOperatorAssignment : Searches (reachedFrom t.operatorEntered) Any
    (p.visitOperatorAssignment visit ctx t) := by
  unfold Program.visitOperatorAssignment Tree.operatorEntered
  cases hl : t.child? "left" with
  | none => exact searches_visitOther hctx (hv.mono t.parts_subset_inner)
  | some left =>
    cases hr : t.child? "right" with
    | none => exact searches_visitOther hctx (hv.mono t.parts_subset_inner)
    | some right =>
      dsimp only
      by_cases hname : left.kind = "identifier"
      · rw [if_pos hname, if_pos hname, ← Set.union_empty (reachedFrom [right])]
        refine (searches_visitChild hctx hv hr).bind fun _ _ => searches_get fun f hf => ?_
        split
        · exact (searches_typeOf hctx right).step fun _ ho =>
            (searches_declare (p.text left) ho).step fun _ _ => searches_pure trivial
        · exact searches_pure trivial
      · rw [if_neg hname, if_neg hname]
        exact searches_visitOther hctx (hv.mono t.parts_subset_inner)

/-! ### Definitions -/

omit hctx in
theorem searches_visitPart {inner : Context} (hinner : Known AnyName inner.self) {c : Tree}
    (hc : c ∈ t.parts) : Searches (reachedFrom [c]) Any (visit inner c) :=
  hv inner hinner c (t.parts_subset_inner hc)

theorem searches_visitModule : Searches (reachedFrom t.moduleEntered) Any
    (p.visitModule visit ctx t) := by
  unfold Program.visitModule Tree.moduleEntered
  cases hname : t.child? "name" with
  | none =>
    have hparts : t.parts.flatMap (fun c : Tree =>
        if (none : Option Tree).any (·.id = c.id) then [] else [c]) = t.parts :=
      List.flatMap_singleton' t.parts
    rw [hparts]
    exact searches_visitOther hctx (hv.mono t.parts_subset_inner)
  | some name =>
    have hself : ∀ n, Resolved AnyName (.classSingleton n) := fun _ => .classSingleton trivial
    refine Searches.give (P := Any) (searches_visitBody _ emptyScope_resolved (fun c hc hnone => ?_)
      fun c hc act hact => ?_) _ fun _ _ => trivial
    · split at hnone
      · cases hnone
      · next hne =>
        rw [if_neg (by simpa [eq_comm] using hne)]
        exact searches_visitPart hv (hself _).known hc
    · split at hact
      · next he =>
        rw [if_pos (by simpa [eq_comm] using he), reachedFrom_nil, ← Option.some.inj hact]
        exact searches_leaf
      · next hne =>
        rw [if_neg (by simpa [eq_comm] using hne)]
        split at hact
        · exact Option.some.inj hact ▸ searches_visitPart hv hctx hc
        · cases hact

theorem searches_visitSingletonClass : Searches (reachedFrom t.parts) Any
    (p.visitSingletonClass visit ctx t) := by
  have hbody : ∀ self, Known AnyName self → Searches (reachedFrom t.parts) Any
      (do return p.other t (← Program.visitBody (visit ⟨self, ctx.nesting, true⟩) (fun c =>
        if (t.child? "value").any (·.id = c.id) then some (visit ctx c) else none) [] t.parts)) := by
    intro self hself
    have hparts : Searches (reachedFrom (t.parts.flatMap fun c => [c])) Any
        (Program.visitBody (visit ⟨self, ctx.nesting, true⟩) (fun c =>
          if (t.child? "value").any (·.id = c.id) then some (visit ctx c) else none) [] t.parts) := by
      refine searches_visitBody _ emptyScope_resolved
        (fun c hc _ => searches_visitPart hv hself hc) fun c hc act hact => ?_
      split at hact
      · exact Option.some.inj hact ▸ searches_visitPart hv hctx hc
      · cases hact
    rw [List.flatMap_singleton'] at hparts
    exact hparts.give _ fun _ _ => trivial
  unfold Program.visitSingletonClass
  cases hval : t.child? "value" with
  | none =>
    rw [hval] at hbody
    exact hbody none known_none
  | some v =>
    rw [hval] at hbody
    exact (searches_typeOf hctx v).step fun o ho => hbody o ho

/-- The value that a parameter has by default. -/
theorem searches_default {c : Tree} (hc : c ∈ t.parts) :
    Searches (reachedFrom (c.child? "value").toList) Any (match c.child? "value" with
      | some v => do return p.other c [← visit ctx v]
      | none => return p.leaf c) := by
  cases hval : c.child? "value" with
  | none =>
    rw [Option.toList_none, reachedFrom_nil]
    exact searches_leaf
  | some v =>
    have hin := Tree.inner_subset_inner (t.parts_subset_inner hc)
      (c.children_subset_inner (Tree.mem_of_child hval))
    exact (hv ctx hctx v hin).give _ fun _ _ => trivial

theorem searches_visitParameters : Searches (reachedFrom t.defaults) Any
    (p.visitParameters visit ctx t) := by
  rw [Tree.defaults, List.filterMap_eq_flatMap_toList]
  refine (searches_mapM (fun c => (c.child? "value").toList) fun c hc => ?_).give _
    fun _ _ => trivial
  have hvalue := searches_default (p := p) hctx hv hc
  have hnames : Searches (reachedFrom (c.child? "value").toList) Any (do
      if c.kind = "destructured_parameter" then Walk.declareAll (c.identifiers p.source)
      match c.child? "value" with
      | some v => return p.other c [← visit ctx v]
      | none => return p.leaf c) := by
    by_cases hk : c.kind = "destructured_parameter"
    · rw [if_pos hk]
      exact (searches_declareAll (c.identifiers p.source)).step fun _ _ => hvalue
    · rw [if_neg hk]
      exact hvalue
  cases c.parameterName? p.source with
  | none => exact hnames
  | some name => exact (searches_declare name known_none).step fun _ _ => hnames

omit hctx in
theorem searches_methodParts {inner : Context} (hinner : Known AnyName inner.self)
    (skip : Option Nat) :
    Searches (reachedFrom (t.methodEntered skip)) Any (p.methodParts visit inner t skip) := by
  unfold Program.methodParts Tree.methodEntered
  dsimp only
  have hname : ∀ c : Tree, ((t.child? "name").any (·.id = c.id)) = true ∨
      ((t.child? "name").any (·.id = c.id)) = false := fun c => by
    cases (t.child? "name").any (·.id = c.id) <;> simp
  refine searches_visitBody _ emptyScope_resolved (fun c hc hnone => ?_) fun c hc act hact => ?_
  · have hpart := List.mem_of_mem_filter hc
    rcases hname c with h | h
    · rw [if_pos h] at hnone
      cases hnone
    · rw [if_neg (by rw [h]; exact Bool.false_ne_true)]
      split
      · exact searches_visitParameters hinner
          (hv.mono (Tree.inner_subset_inner (t.parts_subset_inner hpart)))
      · exact searches_visitPart hv hinner hpart
  · rcases hname c with h | h
    · rw [if_pos h] at hact
      rw [if_pos h, reachedFrom_nil, ← Option.some.inj hact]
      exact searches_leaf
    · rw [if_neg (by rw [h]; exact Bool.false_ne_true)] at hact
      cases hact

theorem searches_visitMethod : Searches (reachedFrom (t.methodEntered none)) Any
    (p.visitMethod visit ctx t) := by
  unfold Program.visitMethod
  refine (searches_methodParts hv ?_ none).give _ fun _ _ => trivial
  dsimp only
  split
  · exact hctx
  · exact hctx.bind fun _ => instanceOf_known

theorem searches_visitSingletonMethod : Searches (reachedFrom t.singletonMethodEntered) Any
    (p.visitSingletonMethod visit ctx t) := by
  unfold Program.visitSingletonMethod Tree.singletonMethodEntered
  cases htarget : t.child? "object" with
  | none => exact (searches_methodParts hv known_none none).give _ fun _ _ => trivial
  | some target =>
    dsimp only
    rw [reachedFrom_cons]
    refine (searches_visitChild hctx hv htarget).bind fun _ _ =>
      (searches_typeOf hctx target).step fun o ho => ?_
    have hself : Known AnyName (Context.mk o ctx.nesting false).self := ho
    exact (searches_methodParts hv hself (some target.id)).give _ fun _ _ => trivial

theorem searches_visitLambda (hk : t.kind = "lambda") : Searches (reachedFrom [t]) Any
    (p.visitLambda visit ctx t) := by
  have hentered : t.entered = t.lambdaEntered := by simp only [Tree.entered, hk]
  have hne : t.kind ≠ "call" := by simp [hk]
  rw [reachedFrom_singleton, hentered, Set.union_comm]
  unfold Program.visitLambda Tree.lambdaEntered
  refine searches_get fun f hf => ?_
  have hscope := hf.scope.putNone ((t.child? "parameters").elim [] (·.identifiers p.source))
  refine Searches.bind (P := Any) (searches_visitBody _ hscope (fun c hc hnone => ?_)
    fun c hc act hact => ?_) fun _ _ =>
      (searches_recordType hne (Environment.instanceNamed_known "Proc")).give _ fun _ _ => trivial
  · split at hnone
    · cases hnone
    · next hparam =>
      rw [if_neg hparam]
      split
      · have hbody : visit.Searches c.body :=
          hv.mono (Tree.body_subset_inner (Tree.mem_of_part hc))
        exact (searches_visitAll hctx hbody).give _ fun _ _ => trivial
      · exact searches_visitPart hv hctx hc
  · split at hact
    · next hparam =>
      rw [if_pos hparam, reachedFrom_nil, ← Option.some.inj hact]
      exact searches_leaf
    · cases hact

end

/-! ## The walk -/

theorem searches_visitNode (hctx : Known AnyName ctx.self) (hv : visit.Searches t.inner) :
    Searches (reachedFrom [t]) Any (p.visitNode visit ctx t) := by
  unfold Program.visitNode
  split
  · next hk => exact (searches_visitModule hctx hv).at (by simp [hk]) (by simp only [Tree.entered, hk])
  · next hk => exact (searches_visitModule hctx hv).at (by simp [hk]) (by simp only [Tree.entered, hk])
  · next hk =>
    exact (searches_visitSingletonClass hctx hv).at (by simp [hk]) (by simp [Tree.entered, hk])
  · next hk => exact (searches_visitMethod hctx hv).at (by simp [hk]) (by simp only [Tree.entered, hk])
  · next hk =>
    exact (searches_visitSingletonMethod hctx hv).at (by simp [hk]) (by simp only [Tree.entered, hk])
  · next hk => exact searches_visitIdentifier hctx hk
  · next hk =>
    exact (searches_visitAssignment hctx hv).at (by simp [hk]) (by simp only [Tree.entered, hk])
  · next hk =>
    exact (searches_visitOperatorAssignment hctx hv).at (by simp [hk])
      (by simp only [Tree.entered, hk])
  · next hk =>
    have hsub : t.entered ++ (none : Option Tree).toList ⊆ t.inner :=
      List.append_subset.mpr ⟨t.entered_subset, List.nil_subset _⟩
    have hcall := searches_visitCall (p := p) hctx hk (hv.mono hsub)
    rwa [Option.toList_none, reachedFrom_nil, Set.union_empty] at hcall
  · next hk => exact searches_visitLambda hctx hv hk
  · exact (searches_visitOther hctx (hv.mono t.parts_subset_inner)).at (by assumption)
      (by rw [Tree.entered]; split <;> first | contradiction | rfl)

theorem searches_visitWithin (p : Program) (n : Nat) (ctx : Context) (hctx : Known AnyName ctx.self)
    (t : Tree) (hn : t.height ≤ n) : Searches (reachedFrom [t]) Any (p.visitWithin n ctx t) := by
  induction n generalizing ctx t with
  | zero => exact absurd hn (Nat.not_le_of_lt t.height_pos)
  | succ n ih =>
    refine searches_visitNode hctx fun inner hinner c hc => ih inner hinner c ?_
    exact Nat.le_of_lt_succ (Nat.lt_of_lt_of_le (Tree.height_lt_of_inner hc) hn)

/-- **Which calls have a resolution.**  Where the nodes of a tree are numbered apart, its program can
be resolved, and a call has a resolution exactly when the walk comes to it. -/
theorem resolveTree_callSites (p : Program) (t : Tree) (hids : (t.nodes.map (·.id)).Nodup) :
    ∃ root typing, p.resolveTree t = .ok (root, typing) ∧
      ∀ c ∈ t.nodes, c.kind = "call" → ((typing.of? c.id).isSome ↔ t.Reaches c) := by
  have hfound : Findings.IsResolved AnyName {} := ⟨emptyScope_resolved, fun _ _ h => nomatch h⟩
  have hself : Known AnyName (p.env.instanceNamed? "Object") := Environment.instanceNamed_known _
  obtain ⟨root, f, he, -, -, hfinds⟩ :=
    searches_visitWithin p t.height ⟨p.env.instanceNamed? "Object", [], false⟩ hself t (Nat.le_refl _)
      {} hfound
  have hrun : p.resolveTree t = .ok (root, f.typing) := by
    show ((p.visitWithin t.height _ t).run {} >>= fun r => pure (r.1, r.2.typing)) = _
    rw [StateT.run, he]
    rfl
  refine ⟨root, f.typing, hrun, fun c hc hk => ⟨fun hsome => ?_, fun hreach => ?_⟩⟩
  · by_contra hnot
    have hnone : ∀ d ∈ reachedFrom [t], d.id ≠ c.id := by
      rintro d ⟨s, hs, hd⟩ hid
      have hd : t.Reaches d := List.mem_singleton.mp hs ▸ hd
      exact hnot (List.inj_on_of_nodup_map hids hd.mem_nodes hc hid ▸ hd)
    rw [(hfinds.elsewhere c.id hnone).1] at hsome
    cases hsome
  · exact hfinds.calls c ⟨t, List.mem_singleton.mpr rfl, hreach⟩ hk

/-- The tree of `->(x = foo()) { x }`. -/
def lambdaDefaultTree : Tree :=
  let node := fun (id : Nat) (kind : String) (start stop : Nat) (field : String)
      (children : List Tree) => Tree.mk id kind start stop field true false false children
  node 0 "program" 0 19 "" [
    node 1 "lambda" 0 19 "" [
      node 2 "lambda_parameters" 2 13 "parameters" [
        node 3 "optional_parameter" 3 12 "" [
          node 4 "identifier" 3 4 "name" [],
          node 5 "call" 7 12 "value" [
            node 6 "identifier" 7 10 "method" [],
            node 7 "argument_list" 10 12 "arguments" []]]],
      node 8 "block" 14 19 "body" [
        node 9 "block_body" 16 17 "body" [node 10 "identifier" 16 17 "" []]]]]

/-- In this tree the walk does not come to the call. -/
theorem resolveTree_callSites_lambdaDefault :
    (lambdaDefaultTree.nodes.map (·.id)).Nodup ∧
    ∃ root typing, (Program.mk { marker := .standard }
        "->(x = foo()) { x }".toList).resolveTree lambdaDefaultTree = .ok (root, typing) ∧
      ∀ c ∈ lambdaDefaultTree.nodes, c.kind = "call" →
        ((typing.of? c.id).isSome ↔ lambdaDefaultTree.Reaches c) := by
  have hids : (lambdaDefaultTree.nodes.map (·.id)).Nodup := by decide
  exact ⟨hids, resolveTree_callSites _ lambdaDefaultTree hids⟩

/-! ## Calls that are passed by -/

/-- In a tree without faults every call has a resolution. -/
def EveryCallResolved : Prop :=
  ∀ (p : Program) (t : Tree), (t.nodes.map (·.id)).Nodup →
    (∀ c ∈ t.nodes, c.kind ≠ "ERROR" ∧ c.missing = false ∧ c.faulty = false) →
    ∀ root typing, p.resolveTree t = .ok (root, typing) →
      ∀ c ∈ t.nodes, c.kind = "call" → c.named = true → (typing.of? c.id).isSome

/-- The default value of a lambda's parameter is passed by. -/
theorem not_everyCallResolved : ¬ EveryCallResolved := by
  intro h
  have hids : (lambdaDefaultTree.nodes.map (·.id)).Nodup := by decide
  have hsound : ∀ c ∈ lambdaDefaultTree.nodes,
      c.kind ≠ "ERROR" ∧ c.missing = false ∧ c.faulty = false := by decide
  let p : Program := ⟨{ marker := .standard }, "->(x = foo()) { x }".toList⟩
  have hrun : (p.resolveTree lambdaDefaultTree).toOption.map (·.2) = some [] := by decide +kernel
  have hcall : ∃ c ∈ lambdaDefaultTree.nodes, c.kind = "call" ∧ c.named = true := by decide
  obtain ⟨c, hc, hk, hnamed⟩ := hcall
  cases hres : p.resolveTree lambdaDefaultTree with
  | error e =>
    rw [hres] at hrun
    cases hrun
  | ok r =>
    rw [hres] at hrun
    have hnone : r.2 = [] := Option.some.inj hrun
    have hsome := h p lambdaDefaultTree hids hsound r.1 r.2 hres c hc hk hnamed
    rw [hnone] at hsome
    cases hsome

end RbsSynth.Analysis
