import RbsSynth.Proofs.Analysis.Coverage

/-!
# Conversion of whole trees

Each function of the walk converts the tree it is given, if `visit` converts those further down; by
induction on the levels the whole walk does:

    numbers apart, the receiver, arguments and block of a call apart
      →  the walk ends, and the calls of its program are the nodes with a resolution
                                                                              (resolveTree_typing)
-/

namespace RbsSynth.Analysis

open Signature Walk

variable {p : Program} {visit : Visit} {ctx : Context} {t : Tree} {named : TypeName → Prop}

theorem emptyScope_resolved : Scope.IsResolved named [] := fun _ _ h => nomatch h

/-! ## Types and resolutions -/

section

variable [p.env.Names named]

theorem gives_typeOf {f : Findings} (hctx : Known named ctx.self) (hf : f.IsResolved named) (t : Tree) :
    Gives (p.typeOf ctx t) f fun o g => g = f ∧ Known named o :=
  have hview : View.IsResolved named ⟨p.env, p.source, f.types, f.scope, ctx⟩ :=
    ⟨hctx, hf.scope, hf.types⟩
  ⟨_, f, rfl, rfl, infer_known hview t⟩

/-- A resolution is recorded under the call's own name. -/
theorem gives_resolve {f : Findings} (hf : f.IsResolved named) (id : Nat) (method : String)
    {receiver : Option TypeExpr} (h : Known named receiver) (args : Arguments) :
    Gives (p.resolve id method receiver args) f fun ms g => g.IsResolved named ∧
      (∀ m ∈ ms, Resolved named m.member) ∧
      ∃ r, g.typing = f.typing.record id r ∧ r.method = method := by
  obtain ⟨r, ms, he, hr, hms⟩ := resolveCall_ok p.env method args h
  have hlift : Gives (liftM (resolveCall p.env method receiver args) : Walk _) f
      fun a g => a = (r, ms) ∧ g = f := ⟨(r, ms), f, by rw [he]; rfl, rfl, rfl⟩
  refine hlift.bind fun (r, ms) g ⟨ha, hg⟩ => ?_
  cases ha
  subst hg
  have hmodify : Gives (modify fun f => { f with typing := f.typing.record id r }) g fun _ g' =>
      g'.IsResolved named ∧ g'.typing = g.typing.record id r :=
    ⟨(), _, rfl, ⟨hf.scope, hf.types⟩, rfl⟩
  refine hmodify.bind fun _ g' hg' => ?_
  refine (gives_recordType id (resultType_known p.env method hms) hg'.1).bind fun _ g'' hg'' => ?_
  exact gives_pure ⟨hg''.1, hms, r, hg''.2.trans hg'.2, hr⟩

end

/-! ## Plain nodes -/

theorem visitOther_converts (hv : visit.Converts) (hctx : Known AnyName ctx.self) (hn : t.ids.Nodup)
    (ha : t.CallsApart) : ConvertsOne t.ids (p.visitOther visit ctx t) := by
  have hparts := below_parts hn
  exact (visitAll_converts hv hctx hparts.nodup (hparts.calls ha)).other hn
    (Tree.idsOfAll_subset hparts.subset)

/-! ## Calls -/

theorem visitIdentifier_converts (hctx : Known AnyName ctx.self) :
    ConvertsOne t.ids (p.visitIdentifier ctx t) := by
  intro f hf
  refine gives_get ?_
  split
  · exact convertsOne_leaf _ hf
  · refine (gives_resolve hf t.id (p.text t) hctx {}).bind fun ms g ⟨hg, _, r, hr, hm⟩ => ?_
    refine gives_pure ⟨hg, ?_⟩
    have hbody : Covers [] (f.typing.record t.id r) g.typing [] := hr ▸ .nil [] _
    have hcall := Covers.call (c := ⟨t.id, p.text t, none, [], [], none, p.text t⟩) rfl (.nil [] _)
      hbody (List.disjoint_nil_left _) List.not_mem_nil hm
    exact hcall.mono (List.cons_subset.mpr ⟨t.id_mem_ids, List.nil_subset _⟩)

theorem blockScope_resolved {scope : Scope} (h : Scope.IsResolved named scope) (b : Tree)
    {types : List (Option TypeExpr)} (ht : ∀ o ∈ types, Known named o) :
    Scope.IsResolved named (p.blockScope b types scope) := by
  rw [Program.blockScope]
  split
  · exact h
  · next ps _ =>
    have hnames := h.putNone (ps.identifiers p.source)
    revert hnames
    generalize (ps.identifiers p.source).foldl (fun s n => s.put n none) scope = scope
    intro h
    dsimp only
    induction (ps.parameterNames p.source).zipIdx generalizing scope with
    | nil => exact h
    | cons q qs ih =>
      obtain ⟨name, i⟩ := q
      refine ih _ ?_
      cases name with
      | none => exact h
      | some n =>
        refine h.put n ?_
        cases hi : types[i]? with
        | none => exact known_none
        | some o => exact ht o (List.mem_of_getElem? hi)

theorem blockSelf_known (hctx : Known named ctx.self) (env : Environment) [env.Names named]
    (ms : List Match) :
    (∀ m ∈ ms, Resolved named m.member) → Known named (match ms with
      | m :: _ => (env.blockSelfType m.entry m.overload (some m.member)).or ctx.self
      | [] => ctx.self) := by
  intro hms
  cases ms with
  | nil => exact hctx
  | cons m ms =>
    intro t ht
    rcases Option.or_eq_some_iff.mp ht with ht | ⟨_, ht⟩
    · exact Environment.blockSelfType_known _ _ (hms m List.mem_cons_self).known t ht
    · exact hctx t ht

theorem blockTypes_known (env : Environment) [env.Names named] (ms : List Match) :
    (∀ m ∈ ms, Resolved named m.member) → ∀ o ∈ (match ms with
      | m :: _ => env.blockParamTypes m.entry m.overload (some m.member)
      | [] => []), Known named o := by
  intro hms
  cases ms with
  | nil => exact fun _ h => nomatch h
  | cons m ms => exact Environment.blockParamTypes_known _ _ (hms m List.mem_cons_self).known

theorem visitBlock_converts (hv : visit.Converts) (hctx : Known AnyName ctx.self) {b : Tree}
    (hn : b.ids.Nodup) (ha : b.CallsApart) {ms : List Match} (hms : ∀ m ∈ ms, Resolved AnyName m.member)
    {f : Findings} (hf : f.IsResolved AnyName) : Gives (p.visitBlock visit ctx b ms) f fun block g =>
      g.IsResolved AnyName ∧ Covers (Tree.idsOfAll b.body) f.typing g.typing block.body := by
  refine gives_get ?_
  have hbody : Converts (Tree.idsOfAll b.body)
      (Program.visitAll visit { ctx with self := _ } b.body) :=
    visitAll_converts hv (blockSelf_known hctx p.env ms hms)
      ((Tree.idsOfAll_children_nodup hn).sublist (Tree.idsOfAll_body_sublist b)) ha.body
  have hscope := blockScope_resolved (p := p) hf.scope b (blockTypes_known p.env ms hms)
  refine (gives_within (hbody { f with scope := _ } ⟨hscope, hf.types⟩)).bind
    fun (body, s) g ⟨g', ⟨hg', hcov⟩, _, hg⟩ => ?_
  subst hg
  exact gives_pure ⟨⟨hf.scope, hg'.types⟩, hcov⟩

theorem below_callParts (hk : t.kind = "call") (hn : t.ids.Nodup) (ha : t.CallsApart) :
    Below t t.callParts := by
  have hself : t ∈ t.nodes := by
    rw [Tree.nodes_eq]
    exact List.mem_cons_self
  refine Below.of_ids hn (fun c hc => ?_) (ha t hself hk)
  rw [Tree.callParts, List.mem_append, List.mem_append, Option.mem_toList, Option.mem_toList,
    Option.mem_toList] at hc
  rcases hc with hc | hc | hc
  · exact Tree.mem_of_child hc
  · exact Tree.mem_of_child hc
  · exact Tree.mem_of_block hc

/-- The statements of a call's block. -/
def Tree.blockBody (t : Tree) : List Tree := t.block?.toList.flatMap Tree.body

theorem callIds_sublist (t : Tree) : (Tree.idsOfAll (t.child? "receiver").toList
    ++ (Tree.idsOfAll t.arguments ++ Tree.idsOfAll t.blockBody)).Sublist
      (Tree.idsOfAll t.callParts) := by
  rw [Tree.callParts, Tree.idsOfAll_append, Tree.idsOfAll_append]
  refine (List.Sublist.refl _).append (List.Sublist.append ?_ ?_)
  · rw [Tree.arguments]
    cases t.child? "arguments" with
    | none => exact List.nil_sublist _
    | some a =>
      rw [Option.toList_some, Tree.idsOfAll_singleton]
      exact Tree.idsOfAll_parts_sublist a
  · rw [Tree.blockBody]
    cases t.block? with
    | none => exact List.nil_sublist _
    | some b =>
      rw [Option.toList_some, Tree.idsOfAll_singleton, List.flatMap_singleton]
      exact (Tree.idsOfAll_body_sublist b).trans (Tree.idsOfAll_children_sublist b)

/-- The numbers of a call and of what is visited below it, in the order in which they are met. -/
def Tree.callIds (t : Tree) (assigned : List Tree) : List Nat :=
  t.id :: (idsOfAll (t.child? "receiver").toList ++ idsOfAll (t.arguments ++ assigned)
    ++ idsOfAll t.blockBody)

theorem callIds_apart (hk : t.kind = "call") (ha : t.CallsApart) {assigned : List Tree}
    (hn : (t.ids ++ Tree.idsOfAll assigned).Nodup) :
    (t.callIds assigned).Nodup ∧ t.callIds assigned ⊆ t.ids ++ Tree.idsOfAll assigned := by
  obtain ⟨ht, hassigned, _⟩ := List.nodup_append.mp hn
  have hbelow := below_callParts hk ht ha
  have hperm : ((t.id :: (Tree.idsOfAll (t.child? "receiver").toList
      ++ (Tree.idsOfAll t.arguments ++ Tree.idsOfAll t.blockBody)))
      ++ Tree.idsOfAll assigned).Perm (t.callIds assigned) := by
    rw [Tree.callIds, Tree.idsOfAll_append]
    refine List.perm_iff_count.mpr fun i => ?_
    simp only [List.count_append, List.count_cons, List.cons_append]
    omega
  have hown : (t.id :: Tree.idsOfAll t.callParts).Nodup ∧
      t.id :: Tree.idsOfAll t.callParts ⊆ t.ids := by
    rw [Tree.ids_eq] at ht ⊢
    have hsub := Tree.idsOfAll_subset hbelow.subset
    exact ⟨List.nodup_cons.mpr ⟨fun h => (List.nodup_cons.mp ht).1 (hsub h), hbelow.nodup⟩,
      List.cons_subset_cons t.id hsub⟩
  have hsublist := (callIds_sublist t).cons_cons t.id
  have hsub := fun i hi => hown.2 (hsublist.subset (a := i) hi)
  refine ⟨hperm.nodup_iff.mp ?_, fun i hi => ?_⟩
  · refine (hown.1.sublist hsublist).append hassigned fun i hi hi' => ?_
    exact List.disjoint_of_nodup_append hn (hsub i hi) hi'
  · rcases List.mem_append.mp (hperm.mem_iff.mpr hi) with hi | hi
    · exact List.mem_append_left _ (hsub i hi)
    · exact List.mem_append_right _ hi

theorem arguments_apart (ha : t.CallsApart) : ∀ a ∈ t.arguments, a.CallsApart :=
  fun _ hmem d hd => ha d (Tree.nodes_subset_of_argument hmem hd)

theorem visitReceiver_converts (hv : visit.Converts) (hctx : Known AnyName ctx.self) (hn : t.ids.Nodup)
    (ha : t.CallsApart) {f : Findings} (hf : f.IsResolved AnyName) :
    Gives (p.visitReceiver visit ctx t) f fun (n, type) g => g.IsResolved AnyName ∧ Known AnyName type ∧
      Covers (Tree.idsOfAll (t.child? "receiver").toList) f.typing g.typing n.toList := by
  unfold Program.visitReceiver
  cases hr : t.child? "receiver" with
  | none => exact gives_pure ⟨hf, hctx, .nil _ _⟩
  | some r =>
    have hmem := Tree.mem_of_child hr
    refine (hv ctx r hctx (Tree.ids_nodup_of_mem hn hmem) (ha.child hmem) f hf).bind
      fun n g ⟨hg, hcov⟩ => ?_
    refine (gives_typeOf hctx hg r).bind fun o g' ⟨he, ho⟩ => gives_pure ?_
    subst he
    rw [Option.toList_some, Tree.idsOfAll_singleton]
    exact ⟨hg, ho, hcov⟩

theorem visitBlock?_converts (hv : visit.Converts) (hctx : Known AnyName ctx.self) (hn : t.ids.Nodup)
    (ha : t.CallsApart) {ms : List Match} (hms : ∀ m ∈ ms, Resolved AnyName m.member) {f : Findings}
    (hf : f.IsResolved AnyName) :
    Gives (p.visitBlock? visit ctx t ms) f fun block g => g.IsResolved AnyName ∧
      Covers (Tree.idsOfAll t.blockBody) f.typing g.typing
        (match block with
          | some b => b.body
          | none => []) := by
  rw [Program.visitBlock?, Tree.blockBody]
  cases hb : t.block? with
  | none => exact gives_pure ⟨hf, .nil _ _⟩
  | some b =>
    have hmem := Tree.mem_of_block hb
    rw [Option.toList_some, List.flatMap_singleton]
    exact (visitBlock_converts hv hctx (Tree.ids_nodup_of_mem hn hmem) (ha.child hmem) hms
      hf).bind fun _ _ h => gives_pure h

theorem visitCall_converts (hv : visit.Converts) (hctx : Known AnyName ctx.self) (hk : t.kind = "call")
    (ha : t.CallsApart) {assigned : Option Tree}
    (hn : (t.ids ++ Tree.idsOfAll assigned.toList).Nodup) (hassigned : ∀ a ∈ assigned, a.CallsApart) :
    ConvertsOne (t.ids ++ Tree.idsOfAll assigned.toList) (p.visitCall visit ctx t assigned) := by
  intro f hf
  have ht := (List.nodup_append.mp hn).1
  obtain ⟨hapart, hsub⟩ := callIds_apart hk ha hn
  obtain ⟨hid, hapart⟩ := List.nodup_cons.mp hapart
  have hblock := List.disjoint_of_nodup_append hapart
  have hhead := (List.nodup_append.mp hapart).1
  have hargs : ∀ a ∈ t.arguments ++ assigned.toList, a.CallsApart := by
    intro a hmem
    rcases List.mem_append.mp hmem with hmem | hmem
    · exact arguments_apart ha a hmem
    · exact hassigned a (Option.mem_toList.mp hmem)
  unfold Program.visitCall
  dsimp only
  refine (visitReceiver_converts hv hctx ht ha hf).bind fun (receiver, type) g ⟨hg, htype, hcov⟩ => ?_
  refine (visitAll_converts hv hctx (List.nodup_append.mp hhead).2.1 hargs g hg).bind
    fun arguments g' ⟨hg', hcov'⟩ => ?_
  have hbefore := hcov.append hcov' (List.disjoint_of_nodup_append hhead)
  refine (gives_resolve hg' t.id _ htype _).bind fun ms g'' ⟨hg'', hms, r, hr, hm⟩ => ?_
  refine (visitBlock?_converts hv hctx ht ha hms hg'').bind fun block h ⟨hh, hcov''⟩ =>
    gives_pure ⟨hh, ?_⟩
  rw [hr] at hcov''
  exact (Covers.call rfl hbefore hcov'' hblock hid hm).mono hsub

/-! ## Assignments -/

/-- The two sides of an assignment are apart. -/
theorem below_sides {left right : Tree} (hn : t.ids.Nodup) (hl : t.child? "left" = some left)
    (hr : t.child? "right" = some right) : Below t [left, right] := by
  have hsub : [left, right] ⊆ t.children := List.cons_subset.mpr ⟨Tree.mem_of_child hl,
    List.cons_subset.mpr ⟨Tree.mem_of_child hr, List.nil_subset _⟩⟩
  refine Below.of_ids hn hsub (List.nodup_cons.mpr ⟨fun he => ?_, List.pairwise_singleton _ _⟩)
  have he : left.id = right.id := List.mem_singleton.mp he
  have heq : left = right := List.inj_on_of_nodup_map
    (Tree.nodup_map_id (Tree.idsOfAll_children_nodup hn)) (hsub List.mem_cons_self)
    (hsub (List.mem_cons_of_mem _ List.mem_cons_self)) he
  have hfield := Tree.field_of_child hl
  rw [heq, Tree.field_of_child hr] at hfield
  exact absurd hfield (by decide)

theorem sides_disjoint {left right : Tree} (hn : t.ids.Nodup) (hl : t.child? "left" = some left)
    (hr : t.child? "right" = some right) : left.ids.Disjoint right.ids := by
  have hnodup := (below_sides hn hl hr).nodup
  rw [Tree.idsOfAll_cons, Tree.idsOfAll_singleton] at hnodup
  exact List.disjoint_of_nodup_append hnodup

section

variable (hv : visit.Converts) (hctx : Known AnyName ctx.self) (hn : t.ids.Nodup) (ha : t.CallsApart)
include hv hctx hn ha

/-- A child is converted wherever it is visited. -/
theorem visitChild_converts {field : String} {c : Tree} (hc : t.child? field = some c) :
    ConvertsOne c.ids (visit ctx c) :=
  hv ctx c hctx (Tree.ids_nodup_of_mem hn (Tree.mem_of_child hc)) (ha.child (Tree.mem_of_child hc))

omit hv hctx ha in
theorem covers_sides {left right : Tree} (hl : t.child? "left" = some left)
    (hr : t.child? "right" = some right) {before after : Typing} {ns : List ProgramNode}
    (h : Covers (left.ids ++ right.ids) before after ns) :
    Covers t.ids before after [p.other t ns] := by
  have hsides := below_sides hn hl hr
  have hsub := Tree.idsOfAll_subset hsides.subset
  rw [Tree.idsOfAll_cons, Tree.idsOfAll_singleton] at hsub
  exact h.under hn hsub

omit hv hctx ha in
/-- What is assigned to a variable. -/
theorem covers_assigned {left right : Tree} (hl : t.child? "left" = some left)
    (hr : t.child? "right" = some right) {before after : Typing} {value : ProgramNode}
    (h : Covers right.ids before after [value]) :
    Covers t.ids before after [p.other t [p.leaf left, value]] := by
  exact covers_sides hn hl hr ((covers_leaf before).append h (sides_disjoint hn hl hr))

theorem visitAssignment_converts : ConvertsOne t.ids (p.visitAssignment visit ctx t) := by
  unfold Program.visitAssignment
  split
  · next left right hl hr =>
    have hright := visitChild_converts hv hctx hn ha hr
    split
    · next hk =>
      have hsides := (below_sides hn hl hr).nodup
      have hcall : ConvertsOne _ (p.visitCall visit ctx left (some right)) :=
        visitCall_converts hv hctx hk (ha.child (Tree.mem_of_child hl)) hsides
          fun a hmem => Option.some.inj hmem ▸ ha.child (Tree.mem_of_child hr)
      rw [Option.toList_some, Tree.idsOfAll_singleton] at hcall
      intro f hf
      exact (hcall f hf).bind fun _ g hg => gives_pure ⟨hg.1, covers_sides hn hl hr hg.2⟩
    · split
      · intro f hf
        refine (hright f hf).bind fun value g ⟨hg, hcov⟩ => ?_
        refine (gives_typeOf hctx hg right).bind fun o _ ⟨he, ho⟩ => ?_
        subst he
        refine (assigns_declare (p.text left) ho _ hg).bind fun _ h ⟨hh, he⟩ => gives_pure ⟨hh, ?_⟩
        exact he ▸ covers_assigned hn hl hr hcov
      · intro f hf
        refine (hright f hf).bind fun value g ⟨hg, hcov⟩ => ?_
        split
        · refine (assigns_declareAll (left.identifiers p.source) g hg).bind fun _ h ⟨hh, he⟩ =>
            gives_pure ⟨hh, ?_⟩
          exact he ▸ covers_assigned hn hl hr hcov
        · refine (visitChild_converts hv hctx hn ha hl g hg).bind fun n h ⟨hh, hcov'⟩ =>
            gives_pure ⟨hh, covers_sides hn hl hr ?_⟩
          have hdisj := sides_disjoint hn hl hr
          have hboth := (hcov.append hcov' fun i hi hi' => hdisj hi' hi).swap
          exact hboth.mono List.perm_append_comm.subset
  · exact visitOther_converts hv hctx hn ha

theorem visitOperatorAssignment_converts :
    ConvertsOne t.ids (p.visitOperatorAssignment visit ctx t) := by
  unfold Program.visitOperatorAssignment
  split
  · next left right hl hr =>
    split
    · intro f hf
      refine (visitChild_converts hv hctx hn ha hr f hf).bind fun value g ⟨hg, hcov⟩ => ?_
      refine gives_get ?_
      dsimp only
      split
      · refine (gives_typeOf hctx hg right).bind fun o _ ⟨he, ho⟩ => ?_
        subst he
        refine (assigns_declare (p.text left) ho _ hg).bind fun _ h ⟨hh, he⟩ => gives_pure ⟨hh, ?_⟩
        exact he ▸ covers_assigned hn hl hr hcov
      · exact gives_pure ⟨hg, covers_assigned hn hl hr hcov⟩
    · exact visitOther_converts hv hctx hn ha
  · exact visitOther_converts hv hctx hn ha

/-! ## Definitions -/

omit hv hctx ha in
/-- A body whose parts are converted, each in its own way. -/
theorem body_converts {inside : Tree → Walk ProgramNode} {outside : Tree → Option (Walk ProgramNode)}
    {scope : Scope} (hscope : Scope.IsResolved AnyName scope)
    (hin : ∀ c ∈ t.parts, ConvertsOne c.ids (inside c))
    (hout : ∀ c ∈ t.parts, ∀ act, outside c = some act → ConvertsOne c.ids act) :
    ConvertsOne t.ids (do return p.other t (← Program.visitBody inside outside scope t.parts)) := by
  have hparts := below_parts hn
  exact (visitBody_converts hscope hparts.nodup hin hout).other hn
    (Tree.idsOfAll_subset hparts.subset)

omit hctx in
/-- A part of a node is converted in every context. -/
theorem part_converts {inner : Context} (hinner : Known AnyName inner.self) {c : Tree} (hc : c ∈ t.parts) :
    ConvertsOne c.ids (visit inner c) := (below_parts hn).visited hn ha hv hinner hc

theorem visitModule_converts : ConvertsOne t.ids (p.visitModule visit ctx t) := by
  unfold Program.visitModule
  split
  · exact visitOther_converts hv hctx hn ha
  · next name _ =>
    refine body_converts hn emptyScope_resolved (fun c hc => ?_) fun c hc act hact => ?_
    · have hself : ∀ n, Resolved AnyName (.classSingleton n) := fun _ => .classSingleton trivial
      exact part_converts hv hn ha (hself _).known hc
    · split at hact
      · exact Option.some.inj hact ▸ convertsOne_leaf
      · split at hact
        · exact Option.some.inj hact ▸ part_converts hv hn ha hctx hc
        · cases hact

theorem visitSingletonClass_converts : ConvertsOne t.ids (p.visitSingletonClass visit ctx t) := by
  have hbody : ∀ self, Known AnyName self → ConvertsOne t.ids (do return p.other t (← Program.visitBody
      (visit ⟨self, ctx.nesting, true⟩) (fun c =>
        if (t.child? "value").any (·.id = c.id) then some (visit ctx c) else none) [] t.parts)) := by
    intro self hself
    refine body_converts hn emptyScope_resolved (fun c hc => ?_) fun c hc act hact => ?_
    · exact part_converts hv hn ha hself hc
    · split at hact
      · exact Option.some.inj hact ▸ part_converts hv hn ha hctx hc
      · cases hact
  unfold Program.visitSingletonClass
  cases hval : t.child? "value" with
  | none =>
    rw [hval] at hbody
    exact hbody none known_none
  | some v =>
    rw [hval] at hbody
    intro f hf
    refine (gives_typeOf hctx hf v).bind fun o _ ⟨he, ho⟩ => ?_
    subst he
    exact hbody o ho _ hf

/-- One parameter of a method. -/
theorem parameter_converts {c : Tree} (hc : c ∈ t.parts) {f : Findings}
    (hf : f.IsResolved AnyName) :
    Gives (match c.child? "value" with
      | some v => do return p.other c [← visit ctx v]
      | none => return p.leaf c) f fun n g =>
        g.IsResolved AnyName ∧ Covers c.ids f.typing g.typing [n] := by
  have hcn := Tree.ids_nodup_of_mem hn (Tree.mem_of_part hc)
  cases hval : c.child? "value" with
  | none => exact convertsOne_leaf f hf
  | some v =>
    have hmem := Tree.mem_of_child hval
    have hsub := Tree.idsOfAll_subset (List.cons_subset.mpr ⟨hmem, List.nil_subset _⟩)
    rw [Tree.idsOfAll_singleton] at hsub
    refine (visitChild_converts hv hctx hcn (ha.child (Tree.mem_of_part hc)) hval f hf).bind
      fun n g hg => gives_pure ⟨hg.1, hg.2.under hcn hsub⟩

theorem visitParameters_converts : ConvertsOne t.ids (p.visitParameters visit ctx t) := by
  have hparts := below_parts hn
  refine (mapM_converts hparts.nodup fun c hc => ?_).other hn (Tree.idsOfAll_subset hparts.subset)
  intro f hf
  have hrest : ∀ g : Findings, g.IsResolved AnyName → g.typing = f.typing →
      Gives (match c.child? "value" with
        | some v => do return p.other c [← visit ctx v]
        | none => return p.leaf c) g fun n h =>
          h.IsResolved AnyName ∧ Covers c.ids f.typing h.typing [n] := fun g hg he =>
    he ▸ parameter_converts hv hctx hn ha hc hg
  have hnames : ∀ g : Findings, g.IsResolved AnyName → g.typing = f.typing → Gives (do
      if c.kind = "destructured_parameter" then Walk.declareAll (c.identifiers p.source)
      match c.child? "value" with
      | some v => return p.other c [← visit ctx v]
      | none => return p.leaf c) g fun n h => h.IsResolved AnyName ∧ Covers c.ids f.typing h.typing [n] := by
    intro g hg he
    by_cases hk : c.kind = "destructured_parameter"
    · rw [if_pos hk]
      exact (assigns_declareAll (c.identifiers p.source) g hg).bind fun _ h ⟨hh, he'⟩ =>
        hrest h hh (he'.trans he)
    · rw [if_neg hk]
      exact hrest g hg he
  cases c.parameterName? p.source with
  | none => exact hnames f hf rfl
  | some name =>
    exact (assigns_declare name known_none f hf).bind fun _ g ⟨hg, he⟩ => hnames g hg he

omit hctx in
theorem methodParts_converts {inner : Context} (hinner : Known AnyName inner.self) (skip : Option Nat) :
    Converts (Tree.idsOfAll (t.parts.filter fun c => skip != some c.id))
      (p.methodParts visit inner t skip) := by
  have hparts : Below t (t.parts.filter fun c => skip != some c.id) :=
    (below_parts hn).sublist List.filter_sublist
  refine visitBody_converts emptyScope_resolved hparts.nodup (fun c hc => ?_) fun c hc act hact => ?_
  · split
    · exact visitParameters_converts hv hinner (Tree.ids_nodup_of_mem hn (hparts.subset hc))
        (ha.child (hparts.subset hc))
    · exact hparts.visited hn ha hv hinner hc
  · split at hact
    · exact Option.some.inj hact ▸ convertsOne_leaf
    · cases hact

omit hctx in
theorem method_converts {inner : Context} (hinner : Known AnyName inner.self) :
    ConvertsOne t.ids (do return p.other t (← p.methodParts visit inner t none)) :=
  (methodParts_converts hv hn ha hinner none).other hn
    (Tree.idsOfAll_subset ((below_parts hn).sublist List.filter_sublist).subset)

theorem visitMethod_converts : ConvertsOne t.ids (p.visitMethod visit ctx t) := by
  unfold Program.visitMethod
  refine method_converts hv hn ha ?_
  dsimp only
  split
  · exact hctx
  · exact hctx.bind fun _ => instanceOf_known

theorem visitSingletonMethod_converts : ConvertsOne t.ids (p.visitSingletonMethod visit ctx t) := by
  unfold Program.visitSingletonMethod
  split
  · exact method_converts hv hn ha known_none
  · next target htarget =>
    have hfilter : Below t (t.parts.filter fun c => some target.id != some c.id) :=
      (below_parts hn).sublist List.filter_sublist
    have hsub : target :: t.parts.filter (fun c => some target.id != some c.id) ⊆ t.children :=
      List.cons_subset.mpr ⟨Tree.mem_of_child htarget, hfilter.subset⟩
    have hbelow : Below t (target :: t.parts.filter fun c => some target.id != some c.id) := by
      refine Below.of_ids hn hsub (List.nodup_cons.mpr ⟨fun hmem => ?_, ?_⟩)
      · obtain ⟨c, hc, he⟩ := List.mem_map.mp hmem
        have hne := (List.mem_filter.mp hc).2
        rw [he, bne_self_eq_false] at hne
        cases hne
      · exact Tree.nodup_map_id hfilter.nodup
    have hdisj := List.disjoint_of_nodup_append hbelow.nodup
    intro f hf
    refine (visitChild_converts hv hctx hn ha htarget f hf).bind fun n g ⟨hg, hcov⟩ => ?_
    refine (gives_typeOf hctx hg target).bind fun o _ ⟨he, ho⟩ => ?_
    subst he
    have hrest := methodParts_converts (p := p) hv hn ha
      (show Known AnyName (Context.mk o ctx.nesting false).self from ho) (some target.id)
    refine (hrest _ hg).bind fun ns h ⟨hh, hcov'⟩ => gives_pure ⟨hh, ?_⟩
    exact (hcov.append hcov' hdisj).under hn (Tree.idsOfAll_subset hsub)

theorem visitLambda_converts : ConvertsOne t.ids (p.visitLambda visit ctx t) := by
  have hparts := below_parts hn
  intro f hf
  unfold Program.visitLambda
  refine gives_get ?_
  have hscope := hf.scope.putNone
    ((t.child? "parameters").elim [] (·.identifiers p.source))
  refine (visitBody_converts hscope hparts.nodup (fun c hc => ?_) (fun c hc act hact => ?_) f
    hf).bind fun ns g ⟨hg, hcov⟩ => ?_
  · split
    · have hcn := Tree.ids_nodup_of_mem hn (hparts.subset hc)
      have hbody := Tree.idsOfAll_body_sublist c
      exact (visitAll_converts hv hctx ((Tree.idsOfAll_children_nodup hcn).sublist hbody)
        (hparts.calls ha c hc).body).other hcn hbody.subset
    · exact part_converts hv hn ha hctx hc
  · split at hact
    · exact Option.some.inj hact ▸ convertsOne_leaf
    · cases hact
  · refine (gives_recordType t.id (Environment.instanceNamed_known "Proc") hg).bind
      fun _ h ⟨hh, he⟩ => gives_pure ⟨hh, ?_⟩
    exact he ▸ hcov.under hn (Tree.idsOfAll_subset hparts.subset)

/-! ## The walk -/

theorem visitNode_converts : ConvertsOne t.ids (p.visitNode visit ctx t) := by
  unfold Program.visitNode
  split
  · exact visitModule_converts hv hctx hn ha
  · exact visitModule_converts hv hctx hn ha
  · exact visitSingletonClass_converts hv hctx hn ha
  · exact visitMethod_converts hv hctx hn ha
  · exact visitSingletonMethod_converts hv hctx hn ha
  · exact visitIdentifier_converts hctx
  · exact visitAssignment_converts hv hctx hn ha
  · exact visitOperatorAssignment_converts hv hctx hn ha
  · next hk =>
    have hcall : ConvertsOne _ (p.visitCall visit ctx t none) :=
      visitCall_converts hv hctx hk ha ((List.append_nil t.ids).symm ▸ hn) fun _ h => nomatch h
    exact hcall.mono fun _ hi => List.append_nil t.ids ▸ hi
  · exact visitLambda_converts hv hctx hn ha
  · exact visitOther_converts hv hctx hn ha

end

theorem mem_calls {c : Call} {n : ProgramNode} : c ∈ n.calls ↔ .call c ∈ n.walk := by
  rw [ProgramNode.calls, List.mem_filterMap]
  refine ⟨fun ⟨m, hm, he⟩ => ?_, fun h => ⟨_, h, rfl⟩⟩
  cases m with
  | call d => exact Option.some.inj he ▸ hm
  | other => cases he

theorem visitWithin_converts (p : Program) (n : Nat) : (p.visitWithin n).Converts := by
  induction n with
  | zero => exact fun _ _ _ _ _ => convertsOne_leaf
  | succ n ih => exact fun _ _ hctx hn ha => visitNode_converts ih hctx hn ha

/-- When the nodes of a tree are numbered apart, and so are the receiver, the arguments and the block
of each call, the program can be resolved.  Its nodes are numbered apart by numbers of the tree, and
the typing knows the calls among them and nothing else, each by its own name. -/
theorem resolveTree_typing (p : Program) (t : Tree) (hids : (t.nodes.map (·.id)).Nodup)
    (hcalls : ∀ c ∈ t.nodes, c.kind = "call" → (c.callParts.map (·.id)).Nodup) :
    ∃ root typing, p.resolveTree t = .ok (root, typing) ∧
      (root.walk.map ProgramNode.id).Nodup ∧
      (∀ n ∈ root.walk, n.id ∈ t.nodes.map (·.id)) ∧
      (∀ i, (typing.of? i).isSome ↔ i ∈ root.calls.map (·.id)) ∧
      ∀ c ∈ root.calls, ∃ r, typing.of? c.id = some r ∧ r.method = c.method := by
  have hfound : Findings.IsResolved AnyName {} := ⟨emptyScope_resolved, fun _ _ h => nomatch h⟩
  have hself : Known AnyName (p.env.instanceNamed? "Object") := Environment.instanceNamed_known _
  obtain ⟨root, f, he, -, hcov⟩ :=
    visitWithin_converts p t.height ⟨p.env.instanceNamed? "Object", [], false⟩ t hself hids hcalls
      {} hfound
  have hrun : p.resolveTree t = .ok (root, f.typing) := by
    show ((p.visitWithin t.height _ t).run {} >>= fun r => pure (r.1, r.2.typing)) = _
    rw [StateT.run, he]
    rfl
  have hmem : ∀ c, c ∈ root.calls ↔ .call c ∈ walkAll [root] := fun c => by
    rw [walkAll_singleton, mem_calls]
  refine ⟨root, f.typing, hrun, ?_, ?_, fun i => ?_, fun c hc => hcov.recorded c ((hmem c).mp hc)⟩
  · exact walkAll_singleton root ▸ hcov.apart
  · exact walkAll_singleton root ▸ hcov.within
  · refine ⟨fun hi => ?_, fun hi => ?_⟩
    · by_contra hne
      rw [hcov.kept i fun c hc he => hne (List.mem_map.mpr ⟨c, (hmem c).mpr hc, he⟩)] at hi
      cases hi
    · obtain ⟨c, hc, rfl⟩ := List.mem_map.mp hi
      obtain ⟨r, hr, -⟩ := hcov.recorded c ((hmem c).mp hc)
      rw [hr]
      rfl

/-- The tree of `list.each(1) { |x| puts x }`. -/
def blockCallTree : Tree :=
  let node := fun (id : Nat) (kind : String) (start stop : Nat) (field : String)
      (children : List Tree) => Tree.mk id kind start stop field true false false children
  node 0 "program" 0 26 "" [
    node 1 "call" 0 26 "" [
      node 2 "identifier" 0 4 "receiver" [],
      node 3 "identifier" 5 9 "method" [],
      node 4 "argument_list" 9 12 "arguments" [node 5 "integer" 10 11 "" []],
      node 6 "block" 13 26 "block" [
        node 7 "block_parameters" 15 18 "parameters" [node 8 "identifier" 16 17 "" []],
        node 9 "block_body" 19 25 "body" [
          node 10 "call" 19 25 "" [
            node 11 "identifier" 19 23 "method" [],
            node 12 "argument_list" 24 25 "arguments" [node 13 "identifier" 24 25 "" []]]]]]]

theorem resolveTree_typing_blockCall :
    (blockCallTree.nodes.map (·.id)).Nodup ∧
    (∀ c ∈ blockCallTree.nodes, c.kind = "call" → (c.callParts.map (·.id)).Nodup) ∧
    ∃ root typing, (Program.mk { marker := ⟨"@rbs", by decide⟩ }
        "list.each(1) { |x| puts x }".toList).resolveTree blockCallTree = .ok (root, typing) ∧
      (root.walk.map ProgramNode.id).Nodup ∧
      (∀ n ∈ root.walk, n.id ∈ blockCallTree.nodes.map (·.id)) ∧
      (∀ i, (typing.of? i).isSome ↔ i ∈ root.calls.map (·.id)) ∧
      ∀ c ∈ root.calls, ∃ r, typing.of? c.id = some r ∧ r.method = c.method := by
  have hids : (blockCallTree.nodes.map (·.id)).Nodup := by decide
  have hcalls : ∀ c ∈ blockCallTree.nodes, c.kind = "call" → (c.callParts.map (·.id)).Nodup := by
    decide
  exact ⟨hids, hcalls, resolveTree_typing _ blockCallTree hids hcalls⟩

end RbsSynth.Analysis
