import RbsSynth.Proofs.Analysis.Watched

/-!
# Resolved types throughout a walk

`Keeps P act act'` says that two walks end alike wherever what is known is resolved, leave what is known
resolved, and have a result of which `P` holds.  Each function of the walk keeps this when the `visit`
that it is given does, and so does watching; by induction on the levels the watched walk is the walk:

    modules with names  →  p.resolveTree t = .ok r ∧ p.watchedTree t = .ok r    (watched_of_resolved)
-/

namespace RbsSynth.Analysis

open Signature Walk

/-! ## Names of modules -/

/-- The name of each class and module, without a leading `::`, is one to index declarations by.  In a
tree without faults it starts with a constant or with an expression. -/
def Tree.ModulesNamed (source : List Char) (t : Tree) : Prop :=
  ∀ c ∈ t.nodes, c.kind = "class" ∨ c.kind = "module" → ∀ name ∈ c.child? "name",
    IsIndexName (Program.qualifiedName ⟨none, [], false⟩ (name.text source))

theorem Tree.ModulesNamed.mono {source : List Char} {t c : Tree} (h : t.ModulesNamed source)
    (hc : c.nodes ⊆ t.nodes) : c.ModulesNamed source := fun d hd => h d (hc hd)

/-- What does not change inside of a body: `self` is resolved, and the names around can be indexed by. -/
structure Context.IsResolved (ctx : Context) : Prop where
  self : Known IsRelative ctx.self
  nesting : ∀ outer ∈ ctx.nesting.head?, IsIndexName outer

theorem isIndexName_qualifiedName {ctx : Context} (h : ctx.IsResolved) {name : String}
    (hn : IsIndexName (Program.qualifiedName ⟨none, [], false⟩ name)) :
    IsIndexName (Program.qualifiedName ctx name) := by
  unfold Program.qualifiedName at hn ⊢
  split
  · next cs he =>
    simp only [he] at hn
    exact hn
  · next outer _ hnesting _ =>
    have hmem : outer ∈ ctx.nesting.head? := by
      rw [hnesting]
      rfl
    exact (h.nesting outer hmem).inner name
  · next hno =>
    split at hn
    · next he => exact absurd he (hno _)
    · next hnil _ => cases hnil
    · exact hn

/-! ## Walks that agree -/

variable {α β : Type} {P : α → Prop} {Q : β → Prop}

/-- Two walks end alike, with a result of which `P` holds, and leave what is known resolved. -/
def Keeps (P : α → Prop) (act act' : Walk α) : Prop :=
  ∀ f : Findings, f.IsResolved IsRelative →
    ∃ a g, act f = .ok (a, g) ∧ act' f = .ok (a, g) ∧ g.IsResolved IsRelative ∧ P a

theorem Keeps.bind {act act' : Walk α} {k k' : α → Walk β} (h : Keeps P act act')
    (hk : ∀ a, P a → Keeps Q (k a) (k' a)) : Keeps Q (act >>= k) (act' >>= k') := by
  intro f hf
  obtain ⟨a, g, he, he', hg, ha⟩ := h f hf
  obtain ⟨b, g', hke, hke', hg', hb⟩ := hk a ha g hg
  refine ⟨b, g', ?_, ?_, hg', hb⟩
  · show (act f >>= fun r => k r.1 r.2) = _
    rw [he]
    exact hke
  · show (act' f >>= fun r => k' r.1 r.2) = _
    rw [he']
    exact hke'

theorem keeps_pure {a : α} (h : P a) : Keeps P (pure a) (pure a) :=
  fun f hf => ⟨a, f, rfl, rfl, hf, h⟩

theorem keeps_get {k k' : Findings → Walk α}
    (h : ∀ f : Findings, f.IsResolved IsRelative → Keeps P (k f) (k' f)) :
    Keeps P (get >>= k) (get >>= k') := fun f hf => h f hf f hf

theorem keeps_ite {c : Prop} [Decidable c] {act act' rest rest' : Walk α} (h : c → Keeps P act act')
    (h' : ¬ c → Keeps P rest rest') :
    Keeps P (if c then act else rest) (if c then act' else rest') := by
  split
  · next hc => exact h hc
  · next hc => exact h' hc

/-- A walk agrees with itself where it gives something. -/
theorem keeps_of_gives {act : Walk α}
    (h : ∀ f : Findings, f.IsResolved IsRelative → Gives act f fun a g => g.IsResolved IsRelative ∧ P a) :
    Keeps P act act := fun f hf =>
  let ⟨a, g, he, hg, ha⟩ := h f hf
  ⟨a, g, he, he, hg, ha⟩

theorem Walk.Assigns.keeps {act : Walk Unit} (h : Assigns IsRelative act) :
    Keeps (fun _ => True) act act :=
  keeps_of_gives fun f hf => (h f hf).imp fun _ _ hg => ⟨hg.1, trivial⟩

theorem keeps_within {act act' : Walk α} {scope : Scope} (hscope : Scope.IsResolved IsRelative scope)
    (h : Keeps P act act') :
    Keeps (fun r => P r.1 ∧ Scope.IsResolved IsRelative r.2) (within scope act) (within scope act') := by
  intro f hf
  obtain ⟨a, g, he, he', hg, ha⟩ := h { f with scope := scope } ⟨hscope, hf.types⟩
  refine ⟨(a, g.scope), { g with scope := f.scope }, ?_, ?_, ⟨hf.scope, hg.types⟩, ha, hg.scope⟩
  · rw [within, he]
    rfl
  · rw [within, he']
    rfl

section

variable {p : Program} [p.env.Names IsRelative] {ctx : Context}

theorem keeps_typeOf (hctx : ctx.IsResolved) (t : Tree) :
    Keeps (Known IsRelative) (p.typeOf ctx t) (p.typeOf ctx t) :=
  keeps_of_gives fun _ hf => (gives_typeOf hctx.self hf t).imp fun _ _ h => ⟨h.1 ▸ hf, h.2⟩

theorem keeps_resolve (id : Nat) (method : String) {receiver : Option TypeExpr}
    (h : Known IsRelative receiver) (args : Arguments) :
    Keeps (fun ms => ∀ m ∈ ms, Resolved IsRelative m.member) (p.resolve id method receiver args)
      (p.resolve id method receiver args) :=
  keeps_of_gives fun _ hf => (gives_resolve hf id method h args).imp fun _ _ h => ⟨h.1, h.2.1⟩

end

/-! ## Functions of the walk -/

/-- Two visits agree on every tree with names. -/
def Visit.Agrees (source : List Char) (visit visit' : Visit) : Prop :=
  ∀ ctx t, ctx.IsResolved → t.ModulesNamed source →
    Keeps (fun _ => True) (visit ctx t) (visit' ctx t)

/-- Both are left out, or both are walks that agree. -/
def Outside (o o' : Option (Walk ProgramNode)) : Prop :=
  match o, o' with
  | none, none => True
  | some act, some act' => Keeps (fun _ => True) act act'
  | _, _ => False

variable {p : Program} [p.env.Names IsRelative] {visit visit' : Visit} {ctx : Context} {t : Tree}

section

variable (hv : visit.Agrees p.source visit') (hctx : ctx.IsResolved)
include hv hctx

omit [p.env.Names IsRelative] in
theorem keeps_visitAll {ts : List Tree} (ht : ∀ t ∈ ts, t.ModulesNamed p.source) :
    Keeps (fun _ => True) (Program.visitAll visit ctx ts) (Program.visitAll visit' ctx ts) := by
  induction ts with
  | nil => exact keeps_pure trivial
  | cons t ts ih =>
    obtain ⟨ht, hts⟩ := List.forall_mem_cons.mp ht
    rw [Program.visitAll, Program.visitAll]
    exact (hv ctx t hctx ht).bind fun _ _ => (ih hts).bind fun _ _ => keeps_pure trivial

omit hv hctx [p.env.Names IsRelative] in
theorem keeps_visitBody {inside inside' : Tree → Walk ProgramNode}
    {outside outside' : Tree → Option (Walk ProgramNode)} {ts : List Tree} {scope : Scope}
    (hscope : Scope.IsResolved IsRelative scope)
    (hin : ∀ t ∈ ts, Keeps (fun _ => True) (inside t) (inside' t))
    (hout : ∀ t ∈ ts, Outside (outside t) (outside' t)) :
    Keeps (fun _ => True) (Program.visitBody inside outside scope ts)
      (Program.visitBody inside' outside' scope ts) := by
  induction ts generalizing scope with
  | nil => exact keeps_pure trivial
  | cons t ts ih =>
    obtain ⟨hint, hin⟩ := List.forall_mem_cons.mp hin
    obtain ⟨houtt, hout⟩ := List.forall_mem_cons.mp hout
    have hrest : ∀ {scope : Scope}, Scope.IsResolved IsRelative scope →
        Keeps (fun _ => True) (Program.visitBody inside outside scope ts)
          (Program.visitBody inside' outside' scope ts) := fun hscope => ih hscope hin hout
    rw [Program.visitBody, Program.visitBody]
    cases ho : outside t with
    | none =>
      cases ho' : outside' t with
      | none =>
        exact (keeps_within hscope hint).bind fun r hr => (hrest hr.2).bind fun _ _ =>
          keeps_pure trivial
      | some act' =>
        rw [ho, ho'] at houtt
        exact houtt.elim
    | some act =>
      cases ho' : outside' t with
      | none =>
        rw [ho, ho'] at houtt
        exact houtt.elim
      | some act' =>
        rw [ho, ho'] at houtt
        have hact : Keeps (fun _ => True) act act' := houtt
        exact hact.bind fun _ _ => (hrest hscope).bind fun _ _ => keeps_pure trivial

variable (ht : t.ModulesNamed p.source)
include ht

omit [p.env.Names IsRelative] in
/-- A child is visited alike in every context. -/
theorem keeps_visitChild {c : Tree} (hc : c ∈ t.children) :
    Keeps (fun _ => True) (visit ctx c) (visit' ctx c) :=
  hv ctx c hctx (ht.mono (Tree.nodes_subset_of_child hc))

omit [p.env.Names IsRelative] in
theorem keeps_visitOther :
    Keeps (fun _ => True) (p.visitOther visit ctx t) (p.visitOther visit' ctx t) :=
  (keeps_visitAll hv hctx fun _ hc => ht.mono (Tree.nodes_subset_of_child (Tree.mem_of_part hc))).bind
    fun _ _ => keeps_pure trivial

omit hv ht in
theorem keeps_visitIdentifier :
    Keeps (fun _ => True) (p.visitIdentifier ctx t) (p.visitIdentifier ctx t) := by
  refine keeps_get fun f hf => ?_
  split
  · exact keeps_pure trivial
  · exact (keeps_resolve t.id (p.text t) hctx.self {}).bind fun _ _ => keeps_pure trivial

/-! ### Calls -/

theorem keeps_visitBlock {ms : List Match} (hms : ∀ m ∈ ms, Resolved IsRelative m.member) :
    Keeps (fun _ => True) (p.visitBlock visit ctx t ms) (p.visitBlock visit' ctx t ms) := by
  refine keeps_get fun f hf => ?_
  have hself := blockSelf_known hctx.self p.env ms hms
  have hscope := blockScope_resolved (p := p) hf.scope t (blockTypes_known p.env ms hms)
  have hinner : Context.IsResolved { ctx with self := _ } := ⟨hself, hctx.nesting⟩
  have hbody := keeps_visitAll hv hinner fun _ hs => ht.mono (Tree.nodes_subset_of_body hs)
  exact (keeps_within hscope hbody).bind fun _ _ => keeps_pure trivial

theorem keeps_visitReceiver : Keeps (fun r => Known IsRelative r.2) (p.visitReceiver visit ctx t)
    (p.visitReceiver visit' ctx t) := by
  unfold Program.visitReceiver
  cases hr : t.child? "receiver" with
  | none => exact keeps_pure hctx.self
  | some r =>
    exact (keeps_visitChild hv hctx ht (Tree.mem_of_child hr)).bind fun _ _ =>
      (keeps_typeOf hctx r).bind fun _ ho => keeps_pure ho

theorem keeps_visitBlock? {ms : List Match} (hms : ∀ m ∈ ms, Resolved IsRelative m.member) :
    Keeps (fun _ => True) (p.visitBlock? visit ctx t ms) (p.visitBlock? visit' ctx t ms) := by
  rw [Program.visitBlock?, Program.visitBlock?]
  cases hb : t.block? with
  | none => exact keeps_pure trivial
  | some b =>
    have hblock := ht.mono (Tree.nodes_subset_of_child (Tree.mem_of_block hb))
    exact (keeps_visitBlock hv hctx hblock hms).bind fun _ _ => keeps_pure trivial

theorem keeps_visitCall {assigned : Option Tree} (ha : ∀ a ∈ assigned, a.ModulesNamed p.source) :
    Keeps (fun _ => True) (p.visitCall visit ctx t assigned) (p.visitCall visit' ctx t assigned) := by
  have hargs : ∀ a ∈ t.arguments ++ assigned.toList, a.ModulesNamed p.source := by
    intro a hmem
    rcases List.mem_append.mp hmem with hmem | hmem
    · exact ht.mono (Tree.nodes_subset_of_argument hmem)
    · exact ha a (Option.mem_toList.mp hmem)
  unfold Program.visitCall
  exact (keeps_visitReceiver hv hctx ht).bind fun r hr =>
    (keeps_visitAll hv hctx hargs).bind fun _ _ =>
      (keeps_resolve t.id _ hr _).bind fun ms hms =>
        (keeps_visitBlock? hv hctx ht hms).bind fun _ _ => keeps_pure trivial

/-! ### Assignments -/

theorem keeps_visitAssignment : Keeps (fun _ => True) (p.visitAssignment visit ctx t)
    (p.visitAssignment visit' ctx t) := by
  unfold Program.visitAssignment
  cases hl : t.child? "left" with
  | none => exact keeps_visitOther hv hctx ht
  | some left =>
    cases hr : t.child? "right" with
    | none => exact keeps_visitOther hv hctx ht
    | some right =>
      have hleft := Tree.mem_of_child hl
      have hright := keeps_visitChild hv hctx ht (Tree.mem_of_child hr)
      dsimp only
      split
      · have hassigned : ∀ a ∈ some right, a.ModulesNamed p.source := fun a ha =>
          Option.some.inj ha ▸ ht.mono (Tree.nodes_subset_of_child (Tree.mem_of_child hr))
        exact (keeps_visitCall hv hctx (ht.mono (Tree.nodes_subset_of_child hleft)) hassigned).bind
          fun _ _ => keeps_pure trivial
      · split
        · exact hright.bind fun _ _ => (keeps_typeOf hctx right).bind fun _ ho =>
            (assigns_declare (p.text left) ho).keeps.bind fun _ _ => keeps_pure trivial
        · refine hright.bind fun _ _ => ?_
          split
          · exact (assigns_declareAll (left.identifiers p.source)).keeps.bind fun _ _ =>
              keeps_pure trivial
          · exact (keeps_visitChild hv hctx ht hleft).bind fun _ _ => keeps_pure trivial

theorem keeps_visitOperatorAssignment : Keeps (fun _ => True)
    (p.visitOperatorAssignment visit ctx t) (p.visitOperatorAssignment visit' ctx t) := by
  unfold Program.visitOperatorAssignment
  cases hl : t.child? "left" with
  | none => exact keeps_visitOther hv hctx ht
  | some left =>
    cases hr : t.child? "right" with
    | none => exact keeps_visitOther hv hctx ht
    | some right =>
      dsimp only
      split
      · refine (keeps_visitChild hv hctx ht (Tree.mem_of_child hr)).bind fun _ _ => ?_
        refine keeps_get fun f hf => ?_
        split
        · exact (keeps_typeOf hctx right).bind fun _ ho =>
            (assigns_declare (p.text left) ho).keeps.bind fun _ _ => keeps_pure trivial
        · exact keeps_pure trivial
      · exact keeps_visitOther hv hctx ht

/-! ### Definitions -/

omit hctx [p.env.Names IsRelative] in
/-- A part of a body is visited alike in every context. -/
theorem keeps_visitPart {inner : Context} (hinner : inner.IsResolved) {c : Tree} (hc : c ∈ t.parts) :
    Keeps (fun _ => True) (visit inner c) (visit' inner c) :=
  keeps_visitChild hv hinner ht (Tree.mem_of_part hc)

omit [p.env.Names IsRelative] in
theorem keeps_visitModule (hk : t.kind = "class" ∨ t.kind = "module") :
    Keeps (fun _ => True) (p.visitModule visit ctx t) (p.visitModule visit' ctx t) := by
  unfold Program.visitModule
  cases hname : t.child? "name" with
  | none => exact keeps_visitOther hv hctx ht
  | some name =>
    have hself : t ∈ t.nodes := by
      rw [Tree.nodes_eq]
      exact List.mem_cons_self
    have hindex := isIndexName_qualifiedName hctx (ht t hself hk name hname)
    have hinner : Context.IsResolved
        ⟨some (.classSingleton (declaredName (Program.qualifiedName ctx (p.text name)))),
          Program.qualifiedName ctx (p.text name) :: ctx.nesting, false⟩ :=
      ⟨(Resolved.classSingleton hindex.isRelative).known, fun _ ho => Option.some.inj ho ▸ hindex⟩
    refine (keeps_visitBody emptyScope_resolved (fun c hc => keeps_visitPart hv ht hinner hc)
      fun c hc => ?_).bind fun _ _ => keeps_pure trivial
    by_cases hid : c.id = name.id
    · rw [if_pos hid, if_pos hid]
      exact keeps_pure trivial
    · rw [if_neg hid, if_neg hid]
      split
      · exact keeps_visitPart hv ht hctx hc
      · exact trivial

theorem keeps_visitSingletonClass : Keeps (fun _ => True) (p.visitSingletonClass visit ctx t)
    (p.visitSingletonClass visit' ctx t) := by
  have hbody : ∀ (value : Option Tree) (self : Option TypeExpr), Known IsRelative self →
      Keeps (fun _ => True)
        (do return p.other t (← Program.visitBody (visit ⟨self, ctx.nesting, true⟩) (fun c =>
          if value.any (·.id = c.id) then some (visit ctx c) else none) [] t.parts))
        (do return p.other t (← Program.visitBody (visit' ⟨self, ctx.nesting, true⟩) (fun c =>
          if value.any (·.id = c.id) then some (visit' ctx c) else none) [] t.parts)) := by
    intro value self hself
    have hinner : Context.IsResolved ⟨self, ctx.nesting, true⟩ := ⟨hself, hctx.nesting⟩
    refine (keeps_visitBody emptyScope_resolved (fun c hc => keeps_visitPart hv ht hinner hc)
      fun c hc => ?_).bind fun _ _ => keeps_pure trivial
    split
    · exact keeps_visitPart hv ht hctx hc
    · exact trivial
  unfold Program.visitSingletonClass
  cases t.child? "value" with
  | none => exact hbody none none known_none
  | some v => exact (keeps_typeOf hctx v).bind fun self hself => hbody (some v) self hself

omit [p.env.Names IsRelative] in
/-- One parameter of a method. -/
theorem keeps_parameter {c : Tree} (hc : c ∈ t.parts) : Keeps (fun _ => True)
    (match c.child? "value" with
      | some v => do return p.other c [← visit ctx v]
      | none => return p.leaf c)
    (match c.child? "value" with
      | some v => do return p.other c [← visit' ctx v]
      | none => return p.leaf c) := by
  cases hval : c.child? "value" with
  | none => exact keeps_pure trivial
  | some v =>
    have hc := ht.mono (Tree.nodes_subset_of_child (Tree.mem_of_part hc))
    exact (keeps_visitChild hv hctx hc (Tree.mem_of_child hval)).bind fun _ _ => keeps_pure trivial

omit hv hctx ht [p.env.Names IsRelative] in
theorem keeps_mapM {act act' : Tree → Walk ProgramNode} {ts : List Tree}
    (h : ∀ t ∈ ts, Keeps (fun _ => True) (act t) (act' t)) :
    Keeps (fun _ => True) (ts.mapM act) (ts.mapM act') := by
  induction ts with
  | nil => exact keeps_pure trivial
  | cons t ts ih =>
    obtain ⟨ht, hts⟩ := List.forall_mem_cons.mp h
    rw [List.mapM_cons, List.mapM_cons]
    exact ht.bind fun _ _ => (ih hts).bind fun _ _ => keeps_pure trivial

omit [p.env.Names IsRelative] in
theorem keeps_visitParameters : Keeps (fun _ => True) (p.visitParameters visit ctx t)
    (p.visitParameters visit' ctx t) := by
  refine (keeps_mapM fun c hc => ?_).bind fun _ _ => keeps_pure trivial
  have hrest := keeps_parameter hv hctx ht hc
  have hnames : Keeps (fun _ => True)
      (do
        if c.kind = "destructured_parameter" then Walk.declareAll (c.identifiers p.source)
        match c.child? "value" with
        | some v => return p.other c [← visit ctx v]
        | none => return p.leaf c)
      (do
        if c.kind = "destructured_parameter" then Walk.declareAll (c.identifiers p.source)
        match c.child? "value" with
        | some v => return p.other c [← visit' ctx v]
        | none => return p.leaf c) :=
    have hdeclared := (assigns_declareAll (c.identifiers p.source)).keeps.bind fun _ _ => hrest
    keeps_ite (fun _ => hdeclared) fun _ => hrest
  cases c.parameterName? p.source with
  | none => exact hnames
  | some name => exact (assigns_declare name known_none).keeps.bind fun _ _ => hnames

omit hctx [p.env.Names IsRelative] in
theorem keeps_methodParts {inner : Context} (hinner : inner.IsResolved) (skip : Option Nat) :
    Keeps (fun _ => True) (p.methodParts visit inner t skip) (p.methodParts visit' inner t skip) := by
  refine keeps_visitBody emptyScope_resolved (fun c hc => ?_) fun c hc => ?_
  · have hpart := List.mem_of_mem_filter hc
    split
    · exact keeps_visitParameters hv hinner (ht.mono (Tree.nodes_subset_of_child (Tree.mem_of_part hpart)))
    · exact keeps_visitPart hv ht hinner hpart
  · split
    · exact keeps_pure trivial
    · exact trivial

omit [p.env.Names IsRelative] in
theorem keeps_visitMethod :
    Keeps (fun _ => True) (p.visitMethod visit ctx t) (p.visitMethod visit' ctx t) := by
  have hself : Known IsRelative (if ctx.inSingleton then ctx.self else ctx.self.bind instanceOf) := by
    split
    · exact hctx.self
    · exact hctx.self.bind fun _ => instanceOf_known
  have hinner : Context.IsResolved ⟨_, ctx.nesting, false⟩ := ⟨hself, hctx.nesting⟩
  exact (keeps_methodParts hv ht hinner none).bind fun _ _ => keeps_pure trivial

theorem keeps_visitSingletonMethod : Keeps (fun _ => True) (p.visitSingletonMethod visit ctx t)
    (p.visitSingletonMethod visit' ctx t) := by
  have hparts : ∀ self skip, Known IsRelative self → Keeps (fun _ => True)
      (p.methodParts visit ⟨self, ctx.nesting, false⟩ t skip)
      (p.methodParts visit' ⟨self, ctx.nesting, false⟩ t skip) := fun self skip hself =>
    have hinner : Context.IsResolved ⟨self, ctx.nesting, false⟩ := ⟨hself, hctx.nesting⟩
    keeps_methodParts hv ht hinner skip
  unfold Program.visitSingletonMethod
  cases htarget : t.child? "object" with
  | none => exact (hparts none none known_none).bind fun _ _ => keeps_pure trivial
  | some target =>
    exact (keeps_visitChild hv hctx ht (Tree.mem_of_child htarget)).bind fun _ _ =>
      (keeps_typeOf hctx target).bind fun self hself =>
        (hparts self (some target.id) hself).bind fun _ _ => keeps_pure trivial

theorem keeps_visitLambda :
    Keeps (fun _ => True) (p.visitLambda visit ctx t) (p.visitLambda visit' ctx t) := by
  unfold Program.visitLambda
  refine keeps_get fun f hf => ?_
  have hscope := hf.scope.putNone ((t.child? "parameters").elim [] (·.identifiers p.source))
  refine (keeps_visitBody hscope (fun c hc => ?_) fun c hc => ?_).bind fun _ _ => ?_
  · split
    · have hbody : ∀ s ∈ c.body, s.ModulesNamed p.source := fun s hs =>
        (ht.mono (Tree.nodes_subset_of_child (Tree.mem_of_part hc))).mono (Tree.nodes_subset_of_body hs)
      exact (keeps_visitAll hv hctx hbody).bind fun _ _ => keeps_pure trivial
    · exact keeps_visitPart hv ht hctx hc
  · split
    · exact keeps_pure trivial
    · exact trivial
  · have hproc : Keeps (fun _ => True) (recordType t.id (p.env.instanceNamed? "Proc"))
        (recordType t.id (p.env.instanceNamed? "Proc")) := keeps_of_gives fun _ hf =>
      (gives_recordType t.id (Environment.instanceNamed_known "Proc") hf).imp fun _ _ h => ⟨h.1, trivial⟩
    exact hproc.bind fun _ _ => keeps_pure trivial

/-! ## The walk -/

theorem keeps_visitNode :
    Keeps (fun _ => True) (p.visitNode visit ctx t) (p.visitNode visit' ctx t) := by
  unfold Program.visitNode
  split
  · next hk => exact keeps_visitModule hv hctx ht (.inl hk)
  · next hk => exact keeps_visitModule hv hctx ht (.inr hk)
  · exact keeps_visitSingletonClass hv hctx ht
  · exact keeps_visitMethod hv hctx ht
  · exact keeps_visitSingletonMethod hv hctx ht
  · exact keeps_visitIdentifier hctx
  · exact keeps_visitAssignment hv hctx ht
  · exact keeps_visitOperatorAssignment hv hctx ht
  · exact keeps_visitCall hv hctx ht fun _ h => nomatch h
  · exact keeps_visitLambda hv hctx ht
  · exact keeps_visitOther hv hctx ht

end

theorem watch_eq {self : Option TypeExpr} {f : Findings} (hself : Known IsRelative self)
    (hf : f.IsResolved IsRelative) : Walk.watch self f = .ok ((), f) := by
  show (if pointResolved self f then (pure () : Walk Unit) else throw .noDeclaration) f = _
  rw [if_pos (pointResolved_iff.mpr ⟨hself, hf⟩)]
  rfl

omit [p.env.Names IsRelative] in
/-- Watching does not change a visit that leaves what is known resolved. -/
theorem Visit.Agrees.watched (h : visit.Agrees p.source visit') :
    visit.Agrees p.source visit'.watched := by
  intro ctx t hctx ht f hf
  obtain ⟨n, g, he, he', hg, hn⟩ := h ctx t hctx ht f hf
  refine ⟨n, g, he, ?_, hg, hn⟩
  show (Walk.watch ctx.self f >>= fun r => visit' ctx t r.2 >>= fun r =>
    Walk.watch ctx.self r.2 >>= fun r' => .ok (r.1, r'.2)) = _
  rw [watch_eq hctx.self hf]
  show (visit' ctx t f >>= fun r => Walk.watch ctx.self r.2 >>= fun r' => .ok (r.1, r'.2)) = _
  rw [he']
  show (Walk.watch ctx.self g >>= fun r' => .ok (n, r'.2)) = _
  rw [watch_eq hctx.self hg]
  rfl

theorem visitWithin_agrees (p : Program) [p.env.Names IsRelative] (n : Nat) :
    (p.visitWithin n).Agrees p.source (p.visitWatched n) := by
  induction n with
  | zero =>
    have hleaf : Visit.Agrees p.source (fun _ t => pure (p.leaf t)) (fun _ t => pure (p.leaf t)) :=
      fun _ _ _ _ => keeps_pure trivial
    exact hleaf.watched
  | succ n ih =>
    have hnode : Visit.Agrees p.source (p.visitNode (p.visitWithin n))
        (p.visitNode (p.visitWatched n)) := fun _ _ hctx ht => keeps_visitNode ih hctx ht
    exact hnode.watched

theorem watched_of_names (p : Program) [p.env.Names IsRelative] {t : Tree}
    (ht : t.ModulesNamed p.source) : ∃ r, p.resolveTree t = .ok r ∧ p.watchedTree t = .ok r := by
  have hctx : Context.IsResolved ⟨p.env.instanceNamed? "Object", [], false⟩ :=
    ⟨Environment.instanceNamed_known _, fun _ h => nomatch h⟩
  have hfound : Findings.IsResolved IsRelative {} := ⟨emptyScope_resolved, fun _ _ h => nomatch h⟩
  obtain ⟨root, f, he, he', -⟩ := visitWithin_agrees p t.height _ t hctx ht {} hfound
  refine ⟨(root, f.typing), ?_, ?_⟩
  · show ((p.visitWithin t.height _ t).run {} >>= fun r => pure (r.1, r.2.typing)) = _
    rw [StateT.run, he]
    rfl
  · show ((p.visitWatched t.height _ t).run {} >>= fun r => pure (r.1, r.2.typing)) = _
    rw [StateT.run, he']
    rfl

/-! ## Top theorem -/

/-- What an environment makes of resolved types is resolved, and every call on one can be resolved. -/
structure KeepsResolved (env : Environment) : Prop where
  unions : ∀ os, (∀ o ∈ os, Known IsRelative o) → Known IsRelative (unionOf os)
  instances : ∀ t, Resolved IsRelative t → Known IsRelative (instanceOf t)
  singletons : ∀ t, Resolved IsRelative t → Known IsRelative (env.singletonOf t)
  types : ∀ place t depth, place.IsResolved IsRelative →
    Known IsRelative (env.resolveType place t depth)
  substitutions : ∀ e receiver, Known IsRelative receiver → ∀ name o,
    (env.substitution e receiver).find? name = some o → Known IsRelative o
  returned : ∀ e m receiver, Known IsRelative receiver → Known IsRelative (env.returnType e m receiver)
  blockParams : ∀ e m receiver, Known IsRelative receiver →
    ∀ o ∈ env.blockParamTypes e m receiver, Known IsRelative o
  blockSelves : ∀ e m receiver, Known IsRelative receiver →
    Known IsRelative (env.blockSelfType e m receiver)
  /-- There is a type to look a method up on, and all of them are resolved. -/
  receivers : ∀ t, Resolved IsRelative t →
    ∃ ts, receiverTypes? t = some ts ∧ ts ≠ [] ∧ ∀ u ∈ ts, Resolved IsRelative u
  /-- No matched call lacks a declaration. -/
  calls : ∀ method receiver args, Known IsRelative receiver →
    ∃ r ms, resolveCall env method receiver args = .ok (r, ms) ∧ r.method = method ∧
      ∀ m ∈ ms, Resolved IsRelative m.member
  results : ∀ method ms, (∀ m ∈ ms, Resolved IsRelative m.member) →
    Known IsRelative (resultType env method ms)

theorem keepsResolved (env : Environment) [env.Names IsRelative] : KeepsResolved env where
  unions _ := unionOf_known
  instances _ := instanceOf_known
  singletons _ := Environment.singletonOf_known
  types _ t depth hp := Environment.resolveType_known hp t depth
  substitutions e _ h _ _ := Environment.substitution_known e h
  returned e m _ := Environment.returnType_known e m
  blockParams e m _ := Environment.blockParamTypes_known e m
  blockSelves e m _ := Environment.blockSelfType_known e m
  receivers _ := Resolved.receiverTypes
  calls method _ args := resolveCall_ok env method args
  results method _ := resultType_known env method

/-- **Types are resolved throughout.**  In an environment that is built up from an empty one, what is
made of resolved types is resolved; and the walk over a tree of a program ends with the same result when
it is watched, so that at each of its points the types of `self`, of the local variables and of the
calls are resolved or not known. -/
theorem resolved_throughout (marker : Marker) (additions : List Environment.Addition)
    (hadd : ∀ a ∈ additions, a.IsIndexed) (source : List Char) (t : Tree)
    (ht : t.ModulesNamed source) :
    let env := (Environment.addAll { marker := marker } additions).1
    let p : Program := ⟨env, source⟩
    KeepsResolved env ∧ ∃ r, p.resolveTree t = .ok r ∧ p.watchedTree t = .ok r := by
  intro env p
  have hnames : env.Names IsRelative :=
    (Environment.indexed_addAll (Environment.indexed_empty marker) hadd).names
  have hp : p.env.Names IsRelative := hnames
  exact ⟨keepsResolved env, watched_of_names p ht⟩

/-- The tree of `class A; puts 1; end`. -/
def moduleTree : Tree :=
  let node := fun (id : Nat) (kind : String) (start stop : Nat) (field : String)
      (children : List Tree) => Tree.mk id kind start stop field true false false children
  node 0 "program" 0 20 "" [
    node 1 "class" 0 20 "" [
      node 2 "constant" 6 7 "name" [],
      node 3 "body_statement" 9 15 "body" [
        node 4 "call" 9 15 "" [
          node 5 "identifier" 9 13 "method" [],
          node 6 "argument_list" 14 15 "arguments" [node 7 "integer" 14 15 "" []]]]]]

theorem resolved_throughout_module :
    let additions : List Environment.Addition :=
      [.signature "class Object\n  def puts: (untyped) -> nil\nend" "a.rbs"]
    let source := "class A; puts 1; end".toList
    let env := (Environment.addAll { marker := ⟨"@rbs", by decide⟩ } additions).1
    let p : Program := ⟨env, source⟩
    (∀ a ∈ additions, a.IsIndexed) ∧ moduleTree.ModulesNamed source ∧
      KeepsResolved env ∧ ∃ r, p.resolveTree moduleTree = .ok r ∧ p.watchedTree moduleTree = .ok r := by
  intro additions source env p
  have hadd : ∀ a ∈ additions, a.IsIndexed := List.forall_mem_singleton.mpr trivial
  have ht : moduleTree.ModulesNamed source := by
    unfold Tree.ModulesNamed
    decide +kernel
  exact ⟨hadd, ht, resolved_throughout _ additions hadd source moduleTree ht⟩

end RbsSynth.Analysis
