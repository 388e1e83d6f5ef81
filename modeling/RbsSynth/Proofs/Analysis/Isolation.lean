import RbsSynth.Proofs.Analysis.Bodies
import RbsSynth.Proofs.Analysis.CallSites

/-!
# Bodies do not reach outside

Two walks over trees that differ inside of bodies know the same at every point outside (`Beside`): the
same of the local variables, and the same of the nodes outside.  What a body assigns is forgotten behind
it, and what is recorded inside has a number of its own, so each function of the walk keeps this if
`visit` does:

    Alike t t'  →  the calls outside are resolved alike and give the same types      (resolved_outside)
-/

namespace RbsSynth.Analysis

open Signature Walk

open Analysis.Tree (Alike AlikeBlock Statements reachedFrom)

/-! ## Two walks -/

section

variable {α β : Type}

/-- Both walks end, with results and findings of which `Q` holds. -/
def GivesBoth (act act' : Walk α) (f f' : Findings)
    (Q : α → Findings → α → Findings → Prop) : Prop :=
  Gives act f fun a g => Gives act' f' fun a' g' => Q a g a' g'

theorem GivesBoth.bind {act act' : Walk α} {k k' : α → Walk β} {f f' : Findings}
    {P : α → Findings → α → Findings → Prop} {Q : β → Findings → β → Findings → Prop}
    (h : GivesBoth act act' f f' P)
    (hk : ∀ a g a' g', P a g a' g' → GivesBoth (k a) (k' a') g g' Q) :
    GivesBoth (act >>= k) (act' >>= k') f f' Q := by
  obtain ⟨a, g, he, a', g', he', hp⟩ := h
  obtain ⟨b, h, hb, b', h', hb', hq⟩ := hk a g a' g' hp
  refine ⟨b, h, ?_, b', h', ?_, hq⟩
  · show (act f >>= fun r => k r.1 r.2) = _
    rw [he]
    exact hb
  · show (act' f' >>= fun r => k' r.1 r.2) = _
    rw [he']
    exact hb'

theorem GivesBoth.imp {act act' : Walk α} {f f' : Findings}
    {P Q : α → Findings → α → Findings → Prop} (h : GivesBoth act act' f f' P)
    (hq : ∀ a g a' g', P a g a' g' → Q a g a' g') : GivesBoth act act' f f' Q :=
  Gives.imp h fun a g h' => Gives.imp h' fun a' g' => hq a g a' g'

end

/-- What is known of the nodes outside is the same. -/
structure SameRecords (inner : Nat → Prop) (f f' : Findings) : Prop where
  resolved : f.IsResolved AnyName
  resolved' : f'.IsResolved AnyName
  typing : ∀ i, ¬ inner i → f.typing.of? i = f'.typing.of? i
  types : SameTypes inner f.types f'.types

/-- Two walks stand beside each other: the same is known of the variables and of the nodes outside. -/
structure Beside (inner : Nat → Prop) (f f' : Findings) : Prop extends SameRecords inner f f' where
  scope : f.scope = f'.scope

/-- Two walks that stand beside each other end, and do so again; of their results `Q` holds. -/
def Twins {α : Type} (inner : Nat → Prop) (Q : α → α → Prop) (act act' : Walk α) : Prop :=
  ∀ f f', Beside inner f f' → GivesBoth act act' f f' fun a g a' g' => Beside inner g g' ∧ Q a a'

/-- The same for walks through bodies, which may end with other variables. -/
def Bodies {α : Type} (inner : Nat → Prop) (act act' : Walk α) : Prop :=
  ∀ f f', Beside inner f f' → GivesBoth act act' f f' fun _ g _ g' => SameRecords inner g g'

/-- Nothing is asked of the results. -/
abbrev AnyTwo {α : Type} : α → α → Prop := fun _ _ => True

section

variable {α β : Type} {inner : Nat → Prop} {P : α → α → Prop} {Q : β → β → Prop}

theorem Twins.bind {act act' : Walk α} {k k' : α → Walk β} (h : Twins inner P act act')
    (hk : ∀ a a', P a a' → Twins inner Q (k a) (k' a')) : Twins inner Q (act >>= k) (act' >>= k') :=
  fun f f' hf => (h f f' hf).bind fun a g a' g' ⟨hg, ha⟩ => hk a a' ha g g' hg

theorem twins_pure {a a' : α} (h : P a a') : Twins inner P (pure a) (pure a') :=
  fun f f' hf => ⟨a, f, rfl, a', f', rfl, hf, h⟩

theorem Twins.give {act act' : Walk α} (h : Twins inner P act act') {make make' : α → β}
    (hq : ∀ a a', P a a' → Q (make a) (make' a')) :
    Twins inner Q (do return make (← act)) (do return make' (← act')) :=
  h.bind fun a a' ha => twins_pure (hq a a' ha)

theorem twins_get {k k' : Findings → Walk α}
    (h : ∀ f f', Beside inner f f' → Twins inner P (k f) (k' f')) :
    Twins inner P (get >>= k) (get >>= k') := fun _ _ hf => h _ _ hf _ _ hf

theorem Twins.ite {c : Prop} [Decidable c] {act act' rest rest' : Walk α}
    (h : c → Twins inner P act act') (h' : ¬ c → Twins inner P rest rest') :
    Twins inner P (if c then act else rest) (if c then act' else rest') := by
  split
  · next hc => exact h hc
  · next hc => exact h' hc

theorem twins_declare (name : String) {type : Option TypeExpr} (h : Known AnyName type) :
    Twins inner AnyTwo (declare name type) (declare name type) := fun _ _ hf =>
  ⟨(), _, rfl, (), _, rfl, ⟨⟨⟨hf.resolved.scope.put name h, hf.resolved.types⟩,
    ⟨hf.resolved'.scope.put name h, hf.resolved'.types⟩, hf.typing, hf.types⟩,
    congrArg (·.put name type) hf.scope⟩, trivial⟩

theorem twins_declareAll (names : List String) :
    Twins inner AnyTwo (declareAll names) (declareAll names) := by
  induction names with
  | nil => exact twins_pure trivial
  | cons n names ih => exact (twins_declare n known_none).bind fun _ _ _ => ih

theorem twins_within {act act' : Walk α} {scope : Scope} (hscope : Scope.IsResolved AnyName scope)
    (h : Twins inner P act act') :
    Twins inner (fun r r' => P r.1 r'.1 ∧ r.2 = r'.2 ∧ Scope.IsResolved AnyName r.2)
      (within scope act) (within scope act') := by
  intro f f' hf
  obtain ⟨a, g, he, a', g', he', hg, ha⟩ := h { f with scope := scope } { f' with scope := scope }
    ⟨⟨⟨hscope, hf.resolved.types⟩, ⟨hscope, hf.resolved'.types⟩, hf.typing, hf.types⟩, rfl⟩
  refine ⟨(a, g.scope), { g with scope := f.scope }, ?_, (a', g'.scope),
    { g' with scope := f'.scope }, ?_, ⟨⟨⟨hf.resolved.scope, hg.resolved.types⟩,
      ⟨hf.resolved'.scope, hg.resolved'.types⟩, hg.typing, hg.types⟩, hf.scope⟩, ha, hg.scope,
      hg.resolved.scope⟩
  · rw [within, he]
    rfl
  · rw [within, he']
    rfl

/-- What a body assigns is forgotten behind it. -/
theorem twins_within_bodies {act act' : Walk α} {scope : Scope}
    (hscope : Scope.IsResolved AnyName scope) (h : Bodies inner act act') :
    Twins inner (fun r r' => Scope.IsResolved AnyName r.2 ∧ Scope.IsResolved AnyName r'.2)
      (within scope act) (within scope act') := by
  intro f f' hf
  obtain ⟨a, g, he, a', g', he', hg⟩ := h { f with scope := scope } { f' with scope := scope }
    ⟨⟨⟨hscope, hf.resolved.types⟩, ⟨hscope, hf.resolved'.types⟩, hf.typing, hf.types⟩, rfl⟩
  refine ⟨(a, g.scope), { g with scope := f.scope }, ?_, (a', g'.scope),
    { g' with scope := f'.scope }, ?_, ⟨⟨⟨hf.resolved.scope, hg.resolved.types⟩,
      ⟨hf.resolved'.scope, hg.resolved'.types⟩, hg.typing, hg.types⟩, hf.scope⟩,
      hg.resolved.scope, hg.resolved'.scope⟩
  · rw [within, he]
    rfl
  · rw [within, he']
    rfl

theorem Twins.bodies {act act' : Walk α} {k k' : α → Walk β} (h : Twins inner P act act')
    (hk : ∀ a a', P a a' → Bodies inner (k a) (k' a')) : Bodies inner (act >>= k) (act' >>= k') :=
  fun f f' hf => (h f f' hf).bind fun a g a' g' ⟨hg, ha⟩ => hk a a' ha g g' hg

theorem Bodies.give {act act' : Walk α} (h : Bodies inner act act') (make make' : α → β) :
    Bodies inner (do return make (← act)) (do return make' (← act')) := fun f f' hf =>
  (h f f' hf).bind fun a g a' g' hg => ⟨make a, g, rfl, make' a', g', rfl, hg⟩

end

/-! ## Inside of bodies -/

/-- The walk leaves the local variables as they were. -/
def KeepsScope {α : Type} (act : Walk α) : Prop :=
  ∀ f a g, act f = .ok (a, g) → g.scope = f.scope

theorem KeepsScope.bind {α β : Type} {act : Walk α} {k : α → Walk β} (h : KeepsScope act)
    (hk : ∀ a, KeepsScope (k a)) : KeepsScope (act >>= k) := by
  intro f b g' hrun
  have hrun : (act f >>= fun r => k r.1 r.2) = .ok (b, g') := hrun
  cases he : act f with
  | error e =>
    rw [he] at hrun
    cases hrun
  | ok r =>
    rw [he] at hrun
    exact (hk r.1 r.2 b g' hrun).trans (h f r.1 r.2 he)

theorem keepsScope_pure {α : Type} (a : α) : KeepsScope (pure a) := fun _ _ _ h => by
  cases h
  rfl

theorem keepsScope_within {α : Type} (scope : Scope) (act : Walk α) : KeepsScope (within scope act) := by
  intro f a g hrun
  have hrun : (act { f with scope := scope } >>= fun r =>
      pure ((r.1, r.2.scope), { r.2 with scope := f.scope })) = .ok (a, g) := hrun
  cases he : act { f with scope := scope } with
  | error e =>
    rw [he] at hrun
    cases hrun
  | ok r =>
    rw [he] at hrun
    cases hrun
    rfl

section

variable {α : Type} {inner : Nat → Prop} {came came' : Set Tree}

/-- What is recorded inside does not count. -/
theorem Finds.sameRecords {f g f' g' : Findings} (h : Finds came f g) (h' : Finds came' f' g')
    (hin : ∀ c ∈ came, inner c.id) (hin' : ∀ c ∈ came', inner c.id) (hf : SameRecords inner f f')
    (hg : g.IsResolved AnyName) (hg' : g'.IsResolved AnyName) : SameRecords inner g g' := by
  have hleft : ∀ i, ¬ inner i → g.typing.of? i = f.typing.of? i ∧ g.types.lookup i = f.types.lookup i :=
    fun i hi => h.elsewhere i fun c hc he => hi (he ▸ hin c hc)
  have hright : ∀ i, ¬ inner i →
      g'.typing.of? i = f'.typing.of? i ∧ g'.types.lookup i = f'.types.lookup i :=
    fun i hi => h'.elsewhere i fun c hc he => hi (he ▸ hin' c hc)
  refine ⟨hg, hg', fun i hi => ?_, fun i hi => ?_⟩
  · rw [(hleft i hi).1, (hright i hi).1, hf.typing i hi]
  · rw [(hleft i hi).2, (hright i hi).2, hf.types i hi]

theorem bodies_of_searches {P P' : α → Prop} {act act' : Walk α} (h : Searches came P act)
    (h' : Searches came' P' act') (hin : ∀ c ∈ came, inner c.id) (hin' : ∀ c ∈ came', inner c.id) :
    Bodies inner act act' := by
  intro f f' hf
  obtain ⟨a, g, he, hg, -, hfound⟩ := h f hf.resolved
  obtain ⟨a', g', he', hg', -, hfound'⟩ := h' f' hf.resolved'
  exact ⟨a, g, he, a', g', he', hfound.sameRecords hfound' hin hin' hf.toSameRecords hg hg'⟩

theorem reachedFrom_inner {ts : List Tree} (h : ∀ t ∈ ts, ∀ i ∈ t.ids, inner i) :
    ∀ c ∈ reachedFrom ts, inner c.id := by
  rintro c ⟨t, ht, hc⟩
  exact h t ht c.id (List.mem_map.mpr ⟨c, hc.mem_nodes, rfl⟩)

end

/-! ## Functions of the walk -/

/-- The same environment with another text. -/
def Program.on (p : Program) (source : List Char) : Program := { p with source := source }

theorem Program.on_mk (env : Environment) (source source' : List Char) :
    (Program.mk env source).on source' = ⟨env, source'⟩ := rfl

section

variable {inner : Nat → Prop} {p : Program} {source' : List Char} {ctx : Context} {t t' : Tree}

theorem twins_typeOf (hctx : Known AnyName ctx.self) (h : t.Alike inner True p.source source' t') :
    Twins inner (fun o o' => o = o' ∧ Known AnyName o) (p.typeOf ctx t)
      ((p.on source').typeOf ctx t') := by
  intro f f' hf
  obtain ⟨o, g, he, hg, ho⟩ := gives_typeOf hctx hf.resolved t
  rw [hg] at he
  refine ⟨o, f, he, _, f', rfl, hf, ?_, ho⟩
  have hinfer : infer ⟨p.env, p.source, f.types, f.scope, ctx⟩ t
      = infer ⟨p.env, source', f'.types, f.scope, ctx⟩ t' := infer_alike hf.types t t' h
  have ho : infer ⟨p.env, p.source, f.types, f.scope, ctx⟩ t = o := (Prod.mk.inj (Except.ok.inj he)).1
  rw [← ho, hinfer, hf.scope]
  rfl

theorem twins_resolve {id : Nat} {method : String} {receiver : Option TypeExpr}
    (h : Known AnyName receiver) (args : Arguments) :
    Twins inner (fun ms ms' => ms = ms' ∧ ∀ m ∈ ms, Resolved AnyName m.member)
      (p.resolve id method receiver args) ((p.on source').resolve id method receiver args) := by
  intro f f' hf
  obtain ⟨r, ms, hcall, -, hms⟩ := resolveCall_ok p.env method args h
  obtain ⟨_, g, he, hg, -⟩ := gives_resolve (p := p) hf.resolved id method h args
  obtain ⟨_, g', he', hg', -⟩ := gives_resolve (p := p) hf.resolved' id method h args
  rw [resolve_eq hcall] at he he'
  obtain ⟨-, rfl⟩ := Prod.mk.inj (Except.ok.inj he)
  obtain ⟨-, rfl⟩ := Prod.mk.inj (Except.ok.inj he')
  refine ⟨ms, _, resolve_eq hcall f, ms, _, resolve_eq (p := p.on source') hcall f',
    ⟨⟨hg, hg', fun i hi => ?_, fun i hi => ?_⟩, hf.scope⟩, rfl, hms⟩
  · rw [of_record, of_record, hf.typing i hi]
  · rw [List.lookup_cons, List.lookup_cons, hf.types i hi]
    rfl

theorem twins_recordType (id : Nat) {type : Option TypeExpr} (h : Known AnyName type) :
    Twins inner AnyTwo (recordType id type) (recordType id type) := by
  intro f f' hf
  obtain ⟨_, g, he, hg, -⟩ := gives_recordType id h hf.resolved
  obtain ⟨_, g', he', hg', -⟩ := gives_recordType id h hf.resolved'
  cases he
  cases he'
  refine ⟨(), _, rfl, (), _, rfl, ⟨⟨hg, hg', hf.typing, fun i hi => ?_⟩, hf.scope⟩, trivial⟩
  show List.lookup i ((id, type) :: f.types) = List.lookup i ((id, type) :: f'.types)
  rw [List.lookup_cons, List.lookup_cons, hf.types i hi]

end

/-- Two visits agree on trees that differ inside of bodies, and each goes through bodies. -/
structure Visit.Pair (inner : Nat → Prop) (source source' : List Char) (visit visit' : Visit)
    (ts ts' : List Tree) : Prop where
  twins : ∀ ctx, Known AnyName ctx.self → ∀ t ∈ ts, ∀ t' ∈ ts',
    t.Alike inner True source source' t' → Twins inner AnyTwo (visit ctx t) (visit' ctx t')
  left : visit.Searches ts
  right : visit'.Searches ts'

theorem Visit.Pair.mono {inner : Nat → Prop} {source source' : List Char} {visit visit' : Visit}
    {ts ts' us us' : List Tree} (h : Visit.Pair inner source source' visit visit' us us')
    (hts : ts ⊆ us) (hts' : ts' ⊆ us') : Visit.Pair inner source source' visit visit' ts ts' where
  twins ctx hctx t ht t' ht' := h.twins ctx hctx t (hts ht) t' (hts' ht')
  left := h.left.mono hts
  right := h.right.mono hts'

section

variable {inner : Nat → Prop} {p : Program} {source' : List Char} {visit visit' : Visit}
  {ctx : Context} {t t' : Tree}

theorem Visit.Pair.child (hctx : Known AnyName ctx.self) {source source' : List Char}
    (hv : Visit.Pair inner source source' visit visit' t.inner t'.inner) {field : String} {c c' : Tree}
    (hc : t.child? field = some c) (hc' : t'.child? field = some c')
    (h : c.Alike inner True source source' c') : Twins inner AnyTwo (visit ctx c) (visit' ctx c') :=
  hv.twins ctx hctx c (t.children_subset_inner (Tree.mem_of_child hc)) c'
    (t'.children_subset_inner (Tree.mem_of_child hc')) h

theorem twins_visitAll (hctx : Known AnyName ctx.self) {ts ts' : List Tree}
    (hv : Visit.Pair inner p.source source' visit visit' ts ts')
    (h : List.Forall₂ (Alike inner True p.source source') ts ts') :
    Twins inner AnyTwo (Program.visitAll visit ctx ts) (Program.visitAll visit' ctx ts') := by
  induction h with
  | nil => exact twins_pure trivial
  | @cons t t' ts ts' ht _ ih =>
    exact (hv.twins ctx hctx t List.mem_cons_self t' List.mem_cons_self ht).bind fun _ _ _ =>
      (ih (hv.mono (List.subset_cons_self _ _) (List.subset_cons_self _ _))).give fun _ _ _ => trivial

omit t t' in
theorem twins_mapM {act act' : Tree → Walk ProgramNode} {ts ts' : List Tree}
    (h : List.Forall₂ (fun c c' => Twins inner AnyTwo (act c) (act' c')) ts ts') :
    Twins inner AnyTwo (ts.mapM act) (ts'.mapM act') := by
  induction h with
  | nil => exact twins_pure trivial
  | cons hc _ ih =>
    rw [List.mapM_cons, List.mapM_cons]
    exact hc.bind fun _ _ _ => ih.give fun _ _ _ => trivial

/-- Statements of which the last ones are inside of a body. -/
theorem bodies_visitAll (hctx : Known AnyName ctx.self) {ts ts' body body' : List Tree}
    (hv : Visit.Pair inner p.source source' visit visit' (ts ++ body) (ts' ++ body'))
    (h : List.Forall₂ (Alike inner True p.source source') ts ts')
    (hbody : ∀ t ∈ body, ∀ i ∈ t.ids, inner i) (hbody' : ∀ t ∈ body', ∀ i ∈ t.ids, inner i) :
    Bodies inner (Program.visitAll visit ctx (ts ++ body))
      (Program.visitAll visit' ctx (ts' ++ body')) := by
  induction h with
  | nil =>
    exact bodies_of_searches (searches_visitAll hctx hv.left) (searches_visitAll hctx hv.right)
      (reachedFrom_inner hbody) (reachedFrom_inner hbody')
  | @cons t t' ts ts' ht _ ih =>
    have hrest := ih (hv.mono (List.subset_cons_self _ _) (List.subset_cons_self _ _))
    exact (hv.twins ctx hctx t List.mem_cons_self t' List.mem_cons_self ht).bodies fun _ _ _ =>
      hrest.give _ _

/-- Both parts belong outside, or neither does. -/
def OutsideTwins (inner : Nat → Prop) (o o' : Option (Walk ProgramNode)) : Prop :=
  Option.Rel (Twins inner AnyTwo) o o'

/-- The parts of a body, up to those that are left. -/
theorem twins_visitBody {inside inside' : Tree → Walk ProgramNode}
    {outside outside' : Tree → Option (Walk ProgramNode)} {ts ts' rest rest' : List Tree}
    {scope : Scope} (hscope : Scope.IsResolved AnyName scope)
    (h : List.Forall₂ (fun c c' => OutsideTwins inner (outside c) (outside' c') ∧
      (outside c = none → Twins inner AnyTwo (inside c) (inside' c'))) ts ts')
    (hrest : ∀ scope, Scope.IsResolved AnyName scope →
      Twins inner AnyTwo (Program.visitBody inside outside scope rest)
        (Program.visitBody inside' outside' scope rest')) :
    Twins inner AnyTwo (Program.visitBody inside outside scope (ts ++ rest))
      (Program.visitBody inside' outside' scope (ts' ++ rest')) := by
  induction h generalizing scope with
  | nil => exact hrest scope hscope
  | @cons c c' ts ts' hc _ ih =>
    obtain ⟨hout, hin⟩ := hc
    rw [List.cons_append, List.cons_append, Program.visitBody, Program.visitBody]
    generalize outside c = o at hout hin
    generalize outside' c' = o' at hout
    cases hout with
    | none =>
      refine (twins_within hscope (hin rfl)).bind fun r r' hr => ?_
      obtain ⟨-, hs, hr⟩ := hr
      obtain ⟨n, s⟩ := r
      obtain ⟨n', s'⟩ := r'
      cases hs
      exact (ih hr).give fun _ _ _ => trivial
    | some hact => exact hact.bind fun _ _ _ => (ih hscope).give fun _ _ _ => trivial

omit t t' in
/-- The parts inside leave the variables around as they were. -/
theorem keepsScope_visitBody {inside : Tree → Walk ProgramNode}
    {outside : Tree → Option (Walk ProgramNode)} {ts : List Tree} (hout : ∀ c ∈ ts, outside c = none)
    (scope : Scope) : KeepsScope (Program.visitBody inside outside scope ts) := by
  induction ts generalizing scope with
  | nil => exact keepsScope_pure _
  | cons c ts ih =>
    obtain ⟨hc, hts⟩ := List.forall_mem_cons.mp hout
    rw [Program.visitBody, hc]
    exact (keepsScope_within scope _).bind fun r =>
      (ih hts r.2).bind fun _ => keepsScope_pure _

theorem searches_inside {inside : Tree → Walk ProgramNode}
    {outside : Tree → Option (Walk ProgramNode)} {ts : List Tree} {scope : Scope}
    (hscope : Scope.IsResolved AnyName scope) (hout : ∀ c ∈ ts, outside c = none)
    (hin : ∀ c ∈ ts, Searches (reachedFrom [c]) Any (inside c)) :
    Searches (reachedFrom ts) Any (Program.visitBody inside outside scope ts) := by
  have h := searches_visitBody (fun c => [c]) hscope (fun c hc _ => hin c hc)
    fun c hc act (hact : outside c = some act) => by
      rw [hout c hc] at hact
      cases hact
  rwa [List.flatMap_singleton'] at h

/-- The statements of a body. -/
theorem twins_statements {inside inside' : Tree → Walk ProgramNode}
    {outside outside' : Tree → Option (Walk ProgramNode)} {ts ts' : List Tree} {scope scope' : Scope}
    (hscope : Scope.IsResolved AnyName scope) (hscope' : Scope.IsResolved AnyName scope')
    (hts : Statements inner ts) (hts' : Statements inner ts')
    (hout : ∀ c ∈ ts, outside c = none) (hout' : ∀ c ∈ ts', outside' c = none)
    (hin : ∀ c ∈ ts, Searches (reachedFrom [c]) Any (inside c))
    (hin' : ∀ c ∈ ts', Searches (reachedFrom [c]) Any (inside' c)) :
    Twins inner AnyTwo (Program.visitBody inside outside scope ts)
      (Program.visitBody inside' outside' scope' ts') := by
  intro f f' hf
  obtain ⟨ns, g, he, ns', g', he', hg⟩ :=
    bodies_of_searches (searches_inside hscope hout hin) (searches_inside hscope' hout' hin')
      (reachedFrom_inner hts.inside) (reachedFrom_inner hts'.inside) f f' hf
  refine ⟨ns, g, he, ns', g', he', ⟨hg, ?_⟩, trivial⟩
  rw [keepsScope_visitBody hout scope f ns g he, keepsScope_visitBody hout' scope' f' ns' g' he',
    hf.scope]

/-- Nothing comes behind the last part of a body, so it may be a body itself. -/
theorem twins_lastPart {inside inside' : Tree → Walk ProgramNode}
    {outside outside' : Tree → Option (Walk ProgramNode)} {b b' : Tree} {scope : Scope}
    (hscope : Scope.IsResolved AnyName scope) (hout : OutsideTwins inner (outside b) (outside' b'))
    (hin : Bodies inner (inside b) (inside' b')) :
    Twins inner AnyTwo (Program.visitBody inside outside scope [b])
      (Program.visitBody inside' outside' scope [b']) := by
  unfold Program.visitBody
  generalize outside b = o at hout
  generalize outside' b' = o' at hout
  cases hout with
  | none => exact (twins_within_bodies hscope hin).bind fun _ _ _ => twins_pure trivial
  | some hact => exact hact.bind fun _ _ _ => twins_pure trivial

/-! ### Plain nodes and calls -/

theorem twins_leaf {q : Program} : Twins inner AnyTwo (pure (p.leaf t)) (pure (q.leaf t')) :=
  twins_pure trivial

section

variable (hctx : Known AnyName ctx.self)
  (hv : Visit.Pair inner p.source source' visit visit' t.inner t'.inner)
include hctx hv

theorem twins_visitOther
    (h : List.Forall₂ (Alike inner True p.source source') t.parts t'.parts) :
    Twins inner AnyTwo (p.visitOther visit ctx t) ((p.on source').visitOther visit' ctx t') :=
  (twins_visitAll hctx (hv.mono t.parts_subset_inner t'.parts_subset_inner) h).give fun _ _ _ =>
    trivial

end

theorem twins_visitIdentifier (hctx : Known AnyName ctx.self)
    (h : t.Alike inner True p.source source' t') (hk : t.kind = "identifier") :
    Twins inner AnyTwo (p.visitIdentifier ctx t) ((p.on source').visitIdentifier ctx t') := by
  have htext : p.text t = (p.on source').text t' := h.outside.text (.inl (by rw [hk]; decide))
  refine twins_get fun f f' hf => ?_
  rw [htext, hf.scope]
  refine .ite (fun _ => twins_leaf) fun _ => ?_
  rw [h.outside.id]
  exact (twins_resolve hctx {}).give fun _ _ _ => trivial

/-- The variables that a block starts with follow from the names that it declares. -/
theorem blockScope_eq (p : Program) {b : Tree} (hb : b.isBlock = true)
    (types : List (Option TypeExpr)) (scope : Scope) :
    p.blockScope b types scope = ((b.declared p.source).2.zipIdx).foldl (fun s (name, i) =>
      match name with
      | none => s
      | some n => s.put n (types[i]?.join))
      ((b.declared p.source).1.foldl (fun s n => s.put n none) scope) := by
  have hdeclared : b.declared p.source = b.blockParameters?.elim ([], []) fun ps =>
      (ps.identifiers p.source, ps.parameterNames p.source) := by
    rcases Tree.isBlock_iff.mp hb with hk | hk
    · simp only [Tree.declared, hk]
    · simp only [Tree.declared, hk]
  rw [hdeclared, Program.blockScope]
  cases b.blockParameters? with
  | none => rfl
  | some ps => rfl

/-! ### Calls -/

theorem twins_visitBlock (hctx : Known AnyName ctx.self) {b b' : Tree}
    (h : AlikeBlock inner True p.source source' b b')
    (hv : Visit.Pair inner p.source source' visit visit' b.body b'.body) {ms : List Match}
    (hms : ∀ m ∈ ms, Resolved AnyName m.member) :
    Twins inner AnyTwo (p.visitBlock visit ctx b ms) ((p.on source').visitBlock visit' ctx b' ms) := by
  have hself := blockSelf_known hctx p.env ms hms
  have htypes := blockTypes_known p.env ms hms
  have hblock : b.isBlock = true := by
    cases h with
    | mk _ isBlock => exact isBlock
  have hscope : ∀ types scope, (p.on source').blockScope b' types scope
      = p.blockScope b types scope := fun types scope => by
    rw [blockScope_eq p hblock, blockScope_eq (p.on source') (h.outside.isBlock ▸ hblock)]
    rw [show b.declared p.source = b'.declared (p.on source').source from h.outside.declared trivial]
  obtain ⟨front, front', body, body', hb, hb', hfront, hbody, hbody'⟩ := h.body
  refine twins_get fun f f' hf => ?_
  rw [hscope, ← hf.scope, hb, hb']
  rw [hb, hb'] at hv
  have hstart := blockScope_resolved (p := p) hf.resolved.scope b htypes
  exact (twins_within_bodies hstart (bodies_visitAll hself hv hfront
    hbody hbody')).give fun _ _ _ => trivial

theorem twins_visitReceiver (hctx : Known AnyName ctx.self) (h : t.Alike inner True p.source source' t')
    (hv : Visit.Pair inner p.source source' visit visit' t.inner t'.inner) :
    Twins inner (fun r r' => r.2 = r'.2 ∧ Known AnyName r.2) (p.visitReceiver visit ctx t)
      ((p.on source').visitReceiver visit' ctx t') := by
  unfold Program.visitReceiver
  rcases h.child_cases "receiver" (by decide) with ⟨hr, hr'⟩ | ⟨r, r', hr, hr', halike⟩
  · rw [hr, hr']
    exact twins_pure ⟨rfl, hctx⟩
  · rw [hr, hr']
    refine (Visit.Pair.child hctx hv hr hr' halike).bind fun n n' _ => ?_
    exact (twins_typeOf hctx halike).give fun _ _ ho => ho

theorem twins_visitBlock? (hctx : Known AnyName ctx.self) (h : t.Alike inner True p.source source' t')
    (hk : t.kind = "call") (hv : Visit.Pair inner p.source source' visit visit' t.inner t'.inner)
    {ms : List Match} (hms : ∀ m ∈ ms, Resolved AnyName m.member) :
    Twins inner AnyTwo (p.visitBlock? visit ctx t ms) ((p.on source').visitBlock? visit' ctx t' ms) := by
  have hblock := h.block? hk
  unfold Program.visitBlock?
  cases hb : t.block? with
  | none =>
    rw [hb] at hblock
    generalize t'.block? = o' at hblock
    cases hblock
    exact twins_pure trivial
  | some b =>
    rw [hb] at hblock
    generalize hb' : t'.block? = o' at hblock
    cases hblock with
    | some halike =>
      have hbody := hv.mono (Tree.body_subset_inner (Tree.mem_of_block hb))
        (Tree.body_subset_inner (Tree.mem_of_block hb'))
      exact (twins_visitBlock hctx halike hbody hms).give fun _ _ _ => trivial

/-- A call, and what is assigned to it. -/
theorem twins_visitCall (assigned assigned' : Option Tree) (hctx : Known AnyName ctx.self)
    (h : t.Alike inner True p.source source' t') (hk : t.kind = "call")
    (hassigned : List.Forall₂ (Alike inner True p.source source') assigned.toList assigned'.toList)
    (hv : Visit.Pair inner p.source source' visit visit' (t.inner ++ assigned.toList)
      (t'.inner ++ assigned'.toList)) :
    Twins inner AnyTwo (p.visitCall visit ctx t assigned)
      ((p.on source').visitCall visit' ctx t' assigned') := by
  have hname : ((t.child? "method").map p.text).getD "call"
      = ((t'.child? "method").map (p.on source').text).getD "call" :=
    congrArg (·.getD "call") (h.childText "method" (by decide))
  have hsome : assigned.isSome = assigned'.isSome := by
    have hlength := hassigned.length_eq
    cases assigned <;> cases assigned' <;> first | rfl | cases hlength
  have hargs := List.rel_append h.argumentList hassigned
  have hown := hv.mono (List.subset_append_left _ _) (List.subset_append_left _ _)
  have hav : Visit.Pair inner p.source source' visit visit' (t.arguments ++ assigned.toList)
      (t'.arguments ++ assigned'.toList) := hv.mono
    (List.append_subset.mpr ⟨List.subset_append_of_subset_left _ t.arguments_subset_inner,
      List.subset_append_right _ _⟩)
    (List.append_subset.mpr ⟨List.subset_append_of_subset_left _ t'.arguments_subset_inner,
      List.subset_append_right _ _⟩)
  unfold Program.visitCall
  refine (twins_visitReceiver hctx h hown).bind fun r r' ⟨htype, hknown⟩ => ?_
  refine (twins_visitAll hctx hav hargs).bind fun _ _ _ => ?_
  dsimp only
  rw [← hname, ← hsome, ← htype, ← h.outside.id, ← Tree.forall₂_arguments hargs]
  refine (twins_resolve hknown _).bind fun ms ms' ⟨hms, hresolved⟩ => ?_
  exact hms ▸ (twins_visitBlock? hctx h hk hown hresolved).give fun _ _ _ => trivial

/-! ### Assignments -/

section

variable (hctx : Known AnyName ctx.self) (h : t.Alike inner True p.source source' t')
  (hv : Visit.Pair inner p.source source' visit visit' t.inner t'.inner)
include hctx h hv

theorem twins_visitAssignment (hk : t.kind = "assignment") :
    Twins inner AnyTwo (p.visitAssignment visit ctx t)
      ((p.on source').visitAssignment visit' ctx t') := by
  have hparts := h.parts (by rw [hk]; decide) (by rw [hk]; decide) (by rw [hk]; decide)
  have hother := twins_visitOther hctx hv hparts
  unfold Program.visitAssignment
  rcases h.child_cases "left" (by decide) with ⟨hl, hl'⟩ | ⟨left, left', hl, hl', hleft⟩
  · rw [hl, hl']
    exact hother
  rcases h.child_cases "right" (by decide) with ⟨hr, hr'⟩ | ⟨right, right', hr, hr', hright⟩
  · rw [hl, hl', hr, hr']
    exact hother
  rw [hl, hl', hr, hr']
  dsimp only
  rw [← hleft.outside.kind]
  have hvisit := Visit.Pair.child hctx hv hr hr' hright
  refine .ite (fun hcall => ?_) fun _ => .ite (fun hname => ?_) fun _ => ?_
  · have hsides : Visit.Pair inner p.source source' visit visit' (left.inner ++ [right])
        (left'.inner ++ [right']) := hv.mono
      (List.append_subset.mpr ⟨Tree.inner_subset_inner (t.children_subset_inner (Tree.mem_of_child hl)),
        List.cons_subset.mpr ⟨t.children_subset_inner (Tree.mem_of_child hr), List.nil_subset _⟩⟩)
      (List.append_subset.mpr ⟨Tree.inner_subset_inner (t'.children_subset_inner (Tree.mem_of_child hl')),
        List.cons_subset.mpr ⟨t'.children_subset_inner (Tree.mem_of_child hr'), List.nil_subset _⟩⟩)
    exact (twins_visitCall (some right) (some right') hctx hleft hcall
      (.cons hright .nil) hsides).give fun _ _ _ => trivial
  · have htext : p.text left = (p.on source').text left' :=
      hleft.outside.text (.inl (by rw [hname]; decide))
    rw [← htext]
    exact hvisit.bind fun _ _ _ => (twins_typeOf hctx hright).bind fun o o' ⟨ho, hknown⟩ =>
      ho ▸ (twins_declare _ hknown).bind fun _ _ _ => twins_pure trivial
  · refine hvisit.bind fun _ _ _ => .ite (fun hlist => ?_) fun _ => ?_
    · have hnames : left.identifiers p.source = left'.identifiers (p.on source').source :=
        hleft.outside.identifiers trivial (by rcases hlist with hk | hk <;> rw [hk] <;> decide)
      rw [← hnames]
      exact (twins_declareAll _).bind fun _ _ _ => twins_pure trivial
    · exact (Visit.Pair.child hctx hv hl hl' hleft).give fun _ _ _ => trivial

theorem twins_visitOperatorAssignment (hk : t.kind = "operator_assignment") :
    Twins inner AnyTwo (p.visitOperatorAssignment visit ctx t)
      ((p.on source').visitOperatorAssignment visit' ctx t') := by
  have hparts := h.parts (by rw [hk]; decide) (by rw [hk]; decide) (by rw [hk]; decide)
  have hother := twins_visitOther hctx hv hparts
  unfold Program.visitOperatorAssignment
  rcases h.child_cases "left" (by decide) with ⟨hl, hl'⟩ | ⟨left, left', hl, hl', hleft⟩
  · rw [hl, hl']
    exact hother
  rcases h.child_cases "right" (by decide) with ⟨hr, hr'⟩ | ⟨right, right', hr, hr', hright⟩
  · rw [hl, hl', hr, hr']
    exact hother
  rw [hl, hl', hr, hr']
  dsimp only
  rw [← hleft.outside.kind]
  refine .ite (fun hname => ?_) fun _ => hother
  have htext : p.text left = (p.on source').text left' :=
    hleft.outside.text (.inl (by rw [hname]; decide))
  rw [← htext]
  refine (Visit.Pair.child hctx hv hr hr' hright).bind fun _ _ _ => twins_get fun f f' hf => ?_
  rw [hf.scope]
  refine .ite (fun _ => ?_) fun _ => twins_pure trivial
  exact (twins_typeOf hctx hright).bind fun o o' ⟨ho, hknown⟩ =>
    ho ▸ (twins_declare _ hknown).bind fun _ _ _ => twins_pure trivial

end

/-! ### Definitions -/

/-- A part outside, whatever `self` is there. -/
theorem twins_visitPart (hctx : Known AnyName ctx.self)
    (hv : Visit.Pair inner p.source source' visit visit' t.inner t'.inner) {c c' : Tree}
    (hc : c ∈ t.parts) (hc' : c' ∈ t'.parts) (h : c.Alike inner True p.source source' c') :
    Twins inner AnyTwo (visit ctx c) (visit' ctx c') :=
  hv.twins ctx hctx c (t.parts_subset_inner hc) c' (t'.parts_subset_inner hc') h

/-- The parts of a definition: those in front agree, and the statements are inside. -/
theorem twins_definition {inside inside' : Tree → Walk ProgramNode}
    {outside outside' : Tree → Option (Walk ProgramNode)} {front front' body body' : List Tree}
    (hfront : List.Forall₂ (Alike inner True p.source source') front front')
    (hbody : Statements inner body) (hbody' : Statements inner body')
    (houtside : ∀ c c', c.Alike inner True p.source source' c' → c ∈ front → c' ∈ front' →
      OutsideTwins inner (outside c) (outside' c'))
    (hinside : ∀ c c', c.Alike inner True p.source source' c' → c ∈ front → c' ∈ front' →
      Twins inner AnyTwo (inside c) (inside' c'))
    (hstatement : ∀ c ∈ body, Statements inner [c] →
      outside c = none ∧ Searches (reachedFrom [c]) Any (inside c))
    (hstatement' : ∀ c ∈ body', Statements inner [c] →
      outside' c = none ∧ Searches (reachedFrom [c]) Any (inside' c)) :
    Twins inner AnyTwo (Program.visitBody inside outside [] (front ++ body))
      (Program.visitBody inside' outside' [] (front' ++ body')) := by
  have hone : ∀ {ts : List Tree}, Statements inner ts → ∀ c ∈ ts, Statements inner [c] :=
    fun h c hc => h.mono (List.cons_subset.mpr ⟨hc, List.nil_subset _⟩)
  refine twins_visitBody emptyScope_resolved ((Tree.forall₂_mem hfront).imp
    fun c c' ⟨hc, hc', h⟩ => ⟨houtside c c' h hc hc', fun _ => hinside c c' h hc hc'⟩)
    fun scope hscope => ?_
  exact twins_statements hscope hscope hbody hbody'
    (fun c hc => (hstatement c hc (hone hbody c hc)).1)
    (fun c hc => (hstatement' c hc (hone hbody' c hc)).1)
    (fun c hc => (hstatement c hc (hone hbody c hc)).2)
    fun c hc => (hstatement' c hc (hone hbody' c hc)).2

section

variable (hctx : Known AnyName ctx.self) (h : t.Alike inner True p.source source' t')
  (hv : Visit.Pair inner p.source source' visit visit' t.inner t'.inner)
include hctx h hv

theorem twins_visitModule (hk : t.kind = "class" ∨ t.kind = "module") :
    Twins inner AnyTwo (p.visitModule visit ctx t) ((p.on source').visitModule visit' ctx t') := by
  have hdefinition : t.kind ∈ Tree.definitionKinds := by
    rcases hk with hk | hk <;> rw [hk] <;> decide
  unfold Program.visitModule
  rcases h.child_cases "name" (by decide) with ⟨hn, hn'⟩ | ⟨name, name', hn, hn', hname⟩
  · rw [hn, hn']
    exact twins_visitOther hctx hv (h.parts_of_unnamed hk hn)
  · rw [hn, hn']
    have htext : p.text name = (p.on source').text name' :=
      hname.outside.text (.inr (by rw [Tree.field_of_child hn]; decide))
    dsimp only
    rw [← htext, ← hname.outside.id]
    have hself : Known AnyName (some (.classSingleton (declaredName
        (Program.qualifiedName ctx (p.text name))))) := (Resolved.classSingleton trivial).known
    obtain ⟨front, front', body, body', hp, hp', hfront, hbody, hbody'⟩ := h.splitParts hdefinition
    have hparts := hv.mono t.parts_subset_inner t'.parts_subset_inner
    rw [hp, hp'] at hparts ⊢
    have hfronts := hparts.mono (List.subset_append_left _ _) (List.subset_append_left _ _)
    have houtside : ∀ c, Statements inner [c] → c.id ≠ name.id ∧ c.kind ≠ "superclass" := by
      intro c hc
      exact ⟨fun hid => hname.outside.outer (hid ▸ hc.inner_id List.mem_cons_self), fun hk =>
        hc.kind c List.mem_cons_self (by rw [hk]; decide)⟩
    refine (twins_definition hfront hbody hbody' (fun c c' hc hmem hmem' => ?_)
      (fun c c' hc hmem hmem' => hfronts.twins _ hself c hmem c' hmem' hc)
      (fun c hmem hc => ⟨?_, hparts.left _ hself c (List.mem_append_right _ hmem)⟩)
      fun c hmem hc => ⟨?_, hparts.right _ hself c (List.mem_append_right _ hmem)⟩).give
        fun _ _ _ => trivial
    · rw [← hc.outside.id, ← hc.outside.kind]
      split
      · exact .some twins_leaf
      · split
        · exact .some (hfronts.twins ctx hctx c hmem c' hmem' hc)
        · exact .none
    · rw [if_neg (houtside c hc).1, if_neg (houtside c hc).2]
    · rw [if_neg (houtside c hc).1, if_neg (houtside c hc).2]

theorem twins_visitSingletonClass (hk : t.kind = "singleton_class") :
    Twins inner AnyTwo (p.visitSingletonClass visit ctx t)
      ((p.on source').visitSingletonClass visit' ctx t') := by
  obtain ⟨front, front', body, body', hp, hp', hfront, hbody, hbody'⟩ :=
    h.splitParts (by rw [hk]; decide)
  have hparts := hv.mono t.parts_subset_inner t'.parts_subset_inner
  rw [hp, hp'] at hparts
  have hfronts := hparts.mono (List.subset_append_left _ _) (List.subset_append_left _ _)
  have hstatement : ∀ c, Statements inner [c] →
      ¬ (t.child? "value").any (·.id = c.id) = true := fun c hc => by
    rw [h.child_id_inner "value" (by decide) (hc.inner_id List.mem_cons_self)]
    exact Bool.false_ne_true
  have hrest : ∀ self, Known AnyName self → Twins inner AnyTwo
      (do return p.other t (← Program.visitBody (visit ⟨self, ctx.nesting, true⟩) (fun c =>
        if (t.child? "value").any (·.id = c.id) then some (visit ctx c) else none) [] t.parts))
      (do return (p.on source').other t' (← Program.visitBody (visit' ⟨self, ctx.nesting, true⟩)
        (fun c => if (t'.child? "value").any (·.id = c.id) then some (visit' ctx c) else none) []
        t'.parts)) := by
    intro self hself
    rw [hp, hp']
    simp only [h.child_id "value" (by decide)]
    refine (twins_definition hfront hbody hbody' (fun c c' hc hmem hmem' => ?_)
      (fun c c' hc hmem hmem' => hfronts.twins _ hself c hmem c' hmem' hc)
      (fun c hmem hc => ⟨if_neg (hstatement c hc), hparts.left _ hself c (List.mem_append_right _ hmem)⟩)
      fun c hmem hc => ⟨if_neg (hstatement c hc),
        hparts.right _ hself c (List.mem_append_right _ hmem)⟩).give fun _ _ _ => trivial
    rw [← hc.outside.id]
    split
    · exact .some (hfronts.twins ctx hctx c hmem c' hmem' hc)
    · exact .none
  unfold Program.visitSingletonClass
  rcases h.child_cases "value" (by decide) with ⟨hc, hc'⟩ | ⟨c, c', hc, hc', halike⟩
  · rw [hc, hc'] at hrest ⊢
    exact hrest none known_none
  · rw [hc, hc'] at hrest ⊢
    exact (twins_typeOf hctx halike).bind fun o o' ⟨ho, hknown⟩ => ho ▸ hrest o hknown

/-! ### Methods -/

omit h in
/-- The value that a parameter has by default. -/
theorem twins_default {c c' : Tree} (hc : c ∈ t.parts) (hc' : c' ∈ t'.parts)
    (halike : c.Alike inner True p.source source' c') :
    Twins inner AnyTwo (match c.child? "value" with
      | some v => do return p.other c [← visit ctx v]
      | none => return p.leaf c) (match c'.child? "value" with
      | some v => do return (p.on source').other c' [← visit' ctx v]
      | none => return (p.on source').leaf c') := by
  rcases halike.child_cases "value" (by decide) with ⟨hv, hv'⟩ | ⟨v, v', hval, hval', hvalue⟩
  · rw [hv, hv']
    exact twins_leaf
  · rw [hval, hval']
    have hin := Tree.inner_subset_inner (t.parts_subset_inner hc)
      (c.children_subset_inner (Tree.mem_of_child hval))
    have hin' := Tree.inner_subset_inner (t'.parts_subset_inner hc')
      (c'.children_subset_inner (Tree.mem_of_child hval'))
    exact (hv.twins ctx hctx v hin v' hin' hvalue).give fun _ _ _ => trivial

theorem twins_visitParameters (hk : t.kind = "method_parameters") :
    Twins inner AnyTwo (p.visitParameters visit ctx t)
      ((p.on source').visitParameters visit' ctx t') := by
  have hparts := h.parts (by rw [hk]; decide) (by rw [hk]; decide) (by rw [hk]; decide)
  refine (twins_mapM ((Tree.forall₂_mem hparts).imp fun c c' ⟨hc, hc', halike⟩ => ?_)).give
    fun _ _ _ => trivial
  have hvalue := twins_default hctx hv hc hc' halike
  have hnames : Twins inner AnyTwo (do
      if c.kind = "destructured_parameter" then Walk.declareAll (c.identifiers p.source)
      match c.child? "value" with
      | some v => return p.other c [← visit ctx v]
      | none => return p.leaf c) (do
      if c'.kind = "destructured_parameter" then Walk.declareAll (c'.identifiers source')
      match c'.child? "value" with
      | some v => return (p.on source').other c' [← visit' ctx v]
      | none => return (p.on source').leaf c') := by
    rw [← halike.outside.kind]
    by_cases hc : c.kind = "destructured_parameter"
    · rw [if_pos hc, if_pos hc, ← halike.outside.identifiers trivial (by rw [hc]; decide)]
      exact (twins_declareAll (c.identifiers p.source)).bind fun _ _ _ => hvalue
    · rw [if_neg hc, if_neg hc]
      exact hvalue
  have hname : c.parameterName? p.source = c'.parameterName? (p.on source').source :=
    halike.parameterName?
  rw [← hname]
  cases c.parameterName? p.source with
  | none => exact hnames
  | some name => exact (twins_declare name known_none).bind fun _ _ _ => hnames

omit hctx in
theorem twins_methodParts (hk : t.kind ∈ Tree.definitionKinds) {own : Context}
    (hown : Known AnyName own.self) (skip : Option Nat) :
    Twins inner AnyTwo (p.methodParts visit own t skip)
      ((p.on source').methodParts visit' own t' skip) := by
  obtain ⟨front, front', body, body', hp, hp', hfront, hbody, hbody'⟩ := h.splitParts hk
  have hparts := hv.mono t.parts_subset_inner t'.parts_subset_inner
  have hin : ∀ {c}, c ∈ front → c ∈ t.parts := fun hc => hp ▸ List.mem_append_left _ hc
  have hin' : ∀ {c}, c ∈ front' → c ∈ t'.parts := fun hc => hp' ▸ List.mem_append_left _ hc
  have hend : ∀ {c}, c ∈ body → c ∈ t.parts := fun hc => hp ▸ List.mem_append_right _ hc
  have hend' : ∀ {c}, c ∈ body' → c ∈ t'.parts := fun hc => hp' ▸ List.mem_append_right _ hc
  have hname : ∀ c, Statements inner [c] →
      ¬ (t.child? "name").any (·.id = c.id) = true := fun c hc => by
    rw [h.child_id_inner "name" (by decide) (hc.inner_id List.mem_cons_self)]
    exact Bool.false_ne_true
  have hkind : ∀ c, Statements inner [c] → c.kind ≠ "method_parameters" := fun c hc hk =>
    hc.kind c List.mem_cons_self (by rw [hk]; decide)
  have hkept := Tree.forall₂_filter (p := fun c => skip != some c.id) hfront fun c c' hc => by
    rw [hc.outside.id]
  unfold Program.methodParts
  simp only [h.child_id "name" (by decide)]
  rw [hp, hp', List.filter_append, List.filter_append]
  refine twins_definition hkept (hbody.filter _) (hbody'.filter _) (fun c c' hc _ _ => ?_)
    (fun c c' hc hmem hmem' => ?_) (fun c hmem hc => ⟨if_neg (hname c hc), ?_⟩)
    fun c hmem hc => ⟨if_neg (hname c hc), ?_⟩
  · rw [← hc.outside.id]
    split
    · exact .some twins_leaf
    · exact .none
  · rw [← hc.outside.kind]
    have hmem := hin (List.mem_of_mem_filter hmem)
    have hmem' := hin' (List.mem_of_mem_filter hmem')
    refine .ite (fun hk => ?_) fun _ => hparts.twins own hown c hmem c' hmem' hc
    exact twins_visitParameters hown hc (hv.mono
      (Tree.inner_subset_inner (t.parts_subset_inner hmem))
      (Tree.inner_subset_inner (t'.parts_subset_inner hmem'))) hk
  · rw [if_neg (hkind c hc)]
    exact hparts.left own hown c (hend (List.mem_of_mem_filter hmem))
  · rw [if_neg (hkind c hc)]
    exact hparts.right own hown c (hend' (List.mem_of_mem_filter hmem))

theorem twins_visitMethod (hk : t.kind = "method") : Twins inner AnyTwo (p.visitMethod visit ctx t)
    ((p.on source').visitMethod visit' ctx t') := by
  unfold Program.visitMethod
  refine (twins_methodParts h hv (by rw [hk]; decide) ?_ none).give fun _ _ _ => trivial
  dsimp only
  split
  · exact hctx
  · exact hctx.bind fun _ => instanceOf_known

theorem twins_visitSingletonMethod (hk : t.kind = "singleton_method") :
    Twins inner AnyTwo (p.visitSingletonMethod visit ctx t)
      ((p.on source').visitSingletonMethod visit' ctx t') := by
  have hdefinition : t.kind ∈ Tree.definitionKinds := by
    rw [hk]
    decide
  unfold Program.visitSingletonMethod
  rcases h.child_cases "object" (by decide) with ⟨hc, hc'⟩ | ⟨c, c', hc, hc', halike⟩
  · rw [hc, hc']
    exact (twins_methodParts h hv hdefinition known_none none).give fun _ _ _ => trivial
  · rw [hc, hc']
    dsimp only
    rw [← halike.outside.id]
    refine (Visit.Pair.child hctx hv hc hc' halike).bind fun _ _ _ =>
      (twins_typeOf hctx halike).bind fun o o' ⟨ho, hknown⟩ => ?_
    have hself : Known AnyName (Context.mk o ctx.nesting false).self := hknown
    exact ho ▸ (twins_methodParts h hv hdefinition hself (some c.id)).give fun _ _ _ => trivial

/-! ### Lambdas -/

theorem twins_visitLambda (hk : t.kind = "lambda") : Twins inner AnyTwo (p.visitLambda visit ctx t)
    ((p.on source').visitLambda visit' ctx t') := by
  obtain ⟨front, front', last, last', hc, hc', hfront, hlast⟩ := h.splitBlock (.inr hk)
  have hp : t.parts = front.filter Tree.isCode ++ last.filter Tree.isCode := by
    rw [Tree.parts, hc, List.filter_append]
  have hp' : t'.parts = front'.filter Tree.isCode ++ last'.filter Tree.isCode := by
    rw [Tree.parts, hc', List.filter_append]
  have hnames : (t.child? "parameters").elim [] (·.identifiers p.source)
      = (t'.child? "parameters").elim [] (·.identifiers (p.on source').source) := by
    have hdeclared := h.outside.declared trivial
    simp only [Tree.declared, ← h.outside.kind, hk] at hdeclared
    exact (Prod.mk.inj hdeclared).1
  have hparts := hv.mono t.parts_subset_inner t'.parts_subset_inner
  unfold Program.visitLambda
  refine twins_get fun f f' hf => ?_
  rw [← hnames, ← hf.scope, hp, hp']
  simp only [h.child_id "parameters" (by decide)]
  rw [hp, hp'] at hparts
  have hscope := hf.resolved.scope.putNone ((t.child? "parameters").elim [] (·.identifiers p.source))
  have hproc : Known AnyName (p.env.instanceNamed? "Proc") := Environment.instanceNamed_known _
  refine (twins_visitBody hscope ((Tree.forall₂_mem (Tree.forall₂_isCode hfront)).imp
    fun c c' hboth => ⟨?outside, fun _ => ?inside⟩) fun scope hscope => ?block).bind fun _ _ _ =>
      h.outside.id ▸ (twins_recordType t.id hproc).give fun _ _ _ => trivial
  case outside =>
    obtain ⟨-, -, halike⟩ := hboth
    rw [← halike.outside.id]
    split
    · exact .some twins_leaf
    · exact .none
  case inside =>
    obtain ⟨hmem, hmem', halike⟩ := hboth
    have hc : c ∈ t.parts := hp ▸ List.mem_append_left _ hmem
    have hc' : c' ∈ t'.parts := hp' ▸ List.mem_append_left _ hmem'
    rw [← halike.outside.isBlock]
    refine .ite (fun hblock => ?_) fun _ => twins_visitPart hctx hv hc hc' halike
    have hbody := hv.mono (Tree.body_subset_inner (Tree.mem_of_part hc))
      (Tree.body_subset_inner (Tree.mem_of_part hc'))
    exact (twins_visitAll hctx hbody (halike.body hblock)).give fun _ _ _ => trivial
  case block =>
    rcases hlast with ⟨rfl, rfl⟩ | ⟨b, b', rfl, rfl, -, hb⟩
    · exact twins_pure trivial
    rw [List.filter_singleton, List.filter_singleton, ← hb.outside.isCode]
    cases b.isCode with
    | false => exact twins_pure trivial
    | true =>
      have hblock : b.isBlock = true := by
        cases hb with
        | mk _ isBlock => exact isBlock
      have hbody := hv.mono (Tree.body_subset_inner (hc ▸ List.mem_append_right _ List.mem_cons_self))
        (Tree.body_subset_inner (hc' ▸ List.mem_append_right _ List.mem_cons_self))
      obtain ⟨ts, ts', rest, rest', hts, hts', hagree, hrest, hrest'⟩ := hb.body
      rw [hts, hts'] at hbody
      have hinside := bodies_visitAll hctx hbody hagree hrest hrest'
      refine twins_lastPart hscope ?_ ?_
      · rw [← hb.outside.id]
        split
        · exact .some twins_leaf
        · exact .none
      · rw [if_pos hblock, if_pos (hb.outside.isBlock ▸ hblock), hts, hts']
        exact hinside.give _ _

/-! ## The walk -/

theorem twins_visitNode : Twins inner AnyTwo (p.visitNode visit ctx t)
    ((p.on source').visitNode visit' ctx t') := by
  unfold Program.visitNode
  rw [← h.outside.kind]
  split
  · next hk => exact twins_visitModule hctx h hv (.inl hk)
  · next hk => exact twins_visitModule hctx h hv (.inr hk)
  · next hk => exact twins_visitSingletonClass hctx h hv hk
  · next hk => exact twins_visitMethod hctx h hv hk
  · next hk => exact twins_visitSingletonMethod hctx h hv hk
  · next hk => exact twins_visitIdentifier hctx h hk
  · next hk => exact twins_visitAssignment hctx h hv hk
  · next hk => exact twins_visitOperatorAssignment hctx h hv hk
  · next hk =>
    refine twins_visitCall none none hctx h hk .nil ?_
    rwa [Option.toList_none, List.append_nil, List.append_nil]
  · next hk => exact twins_visitLambda hctx h hv hk
  · next hclass hmodule hsingleton hmethod hdefs _ _ _ hcall hlambda =>
    refine twins_visitOther hctx hv (h.parts (fun hk => ?_) hcall hlambda)
    simp only [Tree.definitionKinds, List.mem_cons, List.not_mem_nil, or_false] at hk
    rcases hk with hk | hk | hk | hk | hk
    · exact hclass hk
    · exact hmodule hk
    · exact hsingleton hk
    · exact hmethod hk
    · exact hdefs hk

end

end

/-- Two walks over trees that differ inside of bodies, each as far down as its tree goes. -/
theorem twins_visitWithin (p : Program) {inner : Nat → Prop} {source' : List Char} (n n' : Nat)
    {ctx : Context} (hctx : Known AnyName ctx.self) {t t' : Tree}
    (h : t.Alike inner True p.source source' t') (hn : t.height ≤ n) (hn' : t'.height ≤ n') :
    Twins inner AnyTwo (p.visitWithin n ctx t) ((p.on source').visitWithin n' ctx t') := by
  induction n generalizing n' ctx t t' with
  | zero => exact absurd hn (Nat.not_le_of_lt t.height_pos)
  | succ n ih =>
    cases n' with
    | zero => exact absurd hn' (Nat.not_le_of_lt t'.height_pos)
    | succ n' =>
      have hbelow : ∀ c ∈ t.inner, c.height ≤ n := fun c hc =>
        Nat.le_of_lt_succ (Nat.lt_of_lt_of_le (Tree.height_lt_of_inner hc) hn)
      have hbelow' : ∀ c ∈ t'.inner, c.height ≤ n' := fun c hc =>
        Nat.le_of_lt_succ (Nat.lt_of_lt_of_le (Tree.height_lt_of_inner hc) hn')
      refine twins_visitNode hctx h ⟨fun ctx hctx c hc c' hc' halike => ?_, fun ctx hctx c hc => ?_,
        fun ctx hctx c hc => ?_⟩
      · exact ih n' hctx halike (hbelow c hc) (hbelow' c' hc')
      · exact searches_visitWithin p n ctx hctx c (hbelow c hc)
      · exact searches_visitWithin (p.on source') n' ctx hctx c (hbelow' c hc)

/-- The nodes of a program, and all that the walk finds. -/
def Program.found (p : Program) (t : Tree) : Except ResolutionError (ProgramNode × Findings) :=
  (p.visitWithin t.height ⟨p.env.instanceNamed? "Object", [], false⟩ t).run {}

theorem resolveTree_eq (p : Program) (t : Tree) :
    p.resolveTree t = (p.found t).map fun r => (r.1, r.2.typing) := by
  show (p.found t >>= fun r => pure (r.1, r.2.typing)) = _
  cases p.found t with
  | error e => rfl
  | ok r => rfl

/-- **Bodies do not reach outside.**  Two programs that differ inside of bodies, and whose nodes outside
declare the same names, are both resolved; the calls outside have the same resolution and the same
type. -/
theorem resolved_outside (p : Program) {inner : Nat → Prop} {source' : List Char} {t t' : Tree}
    (h : t.Alike inner True p.source source' t') :
    ∃ r r', p.found t = .ok r ∧ (p.on source').found t' = .ok r' ∧
      p.resolveTree t = .ok (r.1, r.2.typing) ∧
      (p.on source').resolveTree t' = .ok (r'.1, r'.2.typing) ∧
      ∀ i, ¬ inner i → r.2.typing.of? i = r'.2.typing.of? i ∧
        r.2.types.lookup i = r'.2.types.lookup i := by
  have hfound : Findings.IsResolved AnyName {} := ⟨emptyScope_resolved, fun _ _ h => nomatch h⟩
  have hself : Known AnyName (p.env.instanceNamed? "Object") := Environment.instanceNamed_known _
  have hstart : Beside inner ({} : Findings) {} :=
    ⟨⟨hfound, hfound, fun _ _ => rfl, fun _ _ => rfl⟩, rfl⟩
  let ctx : Context := ⟨p.env.instanceNamed? "Object", [], false⟩
  obtain ⟨n, f, he, n', f', he', hf, -⟩ := twins_visitWithin p t.height t'.height (show
    Known AnyName ctx.self from hself) h (Nat.le_refl _) (Nat.le_refl _) {} {} hstart
  have hrun : p.found t = .ok (n, f) := he
  have hrun' : (p.on source').found t' = .ok (n', f') := he'
  refine ⟨(n, f), (n', f'), hrun, hrun', ?_, ?_, fun i hi => ⟨hf.typing i hi, hf.types i hi⟩⟩
  · rw [resolveTree_eq, hrun]
    rfl
  · rw [resolveTree_eq, hrun']
    rfl

/-- A call with a block: `foo { y }`, or `foo {   }` where it has no statements. -/
def blockTree (statements : List Tree) : Tree :=
  let node := fun (id : Nat) (kind : String) (start stop : Nat) (field : String)
      (children : List Tree) => Tree.mk id kind start stop field true false false children
  node 0 "program" 0 9 "" [
    node 1 "call" 0 9 "" [
      node 2 "identifier" 0 3 "method" [],
      node 3 "block" 4 9 "block" statements]]

/-- The statement `y` in the block. -/
def blockStatement : Tree :=
  ⟨4, "block_body", 6, 7, "body", true, false, false,
    [⟨5, "identifier", 6, 7, "", true, false, false, []⟩]⟩

/-- A block with a statement and one without. -/
theorem resolved_outside_emptyBlock :
    Alike (4 ≤ ·) True "foo { y }".toList "foo {   }".toList (blockTree [blockStatement]) (blockTree []) ∧
    ∃ r r', (Program.mk { marker := .standard } "foo { y }".toList).found
        (blockTree [blockStatement]) = .ok r ∧
      (Program.mk { marker := .standard } "foo {   }".toList).found (blockTree []) = .ok r' ∧
      ∀ i, ¬ 4 ≤ i → r.2.typing.of? i = r'.2.typing.of? i ∧
        r.2.types.lookup i = r'.2.types.lookup i := by
  have hstatements : Statements (4 ≤ ·) [blockStatement] :=
    ⟨by decide, by decide, by decide⟩
  have halike : Alike (4 ≤ ·) True "foo { y }".toList "foo {   }".toList
      (blockTree [blockStatement]) (blockTree []) := by
    refine .node (by decide) (.cons (.ofBlock (by decide) rfl rfl rfl ?_ rfl ?_) .nil)
    · exact Tree.alike_self _ (by decide)
    · exact .ofStatements (by decide) rfl hstatements .nil
  obtain ⟨r, r', hr, hr', -, -, h⟩ := resolved_outside
    ⟨{ marker := .standard }, "foo { y }".toList⟩ halike
  exact ⟨halike, r, r', hr, hr', h⟩

/-! ## Bodies that reach outside -/

/-- In trees without faults, no call outside is resolved otherwise, whatever the nodes outside
declare. -/
def BodiesStayInside : Prop :=
  ∀ (p : Program) (inner : Nat → Prop) (source' : List Char) (t t' : Tree),
    t.Alike inner False p.source source' t' → (t.nodes.map (·.id)).Nodup → (t'.nodes.map (·.id)).Nodup →
    (∀ c ∈ t.nodes ++ t'.nodes, c.kind ≠ "ERROR" ∧ c.missing = false ∧ c.faulty = false) →
    ∀ r r', p.found t = .ok r → (p.on source').found t' = .ok r' →
      ∀ c ∈ t.nodes, c.kind = "call" → ¬ inner c.id → r.2.typing.of? c.id = r'.2.typing.of? c.id

/-- The tree of three lines: `y = "s"`, `foo { y }.b, c = 1, 2` and `y.upcase`. -/
def targetsTree : Tree :=
  let node := fun (id : Nat) (kind : String) (start stop : Nat) (field : String)
      (children : List Tree) => Tree.mk id kind start stop field true false false children
  node 0 "program" 0 38 "" [
    node 1 "assignment" 0 7 "" [
      node 2 "identifier" 0 1 "left" [],
      node 3 "string" 4 7 "right" [node 4 "string_content" 5 6 "" []]],
    node 5 "assignment" 8 29 "" [
      node 6 "left_assignment_list" 8 22 "left" [
        node 7 "call" 8 19 "" [
          node 8 "call" 8 17 "receiver" [
            node 9 "identifier" 8 11 "method" [],
            node 10 "block" 12 17 "block" [
              node 11 "block_body" 14 15 "body" [node 12 "identifier" 14 15 "" []]]],
          node 13 "identifier" 18 19 "method" []],
        node 14 "identifier" 21 22 "" []],
      node 15 "right_assignment_list" 25 29 "right" [
        node 16 "integer" 25 26 "" [],
        node 17 "integer" 28 29 "" []]],
    node 18 "call" 30 38 "" [
      node 19 "identifier" 30 31 "receiver" [],
      node 20 "identifier" 32 38 "method" []]]

def targetsText (name : String) : List Char :=
  ("y = \"s\"\nfoo \x7b " ++ name ++ " \x7d.b, c = 1, 2\ny.upcase").toList

/-- The nodes of the block's statement. -/
def inTargets (id : Nat) : Prop := id = 11 ∨ id = 12

instance : DecidablePred inTargets := fun id => inferInstanceAs (Decidable (id = 11 ∨ id = 12))

theorem targets_alike :
    targetsTree.Alike inTargets False (targetsText "y") (targetsText "z") targetsTree := by
  refine .node (by decide) (.cons (Tree.alike_self _ (by decide)) (.cons (.node (by decide) (.cons
    (.node (by decide) (.cons (.node (by decide) (.cons ?_ ?_)) ?_)) ?_)) (.cons ?_ .nil)))
  · refine .ofBlock (by decide) rfl rfl rfl ?_ rfl ?_
    · exact Tree.alike_self _ (by decide)
    · exact .ofStatements (by decide) rfl ⟨by decide, by decide, by decide⟩
        ⟨by decide, by decide, by decide⟩
  · exact Tree.alike_all _ (by decide)
  · exact Tree.alike_all _ (by decide)
  · exact Tree.alike_all _ (by decide)
  · exact Tree.alike_self _ (by decide)

/-- Strings can be asked for `upcase`. -/
def targetsEnv : Environment :=
  let base : Environment := { marker := .standard }
  ((base.addSignature "class String\n  def upcase: () -> String\nend\n").toOption.map (·.1)).getD base

def targetsProgram (name : String) : Program := ⟨targetsEnv, targetsText name⟩

/-- How `y.upcase` is resolved. -/
def targetsKind (name : String) : Option (Option ResolutionKind) :=
  ((targetsProgram name).found targetsTree).toOption.map fun r => (r.2.typing.of? 18).map (·.kind)

theorem found_of_targetsKind {name : String} {kind : ResolutionKind}
    (h : targetsKind name = some (some kind)) :
    ∃ r, (targetsProgram name).found targetsTree = .ok r ∧
      (r.2.typing.of? 18).map (·.kind) = some kind := by
  unfold targetsKind at h
  cases he : (targetsProgram name).found targetsTree with
  | error e =>
    rw [he] at h
    cases h
  | ok r =>
    rw [he] at h
    exact ⟨r, rfl, Option.some.inj h⟩

/-- The name in the block is taken for a target of the assignment, which hides the variable `y`. -/
theorem not_bodiesStayInside : ¬ BodiesStayInside := by
  intro h
  obtain ⟨r, hrun, hy⟩ := found_of_targetsKind (show targetsKind "y" = some (some .ofDynamic) by
    decide +kernel)
  obtain ⟨r', hrun', hz⟩ := found_of_targetsKind (show targetsKind "z" = some (some .ofMatched) by
    decide +kernel)
  have hids : (targetsTree.nodes.map (·.id)).Nodup := by decide
  have hsound : ∀ c ∈ targetsTree.nodes ++ targetsTree.nodes,
      c.kind ≠ "ERROR" ∧ c.missing = false ∧ c.faulty = false := by decide
  have hcall : ∃ c ∈ targetsTree.nodes, c.kind = "call" ∧ c.id = 18 := by decide
  obtain ⟨c, hc, hk, hid⟩ := hcall
  have houter : ¬ inTargets c.id := by
    rw [hid]
    decide
  rw [targetsProgram] at hrun hrun'
  have hsame := h ⟨targetsEnv, targetsText "y"⟩ inTargets (targetsText "z") targetsTree targetsTree targets_alike
    hids hids hsound r r' hrun ((congrArg (·.found targetsTree) (Program.on_mk _ _ _)).trans hrun') c hc
    hk houter
  rw [hid] at hsame
  rw [hsame, hz] at hy
  cases hy

end RbsSynth.Analysis
