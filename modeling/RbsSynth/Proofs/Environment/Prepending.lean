import RbsSynth.Proofs.Environment.Alike
import RbsSynth.Proofs.Environment.Lookups

/-!
# A module that is prepended instead of included

Two environments differ in one member: what an entry of `env` includes it prepends in `env'`
(`PrependsInstead`).  A module that is prepended is looked for outside the entry only, one that is
included also inside, so what is mixed in in `env'` is mixed in in `env`, but not the other way:

    env'.Mixes x y → env.Mixes x y                                          (PrependsInstead.mixes)
    env.Mixes x y → env'.Mixes x y ∨ (x = here ∧ env.resolveMixin? e m.name = some y)
                                                                      (PrependsInstead.mixes_cases)

So instances have the ancestors and methods of `env'` in `env` too, and where the name stands for one
thing outside and inside they are the same.
-/

namespace RbsSynth

open Relation (ReflTransGen)
open Signature

/-- What `e` includes by the member `m`, `e'` prepends; otherwise the entries are the same. -/
structure ModuleEntry.PrependsInstead (m : MixinMember) (e e' : ModuleEntry) : Prop where
  head : e.SameHead e'
  members : ∃ before after, e.members = before ++ .mixin { m with kind := .include } :: after ∧
    e'.members = before ++ .mixin { m with kind := .prepend } :: after

namespace Environment

/-- What the entry of `here` includes by `m` in `env`, it prepends in `env'`; otherwise the environments
are the same. -/
structure PrependsInstead (here : String) (m : MixinMember) (env env' : Environment) : Prop where
  marker : env.marker = env'.marker
  constants : ∀ name, env.constants.find? name = env'.constants.find? name
  entry : ∃ e e', env.entry? here = some e ∧ env'.entry? here = some e' ∧ e.PrependsInstead m e'
  others : ∀ name, name ≠ here → (env.entry? name = none ∧ env'.entry? name = none) ∨
    ∃ e e', env.entry? name = some e ∧ env'.entry? name = some e' ∧ e.Alike e'

/-- The same methods are recorded in two environments, with the same aliases. -/
def SameMethods (env env' : Environment) : Prop :=
  ∀ name, (env.entry? name = none ∧ env'.entry? name = none) ∨
    ∃ e e', env.entry? name = some e ∧ env'.entry? name = some e' ∧
      (∀ side method, e.records env.marker side method = e'.records env'.marker side method) ∧
      ∀ side, e.methodAliases side = e'.methodAliases side

end Environment

/-! ## Entries -/

namespace ModuleEntry.PrependsInstead

variable {m : MixinMember} {e e' : ModuleEntry} (h : e.PrependsInstead m e')

include h

theorem mem_include (n : TypeName) :
    n ∈ e.mixins .include ↔ n = m.name ∨ n ∈ e'.mixins .include := by
  obtain ⟨before, after, hm, hm'⟩ := h.members
  unfold ModuleEntry.mixins
  rw [hm, hm', List.filterMap_append, List.filterMap_append, List.filterMap_cons, List.filterMap_cons]
  simp [or_left_comm]

theorem mem_prepend (n : TypeName) :
    n ∈ e'.mixins .prepend ↔ n = m.name ∨ n ∈ e.mixins .prepend := by
  obtain ⟨before, after, hm, hm'⟩ := h.members
  unfold ModuleEntry.mixins
  rw [hm, hm', List.filterMap_append, List.filterMap_append, List.filterMap_cons, List.filterMap_cons]
  simp [or_left_comm]

theorem records_eq (marker : Marker) (side : Side) (method : String) :
    e.records marker side method = e'.records marker side method := by
  obtain ⟨before, after, hm, hm'⟩ := h.members
  unfold ModuleEntry.records
  rw [hm, hm', List.flatMap_append, List.flatMap_append]
  rfl

theorem methodAliases_eq (side : Side) : e.methodAliases side = e'.methodAliases side := by
  obtain ⟨before, after, hm, hm'⟩ := h.members
  unfold ModuleEntry.methodAliases
  rw [hm, hm', List.filterMap_append, List.filterMap_append]
  rfl

end ModuleEntry.PrependsInstead

namespace Environment

variable {env env' : Environment}

theorem lineage?_eq (h : env.SameHeads env') (i : Nat) : env.lineage? i = env'.lineage? i := by
  induction i with
  | zero => rfl
  | succ i ih =>
    funext name
    rw [lineage?, lineage?, ih, h.superclassOf?_eq]

/-- What is mixed in, by the names written. -/
theorem mixes_iff {x y : String} {e : ModuleEntry} (he : env.entry? x = some e) :
    env.Mixes x y ↔ (∃ n ∈ e.mixins .prepend, env.resolvePrepended? e n = some y) ∨
      ∃ n ∈ e.mixins .include, env.resolveMixin? e n = some y := by
  have hname : env.Mixes x y ↔ y ∈ env.prepended e ∨ y ∈ env.included e := by
    constructor
    · rintro ⟨e', he', hy⟩
      rwa [← Option.some.inj (he.symm.trans he')] at hy
    · exact fun hy => ⟨e, he, hy⟩
  rw [hname, prepended, included, List.mem_filterMap, List.mem_filterMap]
  simp only [List.mem_reverse]

theorem resolveMixin?_of_prepended {e : ModuleEntry} {n : TypeName} {y : String}
    (h : env.resolvePrepended? e n = some y) : env.resolveMixin? e n = some y := by
  have houter : env.resolveConstant? n e.context.tail = some y := h
  rw [resolveMixin?, houter, Option.some_or]

/-- A name stands for one thing outside and inside an entry, or for nothing outside and what is declared
in the innermost name inside. -/
theorem resolved_or_inside (e : ModuleEntry) (n : TypeName) :
    env.resolvePrepended? e n = env.resolveMixin? e n ∨
      env.resolvePrepended? e n = none ∧ ∃ inner, e.context.head? = some inner ∧
        env.resolveMixin? e n = some (inner ++ "::" ++ n.qualified) := by
  cases hp : env.resolvePrepended? e n with
  | some y => exact .inl (resolveMixin?_of_prepended hp).symm
  | none =>
    have houter : env.resolveConstant? n e.context.tail = none := hp
    rw [resolveMixin?, houter, Option.none_or]
    cases hc : e.context with
    | nil =>
      rw [hc] at houter
      exact .inl houter.symm
    | cons inner outer =>
      rw [hc] at houter
      unfold resolveConstant? candidates at houter ⊢
      by_cases habs : n.absolute = true
      · rw [if_pos habs] at houter ⊢
        exact .inl houter.symm
      · rw [if_neg habs] at houter ⊢
        rw [List.map_cons, List.cons_append, List.find?_cons]
        split
        · exact .inr ⟨rfl, inner, rfl, rfl⟩
        · exact .inl houter.symm

/-! ## Mixins -/

namespace PrependsInstead

variable {here : String} {m : MixinMember} (h : PrependsInstead here m env env')

include h

theorem sameHeads : env.SameHeads env' where
  constants := h.constants
  entry?_cases name := by
    by_cases hname : name = here
    · obtain ⟨e, e', he, he', hentry⟩ := h.entry
      exact .inr ⟨e, e', hname ▸ he, hname ▸ he', hentry.head⟩
    · exact (h.others name hname).imp_right fun ⟨e, e', he, he', hentry⟩ =>
        ⟨e, e', he, he', hentry.head⟩

theorem mixes_of_ne {x : String} (hx : x ≠ here) (y : String) : env.Mixes x y ↔ env'.Mixes x y := by
  rcases h.others x hx with ⟨hnone, hnone'⟩ | ⟨e, e', he, he', hentry⟩
  · constructor
    · rintro ⟨e, he, _⟩
      cases hnone.symm.trans he
    · rintro ⟨e, he, _⟩
      cases hnone'.symm.trans he
  · rw [mixes_iff he, mixes_iff he', hentry.mixins_eq, hentry.mixins_eq,
      h.sameHeads.resolvePrepended?_eq hentry.head, h.sameHeads.resolveMixin?_eq hentry.head]

/-- What is mixed in when the member prepends is mixed in when it includes. -/
theorem mixes {x y : String} (hy : env'.Mixes x y) : env.Mixes x y := by
  by_cases hx : x = here
  · subst hx
    obtain ⟨e, e', he, he', hentry⟩ := h.entry
    rw [mixes_iff he', ← h.sameHeads.resolvePrepended?_eq hentry.head,
      ← h.sameHeads.resolveMixin?_eq hentry.head] at hy
    rw [mixes_iff he]
    rcases hy with ⟨n, hn, hy⟩ | ⟨n, hn, hy⟩
    · rcases (hentry.mem_prepend n).mp hn with rfl | hn
      · exact .inr ⟨m.name, (hentry.mem_include m.name).mpr (.inl rfl), resolveMixin?_of_prepended hy⟩
      · exact .inl ⟨n, hn, hy⟩
    · exact .inr ⟨n, (hentry.mem_include n).mpr (.inr hn), hy⟩
  · exact (h.mixes_of_ne hx y).mpr hy

/-- What is mixed in when the member includes is mixed in when it prepends, but for what the member
itself stands for. -/
theorem mixes_cases {x y : String} (hy : env.Mixes x y) : env'.Mixes x y ∨
    x = here ∧ ∃ e, env.entry? here = some e ∧ env.resolveMixin? e m.name = some y := by
  by_cases hx : x = here
  · subst hx
    obtain ⟨e, e', he, he', hentry⟩ := h.entry
    rw [mixes_iff he', ← h.sameHeads.resolvePrepended?_eq hentry.head,
      ← h.sameHeads.resolveMixin?_eq hentry.head]
    rw [mixes_iff he] at hy
    rcases hy with ⟨n, hn, hy⟩ | ⟨n, hn, hy⟩
    · exact .inl (.inl ⟨n, (hentry.mem_prepend n).mpr (.inr hn), hy⟩)
    · rcases (hentry.mem_include n).mp hn with rfl | hn
      · exact .inr ⟨rfl, e, he, hy⟩
      · exact .inl (.inr ⟨n, hn, hy⟩)
  · exact .inl ((h.mixes_of_ne hx y).mp hy)

/-- Where the name stands for one thing outside and inside the entry, the mixins are the same. -/
theorem mixes_iff_of_resolved {e : ModuleEntry} (he : env.entry? here = some e)
    (hresolved : env.resolvePrepended? e m.name = env.resolveMixin? e m.name) (x y : String) :
    env.Mixes x y ↔ env'.Mixes x y := by
  refine ⟨fun hy => ?_, h.mixes⟩
  rcases h.mixes_cases hy with hy | ⟨rfl, e', he', hy⟩
  · exact hy
  · obtain rfl := Option.some.inj (he'.symm.trans he)
    obtain ⟨e', e'', he', he'', hentry⟩ := h.entry
    obtain rfl := Option.some.inj (he'.symm.trans he)
    rw [mixes_iff he'', ← h.sameHeads.resolvePrepended?_eq hentry.head]
    exact .inl ⟨m.name, (hentry.mem_prepend m.name).mpr (.inl rfl), hresolved.trans hy⟩

theorem sameMethods : env.SameMethods env' := by
  intro name
  by_cases hname : name = here
  · subst hname
    obtain ⟨e, e', he, he', hentry⟩ := h.entry
    refine .inr ⟨e, e', he, he', fun side method => ?_, hentry.methodAliases_eq⟩
    rw [hentry.records_eq, h.marker]
  · refine (h.others name hname).imp_right fun ⟨e, e', he, he', hentry⟩ =>
      ⟨e, e', he, he', fun side method => ?_, hentry.methodAliases_eq⟩
    rw [hentry.records_eq, h.marker]

end PrependsInstead

/-! ## More mixins -/

theorem SameHeads.symm (h : env.SameHeads env') : env'.SameHeads env where
  constants name := (h.constants name).symm
  entry?_cases name := (h.entry?_cases name).imp And.symm fun ⟨e, e', he, he', hh⟩ =>
    ⟨e', e, he', he, hh.name.symm, hh.kind.symm, hh.superclass.symm⟩

theorem SameMethods.symm (h : env.SameMethods env') : env'.SameMethods env := fun name =>
  (h name).imp And.symm fun ⟨e, e', he, he', hrecords, haliases⟩ =>
    ⟨e', e, he', he, fun side method => (hrecords side method).symm, fun side => (haliases side).symm⟩

theorem MixesIn.mono (more : ∀ x y, env.Mixes x y → env'.Mixes x y) {k : Nat} {x m : String}
    (h : env.MixesIn k x m) : env'.MixesIn k x m := by
  induction h with
  | none x => exact .none x
  | more hm _ ih => exact .more (more _ _ hm) ih

section

variable (heads : env.SameHeads env') (more : ∀ x y, env.Mixes x y → env'.Mixes x y)

include heads more

theorem Reaches.mono {name m : String} (h : env.Reaches name m) : env'.Reaches name m := by
  rcases h with ⟨i, c, hc, hm⟩ | ⟨hkind, hm⟩
  · rw [lineage?_eq heads] at hc
    exact .inl ⟨i, c, hc, ReflTransGen.mono more _ _ hm⟩
  · rw [heads.kindOf?_eq] at hkind
    exact .inr ⟨hkind, ReflTransGen.mono more _ _ hm⟩

/-- With fewer mixins a name stays within the depth limit. -/
theorem WithinDepth.of_more {name : String} (h : env'.WithinDepth name) : env.WithinDepth name where
  chain hc hk hm := by
    rw [lineage?_eq heads] at hc
    rw [heads.hasModule_eq] at hm
    exact h.chain hc (hk.mono more) hm
  object hkind _ _ hk hm := by
    rw [heads.kindOf?_eq] at hkind
    rw [heads.hasModule_eq] at hm
    exact h.object hkind (hk.mono more) hm

/-- With more mixins instances keep their ancestors. -/
theorem ancestors_subset {name : String} (h : env'.WithinDepth name) :
    env.ancestors name .ofInstance ⊆ env'.ancestors name .ofInstance := by
  intro a ha
  obtain ⟨y, rfl, hy, hreach⟩ := mem_ancestors ha
  rw [heads.hasModule_eq] at hy
  exact (mem_ancestors_iff h y).mpr ⟨hy, hreach.mono heads more⟩

end

/-- With more ancestors instances keep their methods. -/
theorem findMethod?_of_subset (methods : env.SameMethods env')
    (more : ∀ x, env.ancestors x .ofInstance ⊆ env'.ancestors x .ofInstance) {name method : String}
    (h : (env.findMethod? name method .ofInstance).isSome = true) :
    (env'.findMethod? name method .ofInstance).isSome = true := by
  have entry : ∀ {q e}, env.entry? q = some e → ∃ e', env'.entry? q = some e' ∧
      (∀ side method, e.records env.marker side method = e'.records env'.marker side method) ∧
      ∀ side, e.methodAliases side = e'.methodAliases side := by
    intro q e he
    rcases methods q with ⟨hnone, _⟩ | ⟨e₁, e', he₁, he', hsame⟩
    · cases hnone.symm.trans he
    · obtain rfl := Option.some.inj (he₁.symm.trans he)
      exact ⟨e', he', hsame⟩
  obtain ⟨l, found, hl, hdefines⟩ := findMethod?_isSome_iff.mp h
  -- aliases of instances lead to instances, so the side stays
  have hleads : ReflTransGen env'.Leads ⟨name, method, .ofInstance⟩ l ∧ l.side = .ofInstance := by
    clear hdefines
    induction hl with
    | refl => exact ⟨.refl, rfl⟩
    | tail _ hlead ih =>
      obtain ⟨hl, hside⟩ := ih
      obtain ⟨b, hb, e, target, he, ht, rfl⟩ := hlead
      rw [hside] at hb
      obtain ⟨y, rfl, -, -⟩ := mem_ancestors hb
      obtain ⟨e', he', -, haliases⟩ := entry he
      rw [haliases] at ht
      exact ⟨hl.tail ⟨_, hside ▸ more _ hb, e', target, he', ht, rfl⟩, rfl⟩
  obtain ⟨hl, hside⟩ := hleads
  obtain ⟨a, ha, e, he, hr, _⟩ := hdefines
  rw [hside] at ha
  obtain ⟨e', he', hrecords, -⟩ := entry he
  rw [hrecords] at hr
  exact findMethod?_isSome_iff.mpr ⟨l, _, hl, a, hside ▸ more _ ha, e', he', hr, rfl⟩

/-! ## Ancestors and methods -/

namespace PrependsInstead

variable {here : String} {m : MixinMember} (h : PrependsInstead here m env env')
  (hdepth : ∀ x, env.WithinDepth x)

include h hdepth

theorem withinDepth (x : String) : env'.WithinDepth x :=
  (hdepth x).of_more h.sameHeads.symm fun _ _ => h.mixes

/-- No ancestor is new when a module is prepended instead of included. -/
theorem ancestors_subset (x : String) :
    env'.ancestors x .ofInstance ⊆ env.ancestors x .ofInstance :=
  Environment.ancestors_subset h.sameHeads.symm (fun _ _ => h.mixes) (hdepth x)

/-- No ancestor of `here` is lost exactly if the module still is one. -/
theorem mem_ancestors_iff_of_here {e : ModuleEntry} (he : env.entry? here = some e) :
    (∀ a, a ∈ env.ancestors here .ofInstance ↔ a ∈ env'.ancestors here .ofInstance) ↔
      ∀ t, env.resolveMixin? e m.name = some t → env.hasModule t = true →
        ⟨t, .ofInstance⟩ ∈ env'.ancestors here .ofInstance := by
  constructor
  · intro hsame t ht hmodule
    have hmixes : env.Mixes here t := by
      obtain ⟨e₁, e', he₁, -, hentry⟩ := h.entry
      obtain rfl := Option.some.inj (he₁.symm.trans he)
      exact (mixes_iff he).mpr (.inr ⟨m.name, (hentry.mem_include m.name).mpr (.inl rfl), ht⟩)
    refine (hsame _).mp ((mem_ancestors_iff (hdepth here) t).mpr ⟨hmodule, ?_⟩)
    exact .inl ⟨0, here, rfl, .single hmixes⟩
  · intro hkept a
    refine ⟨fun ha => ?_, fun ha => h.ancestors_subset hdepth here ha⟩
    have hreached := fun y => mem_ancestors_iff (h.withinDepth hdepth here) y
    -- a path of `env` from something that is reached in `env'` stays in what is reached there
    have along : ∀ c, env'.Reaches here c → ∀ y, env.Mixed c y → env.hasModule y = true →
        env'.Reaches here y := by
      intro c hc y hy
      induction hy with
      | refl => exact fun _ => hc
      | @tail z y _ hzy ih =>
        intro hmodule
        rcases h.mixes_cases hzy with hzy' | ⟨rfl, e₁, he₁, ht⟩
        · obtain ⟨e, he, _⟩ := hzy
          exact (ih (hasModule_of_entry he)).mixed (.single hzy')
        · obtain rfl := Option.some.inj (he₁.symm.trans he)
          exact ((hreached y).mp (hkept y ht hmodule)).2
    obtain ⟨y, rfl, hy, hreach⟩ := mem_ancestors ha
    have hy' : env'.hasModule y = true := by rwa [← h.sameHeads.hasModule_eq]
    refine (hreached y).mpr ⟨hy', ?_⟩
    rcases hreach with ⟨i, c, hc, hcy⟩ | ⟨hkind, hoy⟩
    · rw [lineage?_eq h.sameHeads] at hc
      exact along c (.inl ⟨i, c, hc, .refl⟩) y hcy hy
    · rw [h.sameHeads.kindOf?_eq] at hkind
      exact along "Object" (.inr ⟨hkind, .refl⟩) y hoy hy

/-- Nothing is new that is found when a module is prepended instead of included. -/
theorem findMethod?_subset {x method : String}
    (hfound : (env'.findMethod? x method .ofInstance).isSome = true) :
    (env.findMethod? x method .ofInstance).isSome = true :=
  findMethod?_of_subset h.sameMethods.symm (h.ancestors_subset hdepth) hfound

/-- **Where the name stands for one thing outside and inside**, nothing is lost. -/
theorem same_of_resolved {e : ModuleEntry} (he : env.entry? here = some e)
    (hresolved : env.resolvePrepended? e m.name = env.resolveMixin? e m.name) (x : String) :
    (∀ a, a ∈ env.ancestors x .ofInstance ↔ a ∈ env'.ancestors x .ofInstance) ∧
      ∀ method, (env.findMethod? x method .ofInstance).isSome
        = (env'.findMethod? x method .ofInstance).isSome := by
  have more : ∀ x, env.ancestors x .ofInstance ⊆ env'.ancestors x .ofInstance := fun x =>
    Environment.ancestors_subset h.sameHeads (fun x y => (h.mixes_iff_of_resolved he hresolved x y).mp)
      (h.withinDepth hdepth x)
  refine ⟨fun a => ⟨fun ha => more x ha, fun ha => h.ancestors_subset hdepth x ha⟩, fun method => ?_⟩
  exact Bool.eq_iff_iff.mpr
    ⟨findMethod?_of_subset h.sameMethods more, h.findMethod?_subset hdepth⟩

end PrependsInstead

end Environment

end RbsSynth
