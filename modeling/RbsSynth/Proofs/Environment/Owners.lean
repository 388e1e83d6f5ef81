import RbsSynth.Proofs.Environment.Additions
import RbsSynth.Proofs.Environment.Lookups

/-!
# Who owns what a lookup finds

Entries stand under their own names along every run (`keyed_addAll`), so what a lookup finds is owned by
an ancestor, and is recorded there.  It is an ancestor of the lookup that aliases led to: an alias is
followed from the ancestor that has it, and the ancestors of that need not be ancestors of the first
name.  They are if the ancestors are `Closed`; those of instances are if they have the superclasses of
ancestors, and `Object` if a module is among them                                        (closed_iff)

A module has `Object` among its ancestors, so an alias in it may leave those of a class that is no
`Object`; `strayAlias_leaves_ancestors` has such a class.
-/

namespace RbsSynth.Environment

open Relation (ReflTransGen)
open Signature

/-! ## Names of entries -/

/-- Entries stand under their own names. -/
def Keyed (env : Environment) : Prop := ∀ name e, env.entry? name = some e → e.name = name

variable {env : Environment}

theorem Keyed.perform (h : env.Keyed) (w : Write) : (w.perform env).Keyed := by
  intro name e he
  rw [entryOf_perform] at he
  unfold Write.changed at he
  cases w with
  | entry r =>
    dsimp only at he
    split at he
    · next hname =>
      cases hold : env.entry? name with
      | none =>
        rw [hold] at he
        rw [← Option.some.inj he]
        exact hname
      | some old =>
        rw [hold] at he
        rw [← Option.some.inj he]
        exact h name old hold
    · exact h name e he
  | member here m =>
    dsimp only at he
    split at he
    · obtain ⟨old, hold, rfl⟩ := Option.map_eq_some_iff.mp he
      exact h name old hold
    · exact h name e he
  | _ => exact h name e he

theorem Keyed.foldl (h : env.Keyed) (ws : List Write) : (ws.foldl Write.perform env).Keyed :=
  List.foldlRecOn ws _ h fun _ hk w _ => hk.perform w

/-- Each addition keeps entries under their own names, and so does every run. -/
theorem keyed_addAll (h : env.Keyed) (additions : List Addition) : (env.addAll additions).1.Keyed := by
  induction additions generalizing env with
  | nil => exact h
  | cons a rest ih =>
    rw [addAll]
    split
    · exact ih h
    · next env' ds hp =>
      obtain ⟨source, hadd⟩ := perform_ok hp
      rw [addDeclarations_eq] at hadd
      split at hadd
      · cases hadd
      · cases hadd
        exact ih (h.foldl (batchWrites ds))

/-! ## Owners -/

theorem foldl_extend (rs : List MethodRecord) (m : MethodEntry) :
    (rs.foldl MethodRecord.extend m).owner = m.owner ∧
      (rs.foldl MethodRecord.extend m).name = m.name ∧
      (rs.foldl MethodRecord.extend m).side = m.side := by
  induction rs generalizing m with
  | nil => exact ⟨rfl, rfl, rfl⟩
  | cons r rs ih => exact ih (r.extend m)

/-- What a lookup finds at an ancestor is owned by it and recorded there. -/
theorem Defines.owned {l : Lookup} {m : MethodEntry} (h : env.Defines l m) (hk : env.Keyed) :
    l.method = m.name ∧ ⟨m.owner, m.side⟩ ∈ env.ancestors l.name l.side ∧
      ∃ e, env.entry? m.owner = some e ∧ e.records env.marker m.side m.name ≠ [] := by
  obtain ⟨a, ha, e, he, hr, rfl⟩ := h
  obtain ⟨howner, hname, hside⟩ := foldl_extend
    (MethodRecord.current (e.records env.marker a.side l.method))
    ⟨e.name, l.method, a.side, [], [], [], e.context⟩
  have hkey : e.name = a.name := hk a.name e he
  unfold ModuleEntry.methodEntry
  rw [howner, hname, hside, hkey]
  exact ⟨rfl, ha, e, he, hr⟩

/-! ## Ancestors of ancestors -/

/-- The ancestors of ancestors are ancestors. -/
def Closed (env : Environment) (name : String) (side : Side) : Prop :=
  ∀ a ∈ env.ancestors name side, env.ancestors a.name a.side ⊆ env.ancestors name side

/-- Where they are, aliases do not leave them. -/
theorem Closed.ancestors_subset {l l' : Lookup} (h : env.Closed l.name l.side)
    (hl : ReflTransGen env.Leads l l') :
    env.ancestors l'.name l'.side ⊆ env.ancestors l.name l.side := by
  induction hl with
  | refl => exact List.Subset.refl _
  | tail _ hlead ih =>
    obtain ⟨a, ha, _, _, _, _, rfl⟩ := hlead
    exact h a (ih ha)

/-- A superclass is an ancestor. -/
theorem superclass_mem_ancestors {m s : String} (h : env.superclassOf? m = some s)
    (hs : env.hasModule s = true) : ⟨s, .ofInstance⟩ ∈ env.ancestors m .ofInstance := by
  obtain ⟨e, he⟩ := exists_entry (class_of_superclassOf? h).1
  refine (prefix_ancestors he).subset ?_
  rw [addChain, h, depthLimit, addChain]
  exact (prefix_addChain _ _ _).subset (mem_addSide_self hs _ _)

/-- `Object` is an ancestor of a module. -/
theorem object_mem_ancestors {m : String} (h : env.kindOf? m = some .ofModule)
    (hobject : env.hasModule "Object" = true) :
    ⟨"Object", .ofInstance⟩ ∈ env.ancestors m .ofInstance := by
  obtain ⟨e, he, _⟩ := Option.map_eq_some_iff.mp h
  rw [ancestors_instance he, if_pos h]
  exact mem_addSide_self hobject _ _

/-- **When the ancestors of instances are closed**: when they have the superclasses of ancestors, and
`Object` if a module is among them. -/
theorem closed_iff {name : String} (h : env.WithinDepth name) :
    env.Closed name .ofInstance ↔ ∀ m, ⟨m, .ofInstance⟩ ∈ env.ancestors name .ofInstance →
      (∀ s, env.superclassOf? m = some s → env.hasModule s = true →
        ⟨s, .ofInstance⟩ ∈ env.ancestors name .ofInstance) ∧
      (env.kindOf? m = some .ofModule → env.hasModule "Object" = true →
        ⟨"Object", .ofInstance⟩ ∈ env.ancestors name .ofInstance) := by
  constructor
  · intro hclosed m hm
    exact ⟨fun s hs hmodule => hclosed _ hm (superclass_mem_ancestors hs hmodule),
      fun hkind hobject => hclosed _ hm (object_mem_ancestors hkind hobject)⟩
  · intro hstep
    have up : ∀ i m c, ⟨m, .ofInstance⟩ ∈ env.ancestors name .ofInstance →
        env.lineage? i m = some c → env.hasModule c = true →
        ⟨c, .ofInstance⟩ ∈ env.ancestors name .ofInstance := by
      intro i
      induction i with
      | zero =>
        intro m c hm hc _
        rwa [← Option.some.inj hc]
      | succ i ih =>
        intro m c hm hc hmodule
        obtain ⟨s, hs, hc⟩ := Option.bind_eq_some_iff.mp hc
        have hsmodule : env.hasModule s = true := by
          cases he : env.entry? s with
          | some e => exact hasModule_of_entry he
          | none => rwa [eq_of_lineage? he hc] at hmodule
        exact ih s c ((hstep m hm).1 s hs hsmodule) hc hmodule
    intro a ha b hb
    obtain ⟨m, rfl, -, -⟩ := mem_ancestors ha
    obtain ⟨y, rfl, hy, hreach⟩ := mem_ancestors hb
    have along : ∀ x, ⟨x, .ofInstance⟩ ∈ env.ancestors name .ofInstance → env.Mixed x y →
        ⟨y, .ofInstance⟩ ∈ env.ancestors name .ofInstance := fun x hx hxy =>
      (mem_ancestors_iff h y).mpr ⟨hy, ((mem_ancestors_iff h x).mp hx).2.mixed hxy⟩
    rcases hreach with ⟨i, c, hc, hcy⟩ | ⟨hkind, hoy⟩
    · exact along c (up i m c ha hc (hasModule_of_mixed hcy hy)) hcy
    · exact along "Object" ((hstep m ha).2 hkind (hasModule_of_mixed hoy hy)) hoy

/-! ## Top theorem -/

/-- **What a lookup finds is recorded at its owner.**  After every run, a method that a lookup finds is
recorded under its name and side at its owner, which is an ancestor of a lookup that aliases led to, and
of the first one if the ancestors of that are closed. -/
theorem findMethod?_owner (marker : Marker) (additions : List Addition) {name method : String}
    {side : Side} {m : MethodEntry} :
    let env := (addAll { marker := marker } additions).1
    env.findMethod? name method side = some m →
      (∃ e, env.entry? m.owner = some e ∧ e.records env.marker m.side m.name ≠ []) ∧
      (∃ l, ReflTransGen env.Leads ⟨name, method, side⟩ l ∧ l.method = m.name ∧
        ⟨m.owner, m.side⟩ ∈ env.ancestors l.name l.side) ∧
      (env.Closed name side → ⟨m.owner, m.side⟩ ∈ env.ancestors name side) := by
  intro env hfound
  have hempty : Keyed { marker := marker } := fun _ _ he => by cases he
  obtain ⟨l, hl, hdefines⟩ := exists_leads_of_findMethod? hfound
  obtain ⟨hmethod, howner, hrecorded⟩ := hdefines.owned (keyed_addAll hempty additions)
  exact ⟨hrecorded, ⟨l, hl, hmethod, howner⟩, fun hclosed => hclosed.ancestors_subset hl howner⟩

/-! ## Two texts -/

instance (env : Environment) (name : String) (side : Side) : Decidable (env.Closed name side) :=
  inferInstanceAs (Decidable (∀ a ∈ env.ancestors name side, ∀ b ∈ _, b ∈ _))

/-- A class with an alias of an alias of a method, both of them in an included module. -/
def aliasedText : String :=
  "class Object
end
class A
  include M
  alias foo bar
end
"
    ++ "module M
  alias bar baz
  def baz: () -> void
end
"

theorem findMethod?_owner_aliased :
    let env := (addAll { marker := ⟨"siggen:", by decide⟩ } [.signature aliasedText "a.rbs"]).1
    env.Closed "A" .ofInstance ∧ ∃ m, env.findMethod? "A" "foo" .ofInstance = some m ∧
      m.owner = "M" ∧ m.name = "baz" ∧ ⟨m.owner, m.side⟩ ∈ env.ancestors "A" .ofInstance := by
  intro env
  obtain ⟨hclosed, hfound⟩ : env.Closed "A" .ofInstance ∧
      (env.findMethod? "A" "foo" .ofInstance).map (fun m => (m.owner, m.name)) = some ("M", "baz") := by
    decide +kernel
  obtain ⟨m, hm, hnames⟩ := Option.map_eq_some_iff.mp hfound
  obtain ⟨howner, hname⟩ := Prod.mk.inj hnames
  exact ⟨hclosed, m, hm, howner, hname,
    (findMethod?_owner ⟨"siggen:", by decide⟩ [.signature aliasedText "a.rbs"] hm).2.2 hclosed⟩

/-- A class that is no `Object` includes a module with an alias of a method of `Object`. -/
def strayAlias : String :=
  "class BasicObject
end
class Object
  def to_s: () -> String
end
"
    ++ "class A < BasicObject
  include M
end
module M
  alias foo to_s
end
"

/-- The alias is found, and its owner is no ancestor of the class. -/
theorem strayAlias_leaves_ancestors :
    ∃ env ds, addSignature { marker := ⟨"siggen:", by decide⟩ } strayAlias = .ok (env, ds) ∧
      ∃ m, env.findMethod? "A" "foo" .ofInstance = some m ∧
        ⟨m.owner, m.side⟩ ∉ env.ancestors "A" .ofInstance := by
  obtain ⟨env, ds, hadd, hfound, hstray⟩ := exists_added strayAlias
    (P := fun env => (env.findMethod? "A" "foo" .ofInstance).map
        (fun m => (⟨m.owner, m.side⟩ : Ancestor)) = some ⟨"Object", .ofInstance⟩ ∧
      ⟨"Object", .ofInstance⟩ ∉ env.ancestors "A" .ofInstance) (by decide +kernel)
  obtain ⟨m, hm, howner⟩ := Option.map_eq_some_iff.mp hfound
  exact ⟨env, ds, hadd, m, hm, by rwa [howner]⟩

end RbsSynth.Environment
