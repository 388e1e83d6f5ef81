import Mathlib.Data.List.Forall2
import RbsSynth.Environment.Methods

/-!
# Environments that answer alike

Queries find things by name, and read an entry's declarations for its superclass only; the number of
entries and of method aliases bounds their walks.  Environments that are the same in this (`SameReads`)
give the same answers, among them those whose entries stand in the same order, under the same names,
with the same kinds, members and superclasses, and which agree on all else (`Alike`):

    env.SameReads env' → SameLookups env env'                               (SameReads.sameLookups)
    env.Alike env' → env.SameReads env'                                           (Alike.sameReads)
-/

namespace RbsSynth

open Signature

/-- Two entries that differ at most in how their members are spread over declarations. -/
structure ModuleEntry.Alike (e e' : ModuleEntry) : Prop where
  name : e.name = e'.name
  kind : e.kind = e'.kind
  superclass : e.superclass? = e'.superclass?
  members : e.members = e'.members

/-- Two entries of one name, kind and superclass. -/
structure ModuleEntry.SameHead (e e' : ModuleEntry) : Prop where
  name : e.name = e'.name
  kind : e.kind = e'.kind
  superclass : e.superclass? = e'.superclass?

/-- Two lists of entries that are alike, one by one. -/
abbrev AlikeEntries : Index ModuleEntry → Index ModuleEntry → Prop :=
  List.Forall₂ fun p q => p.1 = q.1 ∧ p.2.Alike q.2

namespace Environment

structure Alike (env env' : Environment) : Prop where
  marker : env.marker = env'.marker
  modules : AlikeEntries env.modules env'.modules
  aliases : env.aliases = env'.aliases
  constants : env.constants = env'.constants
  globals : env.globals = env'.globals
  sources : env.sources = env'.sources

/-- The same names are declared in two environments, with the same kinds and superclasses. -/
structure SameHeads (env env' : Environment) : Prop where
  entry?_cases : ∀ name, (env.entry? name = none ∧ env'.entry? name = none) ∨
    ∃ e e', env.entry? name = some e ∧ env'.entry? name = some e' ∧ e.SameHead e'
  constants : ∀ name, env.constants.find? name = env'.constants.find? name

/-- What queries read of two environments is the same. -/
structure SameReads (env env' : Environment) : Prop where
  marker : env.marker = env'.marker
  entry?_cases : ∀ name, (env.entry? name = none ∧ env'.entry? name = none) ∨
    ∃ e e', env.entry? name = some e ∧ env'.entry? name = some e' ∧ e.Alike e'
  aliases : ∀ name, env.aliases.find? name = env'.aliases.find? name
  constants : ∀ name, env.constants.find? name = env'.constants.find? name
  globals : ∀ name, env.globals.find? name = env'.globals.find? name
  entries : env.modules.length = env'.modules.length
  aliasTargets : env.aliasTargets.length = env'.aliasTargets.length

/-- The queries about methods, ancestors and names are answered alike. -/
structure SameLookups (env env' : Environment) : Prop where
  findMethod : ∀ name method side, env.findMethod? name method side = env'.findMethod? name method side
  ancestors : ∀ name side, env.ancestors name side = env'.ancestors name side
  superclass : ∀ name, env.superclassOf? name = env'.superclassOf? name
  resolveConstant : ∀ n nesting, env.resolveConstant? n nesting = env'.resolveConstant? n nesting
  resolveAlias : ∀ n nesting, env.resolveAlias? n nesting = env'.resolveAlias? n nesting
  constantType : ∀ name, env.constantType? name = env'.constantType? name
  globalType : ∀ name, env.globalType? name = env'.globalType? name

end Environment

/-! ## Entries -/

theorem ModuleEntry.SameHead.context_eq {e e' : ModuleEntry} (h : e.SameHead e') :
    e.context = e'.context := by
  unfold ModuleEntry.context
  rw [h.name]

namespace ModuleEntry.Alike

variable {e e' : ModuleEntry} (h : e.Alike e')

include h

theorem head : e.SameHead e' := ⟨h.name, h.kind, h.superclass⟩

theorem context_eq : e.context = e'.context := h.head.context_eq

theorem mixins_eq (kind : MixinKind) : e.mixins kind = e'.mixins kind := by
  unfold ModuleEntry.mixins
  rw [h.members]

theorem records_eq (marker : Marker) (side : Side) (method : String) :
    e.records marker side method = e'.records marker side method := by
  unfold ModuleEntry.records
  rw [h.members]

theorem methodAliases_eq (side : Side) : e.methodAliases side = e'.methodAliases side := by
  unfold ModuleEntry.methodAliases
  rw [h.members]

theorem methodEntry_eq (side : Side) (method : String) (records : List MethodRecord) :
    e.methodEntry side method records = e'.methodEntry side method records := by
  unfold ModuleEntry.methodEntry
  rw [h.name, h.context_eq]

end ModuleEntry.Alike

theorem ModuleEntry.Alike.refl (e : ModuleEntry) : e.Alike e := ⟨rfl, rfl, rfl, rfl⟩

theorem ModuleEntry.Alike.trans {e f g : ModuleEntry} (h : e.Alike f) (h' : f.Alike g) : e.Alike g :=
  ⟨h.name.trans h'.name, h.kind.trans h'.kind, h.superclass.trans h'.superclass,
    h.members.trans h'.members⟩

/-- A name has alike entries in both lists, or none. -/
theorem AlikeEntries.find? {ms ms' : Index ModuleEntry} (h : AlikeEntries ms ms') (name : String) :
    (ms.find? name = none ∧ ms'.find? name = none) ∨
      ∃ e e', ms.find? name = some e ∧ ms'.find? name = some e' ∧ e.Alike e' := by
  induction h with
  | nil => exact .inl ⟨rfl, rfl⟩
  | @cons p q _ _ hpq _ ih =>
    obtain ⟨n, e⟩ := p
    obtain ⟨m, e'⟩ := q
    obtain ⟨rfl, he⟩ := hpq
    rw [Index.find?, Index.find?]
    split
    · exact .inr ⟨e, e', rfl, rfl, he⟩
    · exact ih

namespace Environment

theorem Alike.refl (env : Environment) : env.Alike env :=
  ⟨rfl, List.forall₂_same.mpr fun p _ => ⟨rfl, .refl p.2⟩, rfl, rfl, rfl, rfl⟩

theorem Alike.trans {env env' env'' : Environment} (h : env.Alike env') (h' : env'.Alike env'') :
    env.Alike env'' where
  marker := h.marker.trans h'.marker
  modules := by
    have htrans : ∀ {ms ms' ms'' : Index ModuleEntry}, AlikeEntries ms ms' → AlikeEntries ms' ms'' →
        AlikeEntries ms ms'' := by
      intro ms ms' ms'' h
      induction h generalizing ms'' with
      | nil => exact id
      | cons hp _ ih =>
        intro h'
        cases h' with
        | cons hq h' => exact .cons ⟨hp.1.trans hq.1, hp.2.trans hq.2⟩ (ih h')
    exact htrans h.modules h'.modules
  aliases := h.aliases.trans h'.aliases
  constants := h.constants.trans h'.constants
  globals := h.globals.trans h'.globals
  sources := h.sources.trans h'.sources

/-! ## Names -/

section

variable {env env' : Environment} (h : env.SameHeads env')

include h

theorem SameHeads.hasModule_eq (name : String) : env.hasModule name = env'.hasModule name := by
  show (env.entry? name).isSome = (env'.entry? name).isSome
  rcases h.entry?_cases name with ⟨hn, hn'⟩ | ⟨e, e', hs, hs', _⟩
  · rw [hn, hn']
  · rw [hs, hs']
    rfl

theorem SameHeads.kindOf?_eq (name : String) : env.kindOf? name = env'.kindOf? name := by
  show (env.entry? name).map (·.kind) = (env'.entry? name).map (·.kind)
  rcases h.entry?_cases name with ⟨hn, hn'⟩ | ⟨e, e', hs, hs', he⟩
  · rw [hn, hn']
  · rw [hs, hs']
    exact congrArg some he.kind

theorem SameHeads.resolveConstant?_eq (n : TypeName) (nesting : List String) :
    env.resolveConstant? n nesting = env'.resolveConstant? n nesting := by
  unfold resolveConstant?
  congr 1
  funext c
  show (env.hasModule c || (env.constants.find? c).isSome) = _
  rw [h.hasModule_eq, h.constants]
  rfl

theorem SameHeads.superclassOf?_eq (name : String) :
    env.superclassOf? name = env'.superclassOf? name := by
  unfold superclassOf?
  rcases h.entry?_cases name with ⟨hn, hn'⟩ | ⟨e, e', hs, hs', he⟩
  · rw [hn, hn']
  · simp only [hs, hs', he.kind, he.superclass, he.context_eq, h.resolveConstant?_eq, h.hasModule_eq]

theorem SameHeads.resolvePrepended?_eq {e e' : ModuleEntry} (he : e.SameHead e') :
    env.resolvePrepended? e = env'.resolvePrepended? e' := by
  funext n
  unfold resolvePrepended?
  rw [he.context_eq, h.resolveConstant?_eq]

theorem SameHeads.resolveMixin?_eq {e e' : ModuleEntry} (he : e.SameHead e') :
    env.resolveMixin? e = env'.resolveMixin? e' := by
  funext n
  unfold resolveMixin?
  rw [he.context_eq, h.resolveConstant?_eq, h.resolveConstant?_eq]

end

section

variable {env env' : Environment} (h : env.SameReads env')

include h

theorem SameReads.heads : env.SameHeads env' where
  entry?_cases name := (h.entry?_cases name).imp_right fun ⟨e, e', hs, hs', he⟩ =>
    ⟨e, e', hs, hs', he.head⟩
  constants := h.constants

theorem SameReads.resolveAlias?_eq (n : TypeName) (nesting : List String) :
    env.resolveAlias? n nesting = env'.resolveAlias? n nesting := by
  unfold resolveAlias?
  rw [funext h.aliases]

theorem SameReads.reaches_eq (ancestor : String) (n : Nat) :
    env.reaches ancestor n = env'.reaches ancestor n := by
  induction n with
  | zero => rfl
  | succ n ih =>
    funext seen current
    rw [reaches, reaches, ih, h.heads.superclassOf?_eq]

theorem SameReads.isSubclass_eq (name ancestor : String) :
    env.isSubclass name ancestor = env'.isSubclass name ancestor := by
  unfold isSubclass
  rw [h.entries, h.reaches_eq]

/-! ## Ancestors -/

theorem SameReads.prepended_eq {e e' : ModuleEntry} (he : e.Alike e') :
    env.prepended e = env'.prepended e' := by
  unfold prepended
  rw [he.mixins_eq, h.heads.resolvePrepended?_eq he.head]

theorem SameReads.included_eq {e e' : ModuleEntry} (he : e.Alike e') :
    env.included e = env'.included e' := by
  unfold included
  rw [he.mixins_eq, h.heads.resolveMixin?_eq he.head]

theorem SameReads.extended_eq {e e' : ModuleEntry} (he : e.Alike e') :
    env.extended e = env'.extended e' := by
  unfold extended
  rw [he.mixins_eq, h.heads.resolveMixin?_eq he.head]

theorem SameReads.addSide_eq (n : Nat) : env.addSide n = env'.addSide n := by
  induction n with
  | zero =>
    funext name found
    rw [addSide, addSide]
  | succ n ih =>
    funext name found
    rw [addSide, addSide]
    rcases h.entry?_cases name with ⟨hn, hn'⟩ | ⟨e, e', hs, hs', he⟩
    · rw [hn, hn']
    · simp only [hs, hs', ih, h.prepended_eq he, h.included_eq he]

theorem SameReads.addChain_eq (n : Nat) : env.addChain n = env'.addChain n := by
  induction n with
  | zero =>
    funext name found
    rw [addChain, addChain]
  | succ n ih =>
    funext name found
    cases name with
    | none => rfl
    | some name => rw [addChain, addChain, ih, h.heads.superclassOf?_eq, h.addSide_eq]

theorem SameReads.addSingletons_eq (n : Nat) : env.addSingletons n = env'.addSingletons n := by
  induction n with
  | zero =>
    funext name found
    rw [addSingletons, addSingletons]
  | succ n ih =>
    funext name found
    cases name with
    | none => rfl
    | some name =>
      rw [addSingletons, addSingletons]
      rcases h.entry?_cases name with ⟨hn, hn'⟩ | ⟨e, e', hs, hs', he⟩
      · rw [hn, hn']
      · simp only [hs, hs', ih, h.extended_eq he, h.heads.superclassOf?_eq, h.addSide_eq]

theorem SameReads.ancestors_eq (name : String) (side : Side) :
    env.ancestors name side = env'.ancestors name side := by
  unfold ancestors
  rcases h.entry?_cases name with ⟨hn, hn'⟩ | ⟨e, e', hs, hs', he⟩
  · rw [hn, hn']
  · simp only [hs, hs', he.kind, addSideAt, h.addChain_eq, h.addSide_eq, h.addSingletons_eq]

/-! ## Methods -/

theorem SameReads.searchAlong_eq (follow : Lookup → List Lookup → Option MethodEntry × List Lookup)
    (method : String) (as : List Ancestor) (begun : List Lookup) :
    env.searchAlong follow method as begun = env'.searchAlong follow method as begun := by
  induction as generalizing begun with
  | nil => rfl
  | cons a as ih =>
    rw [searchAlong, searchAlong]
    rcases h.entry?_cases a.name with ⟨hn, hn'⟩ | ⟨e, e', hs, hs', he⟩
    · simp only [hn, hn', ih]
    · simp only [hs, hs', he.records_eq, he.methodAliases_eq, he.methodEntry_eq, h.marker, ih]

theorem SameReads.search_eq (n : Nat) : env.search n = env'.search n := by
  induction n with
  | zero =>
    funext l begun
    rw [search, search]
  | succ n ih =>
    funext l begun
    rw [search, search, ih, h.ancestors_eq, h.searchAlong_eq]

/-- **Environments that read the same answer alike.** -/
theorem SameReads.sameLookups : SameLookups env env' where
  findMethod name method side := by
    unfold findMethod? lookupBound
    rw [h.search_eq, h.aliasTargets, h.entries]
  ancestors := h.ancestors_eq
  superclass := h.heads.superclassOf?_eq
  resolveConstant := h.heads.resolveConstant?_eq
  resolveAlias := h.resolveAlias?_eq
  constantType name := congrArg (Option.map _) (h.constants name)
  globalType name := congrArg (Option.map _) (h.globals name)

end

/-! ## Alike environments -/

theorem Alike.aliasTargets_eq {env env' : Environment} (h : env.Alike env') :
    env.aliasTargets = env'.aliasTargets := by
  have hm := h.modules
  unfold Environment.aliasTargets
  generalize env.modules = ms, env'.modules = ms' at hm
  induction hm with
  | nil => rfl
  | @cons p q _ _ hp _ ih =>
    obtain ⟨n, e⟩ := p
    obtain ⟨n', e'⟩ := q
    have hmembers : e.members = e'.members := hp.2.members
    rw [List.flatMap_cons, List.flatMap_cons, ih]
    simp only [hmembers]

theorem Alike.sameReads {env env' : Environment} (h : env.Alike env') : env.SameReads env' where
  marker := h.marker
  entry?_cases := h.modules.find?
  aliases name := by rw [h.aliases]
  constants name := by rw [h.constants]
  globals name := by rw [h.globals]
  entries := h.modules.length_eq
  aliasTargets := congrArg List.length h.aliasTargets_eq

end Environment

end RbsSynth
