import Mathlib.Data.List.TakeWhile
import RbsSynth.Proofs.Environment.Owners
import RbsSynth.Signature.TypeText

/-!
# Methods defined several times

A method may be defined by many members of a class, in one body, in reopenings of the class and in texts
added later.  `definitions marker name side method ds` lists them in the order in which they are written.
What is known of the method is their fold from the left (`describe`): a full definition replaces
everything so far; one that overloads (`...`) puts its overloads in front and its templates and
annotations behind.  After every run

    env.findMethod? … = some m → m.description = describe (definitions … m.owner m.side m.name …)
                                                                              (description_of_findMethod?)

though a lookup looks for the last full definition first and begins there.  Reopenings and texts are
gone from the definitions, so how they are split does not matter (`definitions_reopened`).
-/

namespace RbsSynth

open Signature

/-! ## The fold -/

/-- What is known of a method, but for where it is. -/
structure Description where
  overloads : List MethodType := []
  templates : List String := []
  annotations : List String := []

namespace Description

/-- One more definition. -/
def define (d : Description) (r : MethodRecord) : Description :=
  if r.overloading then
    ⟨r.overloads ++ d.overloads, d.templates ++ r.templates, d.annotations ++ r.annotations⟩
  else ⟨r.overloads, r.templates, r.annotations⟩

end Description

def describe (rs : List MethodRecord) : Description := rs.foldl Description.define {}

def MethodEntry.description (m : MethodEntry) : Description := ⟨m.overloads, m.templates, m.annotations⟩

/-- Nothing before a full definition is visible. -/
theorem describe_full (before : List MethodRecord) {full : MethodRecord} (h : full.overloading = false)
    (after : List MethodRecord) : describe (before ++ full :: after) = describe (full :: after) := by
  have replaces : ∀ d : Description,
      d.define full = ⟨full.overloads, full.templates, full.annotations⟩ := by
    intro d
    rw [Description.define, if_neg (by rw [h]; exact Bool.false_ne_true)]
  rw [describe, describe, List.foldl_append, List.foldl_cons, List.foldl_cons, replaces, replaces]

/-- What overloads behind a definition: later overloads are in front, the rest is in order. -/
theorem foldl_define_overloading (d : Description) {rs : List MethodRecord}
    (h : ∀ r ∈ rs, r.overloading = true) :
    rs.foldl Description.define d =
      ⟨rs.reverse.flatMap (·.overloads) ++ d.overloads, d.templates ++ rs.flatMap (·.templates),
        d.annotations ++ rs.flatMap (·.annotations)⟩ := by
  induction rs generalizing d with
  | nil => simp
  | cons r rs ih =>
    obtain ⟨hr, hrs⟩ := List.forall_mem_cons.mp h
    rw [List.foldl_cons, ih _ hrs, Description.define, if_pos hr]
    simp

/-- The last full definition and what overloads it, in closed form. -/
theorem describe_last_full (before : List MethodRecord) {full : MethodRecord}
    (hfull : full.overloading = false) {after : List MethodRecord}
    (h : ∀ r ∈ after, r.overloading = true) :
    describe (before ++ full :: after) =
      ⟨after.reverse.flatMap (·.overloads) ++ full.overloads,
        full.templates ++ after.flatMap (·.templates),
        full.annotations ++ after.flatMap (·.annotations)⟩ := by
  rw [describe_full before hfull, describe, List.foldl_cons, foldl_define_overloading _ h,
    Description.define, if_neg (by rw [hfull]; exact Bool.false_ne_true)]

/-! ## Where a lookup begins -/

/-- The current records are all records, or the last full one and those behind it. -/
theorem current_cases (rs : List MethodRecord) :
    ((∀ r ∈ rs, r.overloading = true) ∧ MethodRecord.current rs = rs) ∨
      ∃ before full after, rs = before ++ full :: after ∧ full.overloading = false ∧
        (∀ r ∈ after, r.overloading = true) ∧ MethodRecord.current rs = full :: after := by
  have hsplit : rs = (rs.reverse.dropWhile (·.overloading)).reverse
      ++ (rs.reverse.takeWhile (·.overloading)).reverse := by
    rw [← List.reverse_append, List.takeWhile_append_dropWhile, List.reverse_reverse]
  have hafter : ∀ r ∈ (rs.reverse.takeWhile (·.overloading)).reverse, r.overloading = true :=
    fun r hr => List.mem_takeWhile_imp (List.mem_reverse.mp hr)
  have hdrop : rs.reverse.drop (rs.reverse.takeWhile (·.overloading)).reverse.length
      = rs.reverse.dropWhile (·.overloading) := by
    rw [List.length_reverse]
    conv_lhs => arg 2; rw [← List.takeWhile_append_dropWhile (p := (·.overloading)) (l := rs.reverse)]
    exact List.drop_left
  rw [MethodRecord.current, hdrop]
  cases hback : rs.reverse.dropWhile (·.overloading) with
  | nil =>
    rw [hback, List.reverse_nil, List.nil_append] at hsplit
    exact .inl ⟨hsplit ▸ hafter, hsplit.symm⟩
  | cons full before =>
    refine .inr ⟨before.reverse, full, _, ?_, ?_, hafter, rfl⟩
    · rw [hback, List.reverse_cons, List.append_assoc] at hsplit
      exact hsplit
    · have hne : rs.reverse.dropWhile (·.overloading) ≠ [] := hback ▸ List.cons_ne_nil full before
      have hhead := List.head_dropWhile_not (fun r : MethodRecord => r.overloading) hne
      simpa only [hback, List.head_cons] using hhead

theorem description_foldl_extend {rs : List MethodRecord} (h : ∀ r ∈ rs, r.overloading = true)
    (m : MethodEntry) :
    (rs.foldl MethodRecord.extend m).description = rs.foldl Description.define m.description := by
  induction rs generalizing m with
  | nil => rfl
  | cons r rs ih =>
    obtain ⟨hr, hrs⟩ := List.forall_mem_cons.mp h
    rw [List.foldl_cons, List.foldl_cons, ih hrs]
    congr 1
    rw [MethodRecord.extend, Description.define, if_pos hr, if_pos hr]
    rfl

/-- The entry that some records make has what their fold describes. -/
theorem description_methodEntry (e : ModuleEntry) (side : Side) (method : String)
    (rs : List MethodRecord) : (e.methodEntry side method rs).description = describe rs := by
  rw [ModuleEntry.methodEntry]
  rcases current_cases rs with ⟨hall, hcurrent⟩ | ⟨before, full, after, rfl, hfull, hall, hcurrent⟩
  · rw [hcurrent, description_foldl_extend hall]
    rfl
  · rw [hcurrent, List.foldl_cons, description_foldl_extend hall, describe_full before hfull, describe,
      List.foldl_cons]
    congr 1
    have hnot : ¬ full.overloading = true := by
      rw [hfull]
      exact Bool.false_ne_true
    rw [MethodRecord.extend, Description.define, if_neg hnot, if_neg hnot]
    rfl

namespace Environment

/-! ## Definitions -/

/-- The members that some declarations give a class, module or interface, in every body of it. -/
def membersOf (name : String) (ds : List Declaration) : List Member :=
  (batchWrites ds).filterMap (Write.memberOf? name)

/-- The definitions of a method on one side of a class, module or interface, as written. -/
def definitions (marker : Marker) (name : String) (side : Side) (method : String)
    (ds : List Declaration) : List MethodRecord :=
  ((membersOf name ds).flatMap (MethodRecord.ofMember marker side)).filter (·.name == method)

theorem membersOf_append (name : String) (ds ds' : List Declaration) :
    membersOf name (ds ++ ds') = membersOf name ds ++ membersOf name ds' := by
  rw [membersOf, batchWrites, List.flatMap_append, List.filterMap_append]
  rfl

/-- What a declaration itself writes is no member. -/
theorem membersOf_nestable (name : String) (d : Nestable) :
    membersOf name [.nestable d]
      = (Member.writesAll d.name.qualified d.members).filterMap (Write.memberOf? name) := by
  have hwrites : batchWrites [.nestable d] = d.writes none := List.flatMap_singleton _ _
  have hown : (d.write none).memberOf? name = none := by cases d <;> rfl
  rw [membersOf, hwrites, Nestable.writes_eq, List.filterMap_cons, hown]
  rfl

/-- A body may be cut in two, the second in a reopening. -/
theorem membersOf_reopened (name : String) {d e f : Nestable} (he : e.name = d.name)
    (hf : f.name = d.name) (h : d.members = e.members ++ f.members) :
    membersOf name [.nestable d] = membersOf name [.nestable e, .nestable f] := by
  have hcons : ([.nestable e, .nestable f] : List Declaration) = [.nestable e] ++ [.nestable f] := rfl
  rw [hcons, membersOf_append, membersOf_nestable, membersOf_nestable, membersOf_nestable, he, hf, h,
    Member.writesAll_eq, Member.writesAll_eq, Member.writesAll_eq, List.flatMap_append,
    List.filterMap_append]

theorem definitions_reopened (marker : Marker) (name : String) (side : Side) (method : String)
    (before after : List Declaration) {d e f : Nestable} (he : e.name = d.name) (hf : f.name = d.name)
    (h : d.members = e.members ++ f.members) :
    definitions marker name side method (before ++ .nestable d :: after)
      = definitions marker name side method (before ++ .nestable e :: .nestable f :: after) := by
  have hone : before ++ .nestable d :: after = before ++ ([.nestable d] ++ after) := rfl
  have htwo : before ++ .nestable e :: .nestable f :: after
      = before ++ ([.nestable e, .nestable f] ++ after) := rfl
  rw [definitions, definitions, hone, htwo, membersOf_append, membersOf_append, membersOf_append,
    membersOf_append, membersOf_reopened name he hf h]

/-! ## Runs -/

/-- A run leaves the members of all batches it accepts, and the marker as it was. -/
theorem ownMembers_addAll (env : Environment) (additions : List Addition) (name : String) :
    (env.addAll additions).1.ownMembers name
        = env.ownMembers name ++ membersOf name (env.addAll additions).2.flatten ∧
      (env.addAll additions).1.marker = env.marker := by
  induction additions generalizing env with
  | nil => exact ⟨(List.append_nil _).symm, rfl⟩
  | cons a rest ih =>
    rw [addAll]
    split
    · exact ih env
    · next env' ds hp =>
      obtain ⟨source, hadd⟩ := perform_ok hp
      rw [addDeclarations_eq] at hadd
      split at hadd
      · cases hadd
      · have holds := holds_withBatch env ds source
        rw [Except.ok.inj hadd] at holds
        obtain ⟨hmembers, hmarker⟩ := ih env'
        refine ⟨?_, hmarker.trans holds.marker⟩
        rw [hmembers, holds.members, List.flatten_cons, membersOf_append, List.append_assoc]
        rfl

/-- The records of an entry are the definitions in the accepted batches. -/
theorem records_addAll (marker : Marker) (additions : List Addition) {name : String} {e : ModuleEntry}
    (he : entry? (addAll { marker := marker } additions).1 name = some e) (side : Side)
    (method : String) :
    e.records (addAll { marker := marker } additions).1.marker side method
      = definitions marker name side method (addAll { marker := marker } additions).2.flatten := by
  obtain ⟨hmembers, hmarker⟩ := ownMembers_addAll { marker := marker } additions name
  have hown : e.members = (addAll { marker := marker } additions).1.ownMembers name := by
    rw [ownMembers, show (addAll { marker := marker } additions).1.modules.find? name = some e from he]
    rfl
  rw [ModuleEntry.records, definitions, hmarker, hown, hmembers]
  rfl

/-- **What a lookup finds is the fold of the definitions** at its owner. -/
theorem description_of_findMethod? (marker : Marker) (additions : List Addition) {name method : String}
    {side : Side} {m : MethodEntry}
    (h : (addAll { marker := marker } additions).1.findMethod? name method side = some m) :
    m.description = describe (definitions marker m.owner m.side m.name
      (addAll { marker := marker } additions).2.flatten) := by
  have hempty : Keyed { marker := marker } := fun _ _ he => by cases he
  have hkeyed := keyed_addAll hempty additions
  obtain ⟨l, -, a, -, e, he, -, rfl⟩ := exists_leads_of_findMethod? h
  obtain ⟨howner, hname, hside⟩ := foldl_extend
    (MethodRecord.current (e.records (addAll { marker := marker } additions).1.marker a.side l.method))
    ⟨e.name, l.method, a.side, [], [], [], e.context⟩
  rw [description_methodEntry, records_addAll marker additions he, ← records_addAll marker additions he]
  unfold ModuleEntry.methodEntry
  rw [howner, hname, hside, hkeyed a.name e he, records_addAll marker additions he]

/-! ## The class itself -/

variable {env : Environment}

/-- An entry is among its own ancestors. -/
theorem self_mem_ancestors {name : String} {e : ModuleEntry} (he : env.entry? name = some e)
    (side : Side) : ⟨name, side⟩ ∈ env.ancestors name side := by
  cases side with
  | ofInstance =>
    refine (prefix_ancestors he).subset ?_
    rw [addChain]
    exact (prefix_addChain _ _ _).subset (mem_addSide_self (hasModule_of_entry he) _ _)
  | ofSingleton =>
    rw [ancestors_singleton he]
    refine (prefix_addChain _ _ _).subset ?_
    rw [addSingletons, he]
    refine addSingletons_keeps (Q := (⟨name, .ofSingleton⟩ ∈ ·))
      (fun n x found hq => (prefix_addSide n x found).subset hq)
      (fun x found _ _ hq => List.mem_append_left _ hq) _ _ ?_
    exact addSides_keeps (fun m _ found hq => (prefix_addSide _ m found).subset hq)
      List.mem_cons_self

/-- An ancestor that neither defines a method nor has an alias for it. -/
def Silent (env : Environment) (method : String) (a : Ancestor) : Prop :=
  ∀ e, env.entry? a.name = some e → e.records env.marker a.side method = [] ∧
    (e.methodAliases a.side).find? method = none

/-- A search goes past silent ancestors to the first one that defines the method. -/
theorem searchAlong_of_silent {follow : Lookup → List Lookup → Option MethodEntry × List Lookup}
    {method : String} {before : List Ancestor} (hbefore : ∀ a ∈ before, env.Silent method a)
    {a : Ancestor} {e : ModuleEntry} (he : env.entry? a.name = some e)
    (hr : e.records env.marker a.side method ≠ []) (after : List Ancestor) (begun : List Lookup) :
    (env.searchAlong follow method (before ++ a :: after) begun).1
      = some (e.methodEntry a.side method (e.records env.marker a.side method)) := by
  induction before with
  | nil =>
    rw [List.nil_append, searchAlong, he]
    obtain ⟨r, rs, hcons⟩ := List.exists_cons_of_ne_nil hr
    simp only [hcons]
  | cons b before ih =>
    obtain ⟨hb, hrest⟩ := List.forall_mem_cons.mp hbefore
    rw [List.cons_append, searchAlong]
    cases hentry : env.entry? b.name with
    | none => exact ih hrest
    | some f =>
      obtain ⟨hrecords, halias⟩ := hb f hentry
      simp only [hrecords, halias]
      exact ih hrest

/-- What is defined at a class is found there, unless ancestors in front of it say something. -/
theorem findMethod?_of_silent {name method : String} {side : Side} {e : ModuleEntry}
    (he : env.entry? name = some e) (hr : e.records env.marker side method ≠ [])
    (hsilent : ∀ a ∈ (env.ancestors name side).takeWhile (· ≠ ⟨name, side⟩), env.Silent method a) :
    env.findMethod? name method side
      = some (e.methodEntry side method (e.records env.marker side method)) := by
  obtain ⟨after, hsplit⟩ : ∃ after, env.ancestors name side
      = (env.ancestors name side).takeWhile (· ≠ ⟨name, side⟩) ++ ⟨name, side⟩ :: after := by
    have hself := self_mem_ancestors he side
    generalize env.ancestors name side = as at hself
    induction as with
    | nil => cases hself
    | cons a as ih =>
      by_cases ha : a = ⟨name, side⟩
      · exact ⟨as, by simp [ha]⟩
      · obtain ⟨after, hafter⟩ := ih ((List.mem_cons.mp hself).resolve_left fun h => ha h.symm)
        refine ⟨after, ?_⟩
        rw [List.takeWhile_cons_of_pos (by simpa using ha), List.cons_append, ← hafter]
  rw [findMethod?, lookupBound, search, if_neg (by simp), hsplit]
  exact searchAlong_of_silent hsilent he hr after _

/-! ## Top theorem -/

/-- **A method is the fold of its definitions.**  After every run, what a lookup finds has the overloads,
templates and annotations that the definitions at its owner describe, whatever members, reopenings and
texts they stand in: those of the last full definition, with what overloads behind it, if there is a
full one.  A class that defines a method is the owner of what is found there, unless ancestors in front
of it define it or have an alias for it.  Where texts end and where a body is cut makes no difference. -/
theorem findMethod?_fold (marker : Marker) (additions : List Addition) :
    let env := (addAll { marker := marker } additions).1
    let ds := (addAll { marker := marker } additions).2.flatten
    (∀ name method side m, env.findMethod? name method side = some m →
      m.description = describe (definitions marker m.owner m.side m.name ds) ∧
      ∀ before full after, definitions marker m.owner m.side m.name ds = before ++ full :: after →
        full.overloading = false → (∀ r ∈ after, r.overloading = true) →
          m.overloads = after.reverse.flatMap (·.overloads) ++ full.overloads ∧
          m.templates = full.templates ++ after.flatMap (·.templates) ∧
          m.annotations = full.annotations ++ after.flatMap (·.annotations)) ∧
    (∀ name method side, definitions marker name side method ds ≠ [] →
      (∀ a ∈ (env.ancestors name side).takeWhile (· ≠ ⟨name, side⟩), env.Silent method a) →
        ∃ m, env.findMethod? name method side = some m ∧ m.owner = name ∧ m.side = side ∧
          m.name = method) ∧
    ∀ more before after, ∀ d e f : Nestable, e.name = d.name → f.name = d.name →
      d.members = e.members ++ f.members → ds = before ++ .nestable d :: after →
      (addAll { marker := marker } more).2.flatten = before ++ .nestable e :: .nestable f :: after →
        ∀ name method side m name' method' side' m', env.findMethod? name method side = some m →
          (addAll { marker := marker } more).1.findMethod? name' method' side' = some m' →
          m'.owner = m.owner → m'.side = m.side → m'.name = m.name → m'.description = m.description := by
  intro env ds
  refine ⟨fun name method side m hm => ?_, fun name method side hdefs hsilent => ?_,
    fun more before after d e f he hf h hds hmore name method side m name' method' side' m' hm hm'
      howner hside hname => ?_⟩
  · have hfold := description_of_findMethod? marker additions hm
    refine ⟨hfold, fun before full after hsplit hfull hafter => ?_⟩
    rw [hsplit, describe_last_full before hfull hafter] at hfold
    injection hfold with hoverloads htemplates hannotations
    exact ⟨hoverloads, htemplates, hannotations⟩
  · cases he : env.entry? name with
    | none =>
      have hnone : env.ownMembers name = [] := by
        rw [ownMembers, show env.modules.find? name = none from he]
        rfl
      rw [(ownMembers_addAll { marker := marker } additions name).1] at hnone
      rw [definitions, (List.append_eq_nil_iff.mp hnone).2] at hdefs
      exact absurd rfl hdefs
    | some e =>
      rw [← records_addAll marker additions he] at hdefs
      refine ⟨_, findMethod?_of_silent he hdefs hsilent, ?_⟩
      obtain ⟨howner, hname, hside⟩ := foldl_extend
        (MethodRecord.current (e.records env.marker side method))
        ⟨e.name, method, side, [], [], [], e.context⟩
      have hempty : Keyed { marker := marker } := fun _ _ hnone => by cases hnone
      exact ⟨howner.trans (keyed_addAll hempty additions name e he), hside, hname⟩
  · have hwhole := description_of_findMethod? marker additions hm
    rw [show (addAll { marker := marker } additions).2.flatten = _ from hds] at hwhole
    rw [description_of_findMethod? marker more hm', hwhole, hmore, howner, hside, hname,
      definitions_reopened marker m.owner m.side m.name before after he hf h]

/-- An attribute, overloaded in its class and in a second text. -/
def overloadedTexts : List Addition :=
  [.signature "class A\n  attr_reader x: T\n  def x: (T) -> T | ...\nend\n" "a.rbs",
    .signature "class A\n  def self?.x: (T?) -> T | ...\nend\n" "b.rbs"]

theorem findMethod?_fold_overloaded :
    let env := (addAll { marker := ⟨"siggen:", by decide⟩ } overloadedTexts).1
    ∃ m, env.findMethod? "A" "x" .ofInstance = some m ∧ m.owner = "A" ∧
      m.overloads.map MethodType.render = ["(T?) -> T", "(T) -> T", "() -> T"] := by
  intro env
  obtain ⟨hfold, hfound, -⟩ := findMethod?_fold ⟨"siggen:", by decide⟩ overloadedTexts
  obtain ⟨hfirst, hdescribed⟩ :
      (env.ancestors "A" .ofInstance).takeWhile (· ≠ ⟨"A", .ofInstance⟩) = [] ∧
      (describe (definitions ⟨"siggen:", by decide⟩ "A" .ofInstance "x" (addAll
        { marker := ⟨"siggen:", by decide⟩ } overloadedTexts).2.flatten)).overloads.map MethodType.render
          = ["(T?) -> T", "(T) -> T", "() -> T"] := by
    decide +kernel
  obtain ⟨m, hm, howner, hside, hname⟩ := hfound "A" "x" .ofInstance
    (fun hnone => by
      rw [hnone] at hdescribed
      cases hdescribed)
    (fun a ha => by
      rw [hfirst] at ha
      cases ha)
  have hdescription := (hfold "A" "x" .ofInstance m hm).1
  rw [howner, hside, hname] at hdescription
  rw [← hdescription] at hdescribed
  exact ⟨m, hm, howner, hdescribed⟩

end Environment

end RbsSynth
