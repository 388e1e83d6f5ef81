import RbsSynth.Proofs.Environment.Registered
import RbsSynth.Proofs.Reading.Readings

/-!
# Declarations that can be written

`d.Throughout P Q` says that `P` holds of a declaration and of all declarations inside it, and `Q` of
their members.  A declaration fits if throughout it the names are such as a text can have, the types fit,
and the body of every annotation lacks the closing delimiter of some pair:

    d.AllFit  →  d is read from its text, with the readings of its types

The types of a declaration and of all in it can be exchanged (`d.mapTypes g`).
-/

namespace RbsSynth.Signature

/-! ## Throughout -/

/-- The declarations directly inside a declaration. -/
def Declaration.inside (d : Declaration) : List Nestable := d.members.filterMap Member.nested?

inductive Declaration.Throughout (P : Declaration → Prop) (Q : Member → Prop) : Declaration → Prop
  | mk {d : Declaration} (h : P d) (hm : ∀ m ∈ d.members, Q m)
    (hs : ∀ e ∈ d.inside, Throughout P Q (.nestable e)) : Throughout P Q d

/-- `Q` holds of a member and, if it is a declaration, both hold throughout it. -/
def Member.Throughout (P : Declaration → Prop) (Q : Member → Prop) (m : Member) : Prop :=
  Q m ∧ ∀ e ∈ m.nested?, (Declaration.nestable e).Throughout P Q

section

variable {P P' : Declaration → Prop} {Q Q' : Member → Prop} {d : Declaration} {m : Member}

theorem Declaration.throughout_iff :
    d.Throughout P Q ↔ P d ∧ ∀ m ∈ d.members, m.Throughout P Q := by
  constructor
  · rintro ⟨h, hm, hs⟩
    exact ⟨h, fun m hmem => ⟨hm m hmem, fun e he => hs e (List.mem_filterMap.mpr ⟨m, hmem, he⟩)⟩⟩
  · rintro ⟨h, hall⟩
    refine .mk h (fun m hm => (hall m hm).1) fun e he => ?_
    obtain ⟨m, hm, hn⟩ := List.mem_filterMap.mp he
    exact (hall m hm).2 e hn

theorem Declaration.Throughout.and (h : d.Throughout P Q) (h' : d.Throughout P' Q') :
    d.Throughout (fun d => P d ∧ P' d) fun m => Q m ∧ Q' m := by
  induction h with
  | mk h hm _ ih =>
    cases h' with
    | mk h' hm' hs' =>
      exact .mk ⟨h, h'⟩ (fun m hmem => ⟨hm m hmem, hm' m hmem⟩) fun e he => ih e he (hs' e he)

theorem Declaration.Throughout.imp (h : d.Throughout P Q) (hP : ∀ d, P d → P' d)
    (hQ : ∀ m, Q m → Q' m) : d.Throughout P' Q' := by
  induction h with
  | mk h hm _ ih => exact .mk (hP _ h) (fun m hmem => hQ m (hm m hmem)) ih

/-! ### With other notes -/

theorem Declaration.members_withNotes (d : Declaration) (n : Notes) :
    (d.withNotes n).members = d.members := by
  match d with
  | .globalDecl _ | .nestable (.classDecl _) | .nestable (.moduleDecl _) | .nestable (.interfaceDecl _)
  | .nestable (.aliasDecl _) | .nestable (.constantDecl _) => rfl

theorem Declaration.Throughout.withNotes {n : Notes} (h : d.Throughout P Q)
    (hP : P d → P (d.withNotes n)) : (d.withNotes n).Throughout P Q := by
  rw [throughout_iff, members_withNotes]
  exact (throughout_iff.mp h).imp_left hP

theorem Declaration.members_mapNotes (d : Declaration) (f : Notes → Notes) :
    (d.mapNotes f).members = d.members.map (Member.mapNotes f) := by
  match d with
  | .nestable (.classDecl ⟨_, _, _, ms, _⟩) => exact Member.mapNotesList_eq f ms
  | .nestable (.moduleDecl ⟨_, _, _, ms, _⟩) => exact Member.mapNotesList_eq f ms
  | .nestable (.interfaceDecl ⟨_, _, ms, _⟩) => exact Member.mapNotesList_eq f ms
  | .globalDecl _ | .nestable (.aliasDecl _) | .nestable (.constantDecl _) => rfl

theorem Member.nested?_mapNotes (m : Member) (f : Notes → Notes) :
    (m.mapNotes f).nested? = m.nested?.map (Nestable.mapNotes f) := by
  cases m <;> rfl

theorem Declaration.Throughout.mapNotes (h : d.Throughout P Q) (f : Notes → Notes)
    (hP : ∀ d, P d → P' (d.mapNotes f)) (hQ : ∀ m, Q m → Q' (m.mapNotes f)) :
    (d.mapNotes f).Throughout P' Q' := by
  induction h with
  | @mk d h hm _ ih =>
    rw [throughout_iff, members_mapNotes]
    refine ⟨hP d h, List.forall_mem_map.mpr fun m hmem => ⟨hQ m (hm m hmem), ?_⟩⟩
    rw [Member.nested?_mapNotes]
    intro e he
    obtain ⟨e, hn, rfl⟩ := Option.map_eq_some_iff.mp he
    exact ih e (List.mem_filterMap.mpr ⟨m, hmem, hn⟩)

end

/-! ## Types and names -/

abbrev TypeExpr.AllFit (t : TypeExpr) : Prop := t.All TypeExpr.Fits

/-- The types of a declaration outside its members. -/
def Nestable.types : Nestable → List TypeExpr
  | .classDecl d => d.typeParams.flatMap TypeParam.types ++ d.superclass.toList.flatMap (·.args)
  | .moduleDecl d => d.typeParams.flatMap TypeParam.types ++ d.selfTypes.flatMap (·.args)
  | .interfaceDecl d => d.typeParams.flatMap TypeParam.types
  | .aliasDecl d => d.typeParams.flatMap TypeParam.types ++ [d.type]
  | .constantDecl d => [d.type]

def Declaration.types : Declaration → List TypeExpr
  | .nestable d => d.types
  | .globalDecl d => [d.type]

def Member.types : Member → List TypeExpr
  | .method m => m.overloads.flatMap MethodType.types
  | .attribute m => [m.type]
  | .mixin m => m.args
  | .variable m => [m.type]
  | .aliasMember _ | .visibility _ | .nested _ => []

/-- What a class can be used with. -/
def TypeName.IsModule (n : TypeName) : Prop := n.IsClass ∨ n.IsInterface

/-- Whether the names of a declaration outside its members can be written. -/
def Nestable.Fits : Nestable → Prop
  | .classDecl d => d.name.IsClass ∧ (∀ p ∈ d.typeParams, p.Fits) ∧ ∀ a ∈ d.superclass, a.name.IsClass
  | .moduleDecl d =>
    d.name.IsClass ∧ (∀ p ∈ d.typeParams, p.Fits) ∧ ∀ a ∈ d.selfTypes, a.name.IsModule
  | .interfaceDecl d => d.name.IsInterface ∧ ∀ p ∈ d.typeParams, p.Fits
  | .aliasDecl d => d.name.IsAlias ∧ ∀ p ∈ d.typeParams, p.Fits
  | .constantDecl d => d.name.IsClass

def Declaration.Fits : Declaration → Prop
  | .nestable d => d.Fits
  | .globalDecl d => IsSigned '$' d.name

/-- Whether the names of a member can be written.  The second name of an alias of methods of instances
stands where another member may start. -/
def Member.Fits : Member → Prop
  | .method m =>
    IsMethodName m.name ∧ (m.overloads ≠ [] ∨ m.overloading = true) ∧ ∀ o ∈ m.overloads, o.Fits
  | .attribute m => IsKey m.name.toList
  | .mixin m => m.name.IsModule
  | .variable m => IsSigned '@' m.name
  | .aliasMember m =>
    IsMethodName m.newName ∧ IsMethodName m.oldName ∧ (m.singleton = false → m.oldName ∉ memberWords)
  | .visibility _ | .nested _ => True

/-! ## Notes -/

/-- Some pair of delimiters can be put around the body. -/
def Annotation.Fits (a : Annotation) : Prop := ∃ d ∈ annotationDelimiters, d.2 ∉ a.body.toList

/-- The notes of a member that is no declaration; of a visibility nothing is kept. -/
def Member.notes : Member → Notes
  | .method m => m.notes
  | .attribute m => m.notes
  | .mixin m => m.notes
  | .variable m => m.notes
  | .aliasMember m => m.notes
  | .visibility _ | .nested _ => {}

/-- Each annotation can be delimited, and only what has a place may have a comment. -/
structure Notes.Fits (n : Notes) : Prop where
  annotations : ∀ a ∈ n.annotations, a.Fits
  placed : n.location = none → n.comment = none

theorem Notes.fits_empty : ({} : Notes).Fits := ⟨List.forall_mem_nil _, fun _ => rfl⟩

theorem Notes.fits_notesFor {as : List Annotation} (h : ∀ a ∈ as, a.Fits) (name : String)
    (span : Option Span) : (notesFor name as span).Fits := ⟨h, fun _ => rfl⟩

/-! ## Declarations -/

structure Declaration.OwnFit (d : Declaration) : Prop where
  names : d.Fits
  types : ∀ t ∈ d.types, t.AllFit
  notes : d.notes.Fits

structure Member.OwnFit (m : Member) : Prop where
  names : m.Fits
  types : ∀ t ∈ m.types, t.AllFit
  notes : m.notes.Fits

abbrev Declaration.AllFit (d : Declaration) : Prop := d.Throughout Declaration.OwnFit Member.OwnFit

abbrev Member.AllFit (m : Member) : Prop := m.Throughout Declaration.OwnFit Member.OwnFit

theorem Declaration.OwnFit.withNotes {d : Declaration} (h : d.OwnFit) {n : Notes} (hn : n.Fits) :
    (d.withNotes n).OwnFit := by
  match d with
  | .globalDecl _ | .nestable (.classDecl _) | .nestable (.moduleDecl _) | .nestable (.interfaceDecl _)
  | .nestable (.aliasDecl _) | .nestable (.constantDecl _) => exact ⟨h.names, h.types, hn⟩

theorem Declaration.OwnFit.mapNotes {d : Declaration} (h : d.OwnFit) {f : Notes → Notes}
    (hf : ∀ n, n.Fits → (f n).Fits) : (d.mapNotes f).OwnFit := by
  match d with
  | .globalDecl _ | .nestable (.classDecl ⟨_, _, _, _, _⟩) | .nestable (.moduleDecl ⟨_, _, _, _, _⟩)
  | .nestable (.interfaceDecl ⟨_, _, _, _⟩) | .nestable (.aliasDecl _) | .nestable (.constantDecl _) =>
    exact ⟨h.names, h.types, hf _ h.notes⟩

theorem Member.OwnFit.mapNotes {m : Member} (h : m.OwnFit) {f : Notes → Notes}
    (hf : ∀ n, n.Fits → (f n).Fits) : (m.mapNotes f).OwnFit := by
  cases m with
  | visibility | nested => exact ⟨h.names, h.types, h.notes⟩
  | _ => exact ⟨h.names, h.types, hf _ h.notes⟩

/-- Notes are fit for what they are put above. -/
theorem Member.AllFit.withNotes {m : Member} (h : m.AllFit) {n : Notes} (hn : n.Fits) :
    (m.withNotes n).AllFit := by
  obtain ⟨h, hs⟩ := h
  cases m with
  | nested d =>
    refine ⟨⟨h.names, h.types, h.notes⟩, fun e he => ?_⟩
    cases he
    exact Declaration.Throughout.withNotes (hs d rfl) fun h => h.withNotes hn
  | visibility => exact ⟨⟨h.names, h.types, h.notes⟩, hs⟩
  | _ => exact ⟨⟨h.names, h.types, hn⟩, hs⟩

/-! ## Other types in the same places -/

def Application.mapTypes (g : TypeExpr → TypeExpr) (a : Application) : Application :=
  { a with args := a.args.map g }

mutual

def ClassDecl.mapTypes (g : TypeExpr → TypeExpr) : ClassDecl → ClassDecl
  | ⟨n, ps, s, ms, ns⟩ =>
    ⟨n, ps.map (TypeParam.mapTypes g), s.map (Application.mapTypes g), Member.mapTypesList g ms, ns⟩
  termination_by structural d => d

def ModuleDecl.mapTypes (g : TypeExpr → TypeExpr) : ModuleDecl → ModuleDecl
  | ⟨n, ps, ss, ms, ns⟩ =>
    ⟨n, ps.map (TypeParam.mapTypes g), ss.map (Application.mapTypes g), Member.mapTypesList g ms, ns⟩
  termination_by structural d => d

def InterfaceDecl.mapTypes (g : TypeExpr → TypeExpr) : InterfaceDecl → InterfaceDecl
  | ⟨n, ps, ms, ns⟩ => ⟨n, ps.map (TypeParam.mapTypes g), Member.mapTypesList g ms, ns⟩
  termination_by structural d => d

def Nestable.mapTypes (g : TypeExpr → TypeExpr) : Nestable → Nestable
  | .classDecl d => .classDecl (d.mapTypes g)
  | .moduleDecl d => .moduleDecl (d.mapTypes g)
  | .interfaceDecl d => .interfaceDecl (d.mapTypes g)
  | .aliasDecl d =>
    .aliasDecl { d with type := g d.type, typeParams := d.typeParams.map (TypeParam.mapTypes g) }
  | .constantDecl d => .constantDecl { d with type := g d.type }
  termination_by structural d => d

def Member.mapTypes (g : TypeExpr → TypeExpr) : Member → Member
  | .method m => .method { m with overloads := m.overloads.map (MethodType.mapTypes g) }
  | .attribute m => .attribute { m with type := g m.type }
  | .mixin m => .mixin { m with args := m.args.map g }
  | .variable m => .variable { m with type := g m.type }
  | .aliasMember m => .aliasMember m
  | .visibility m => .visibility m
  | .nested d => .nested (d.mapTypes g)
  termination_by structural m => m

def Member.mapTypesList (g : TypeExpr → TypeExpr) : List Member → List Member
  | [] => []
  | m :: ms => m.mapTypes g :: Member.mapTypesList g ms
  termination_by structural ms => ms

end

def Declaration.mapTypes (g : TypeExpr → TypeExpr) : Declaration → Declaration
  | .nestable d => .nestable (d.mapTypes g)
  | .globalDecl d => .globalDecl { d with type := g d.type }

section

variable {g : TypeExpr → TypeExpr}

theorem Member.mapTypesList_eq (g : TypeExpr → TypeExpr) (ms : List Member) :
    Member.mapTypesList g ms = ms.map (Member.mapTypes g) := by
  induction ms with
  | nil => rfl
  | cons m ms ih => rw [Member.mapTypesList, ih, List.map_cons]

theorem Nestable.members_mapTypes (e : Nestable) :
    (e.mapTypes g).members = e.members.map (Member.mapTypes g) := by
  match e with
  | .classDecl ⟨_, _, _, ms, _⟩ | .moduleDecl ⟨_, _, _, ms, _⟩ | .interfaceDecl ⟨_, _, ms, _⟩ =>
    exact Member.mapTypesList_eq g ms
  | .aliasDecl _ | .constantDecl _ => rfl

theorem Nestable.notes_mapTypes (e : Nestable) : (e.mapTypes g).notes = e.notes := by
  match e with
  | .classDecl ⟨_, _, _, _, _⟩ | .moduleDecl ⟨_, _, _, _, _⟩ | .interfaceDecl ⟨_, _, _, _⟩
  | .aliasDecl _ | .constantDecl _ => rfl

theorem Member.notes_mapTypes (m : Member) : (m.mapTypes g).notes = m.notes := by
  cases m <;> rfl

theorem Application.mapTypes_eq_self {a : Application} (h : ∀ t ∈ a.args, g t = t) : a.mapTypes g = a := by
  rw [mapTypes, map_eq_self h]

theorem Member.mapTypes_eq_self {m : Member} (h : ∀ t ∈ m.types, g t = t)
    (hn : ∀ e ∈ m.nested?, e.mapTypes g = e) : m.mapTypes g = m := by
  match m with
  | .method m =>
    have hos : m.overloads.map (MethodType.mapTypes g) = m.overloads := map_eq_self fun o ho =>
      MethodType.mapTypes_eq_self (List.forall_mem_flatMap.mp h o ho)
    rw [mapTypes, hos]
  | .attribute m => rw [mapTypes, h m.type List.mem_cons_self]
  | .mixin m =>
    have hargs : m.args.map g = m.args := map_eq_self h
    rw [mapTypes, hargs]
  | .variable m => rw [mapTypes, h m.type List.mem_cons_self]
  | .aliasMember _ | .visibility _ => rfl
  | .nested e => rw [mapTypes, hn e rfl]

/-- Where no type changes, no declaration does. -/
theorem Declaration.Throughout.mapTypes_eq_self {d : Declaration}
    (h : d.Throughout (fun d => ∀ t ∈ d.types, g t = t) fun m => ∀ t ∈ m.types, g t = t) :
    d.mapTypes g = d := by
  induction h with
  | @mk d h hm _ ih =>
    have hmembers : d.members.map (Member.mapTypes g) = d.members := map_eq_self fun m hmem =>
      Member.mapTypes_eq_self (hm m hmem) fun e he =>
        Declaration.nestable.inj (ih e (List.mem_filterMap.mpr ⟨m, hmem, he⟩))
    have hparams : ∀ ps : List TypeParam, (∀ t ∈ ps.flatMap TypeParam.types, g t = t) →
        ps.map (TypeParam.mapTypes g) = ps := fun ps hps => map_eq_self fun p hp =>
      TypeParam.mapTypes_eq_self (List.forall_mem_flatMap.mp hps p hp)
    match d with
    | .globalDecl d =>
      have htype : g d.type = d.type := h d.type List.mem_cons_self
      rw [mapTypes, htype]
    | .nestable (.constantDecl d) =>
      have htype : g d.type = d.type := h d.type List.mem_cons_self
      rw [mapTypes, Nestable.mapTypes, htype]
    | .nestable (.aliasDecl d) =>
      obtain ⟨hps, ht⟩ := List.forall_mem_append.mp h
      rw [mapTypes, Nestable.mapTypes, hparams _ hps, ht d.type List.mem_cons_self]
    | .nestable (.interfaceDecl ⟨n, ps, ms, notes⟩) =>
      have hms : ms.map (Member.mapTypes g) = ms := hmembers
      rw [mapTypes, Nestable.mapTypes, InterfaceDecl.mapTypes, Member.mapTypesList_eq, hms, hparams ps h]
    | .nestable (.classDecl ⟨n, ps, a, ms, notes⟩) =>
      obtain ⟨hps, ha⟩ := List.forall_mem_append.mp h
      have hms : ms.map (Member.mapTypes g) = ms := hmembers
      have hsuper : a.map (Application.mapTypes g) = a := option_map_eq_self fun b hb =>
        Application.mapTypes_eq_self (List.forall_mem_flatMap.mp ha b (Option.mem_toList.mpr hb))
      rw [mapTypes, Nestable.mapTypes, ClassDecl.mapTypes, Member.mapTypesList_eq, hms, hparams ps hps, hsuper]
    | .nestable (.moduleDecl ⟨n, ps, as, ms, notes⟩) =>
      obtain ⟨hps, has⟩ := List.forall_mem_append.mp h
      have hms : ms.map (Member.mapTypes g) = ms := hmembers
      have hself : as.map (Application.mapTypes g) = as := map_eq_self fun b hb =>
        Application.mapTypes_eq_self (List.forall_mem_flatMap.mp has b hb)
      rw [mapTypes, Nestable.mapTypes, ModuleDecl.mapTypes, Member.mapTypesList_eq, hms, hparams ps hps, hself]

end

end RbsSynth.Signature
