import RbsSynth.Proofs.Analysis.Resolved
import RbsSynth.Proofs.Environment.Kinds
import RbsSynth.Proofs.Reading.IndexNames

/-!
# Names in an environment

Whatever is added to an empty environment, its classes, modules and interfaces stand under index names
(`indexed_addAll`), so that each of them has a relative name               (Environment.Indexed.names)
-/

namespace RbsSynth

open Signature

/-- A name that does not start at the top. -/
def IsRelative (n : TypeName) : Prop := n.absolute = false

instance : DecidablePred IsRelative := fun _ => inferInstanceAs (Decidable (_ = _))

theorem IsIndexName.isRelative {q : String} (h : IsIndexName q) : IsRelative (declaredName q) := by
  rw [IsRelative, declaredName]
  cases hn : TypeName.parse? q with
  | none => rfl
  | some n =>
    unfold TypeName.parse? at hn
    dsimp only at hn
    split at hn
    · cases hn
    · obtain rfl := Option.some.inj hn
      exact h.not_isPrefixOf

namespace Environment

/-- Classes, modules and interfaces stand under index names. -/
def Indexed (env : Environment) : Prop := ∀ q, env.hasModule q = true → IsIndexName q

theorem Indexed.names {env : Environment} (h : env.Indexed) : env.Names IsRelative :=
  ⟨fun q hq => (h q hq).isRelative⟩

theorem hasModule_eq (env : Environment) (q : String) :
    env.hasModule q = (env.recorded q).isSome := by
  rw [hasModule, Index.has, recorded, Option.isSome_map]

/-- What a batch records under a name was recorded before or is registered under it. -/
theorem exists_of_recordAll {rs : List Registered} {q : String}
    {old : Option (ModuleKind × List Nestable)} (h : (recordAll rs q old).isSome = true) :
    old.isSome = true ∨ ∃ r ∈ rs, r.name = q := by
  cases hf : rs.filter (·.name = q) with
  | nil =>
    rw [recordAll, hf] at h
    exact .inl h
  | cons r rest =>
    have hr : r ∈ rs.filter (·.name = q) := hf ▸ List.mem_cons_self
    obtain ⟨hmem, hname⟩ := List.mem_filter.mp hr
    exact .inr ⟨r, hmem, of_decide_eq_true hname⟩

theorem indexed_addDeclarations {env env' : Environment} {ds : List Declaration} {source : String}
    (h : env.Indexed) (hds : ∀ r ∈ batchRegistered ds, IsIndexName r.name)
    (hadd : env.addDeclarations ds source = .ok env') : env'.Indexed := by
  intro q hq
  obtain ⟨-, hrecorded⟩ := addDeclarations_ok hadd
  rw [hasModule_eq, hrecorded] at hq
  rcases exists_of_recordAll hq with hold | ⟨r, hr, rfl⟩
  · exact h q (by rw [hasModule_eq]; exact hold)
  · exact hds r hr

/-- An addition whose declarations are indexed by index names; those of a text are. -/
def Addition.IsIndexed : Addition → Prop
  | .declarations ds _ => ∀ r ∈ batchRegistered ds, IsIndexName r.name
  | .signature _ _ => True

theorem indexed_perform {env env' : Environment} {a : Addition} {ds : List Declaration}
    (h : env.Indexed) (ha : a.IsIndexed) (hp : env.perform a = .ok (env', ds)) : env'.Indexed := by
  cases a with
  | declarations ds' source =>
    rw [perform] at hp
    split at hp
    · cases hp
    · next e he =>
      cases hp
      exact indexed_addDeclarations h ha he
  | signature text source =>
    rw [perform, addSignature] at hp
    split at hp
    · cases hp
    · next raw hparse =>
      split at hp
      · cases hp
      · next e he =>
        cases hp
        refine indexed_addDeclarations h (fun r hr => ?_) he
        obtain ⟨d, hd, hr⟩ := List.mem_flatMap.mp hr
        exact (parse_indexed hparse d hd).registered r hr

/-- **Index names along every run.** -/
theorem indexed_addAll {env : Environment} {additions : List Addition} (h : env.Indexed)
    (hadd : ∀ a ∈ additions, a.IsIndexed) : (env.addAll additions).1.Indexed := by
  induction additions generalizing env with
  | nil => exact h
  | cons a rest ih =>
    obtain ⟨ha, hrest⟩ := List.forall_mem_cons.mp hadd
    rw [addAll]
    split
    · exact ih h hrest
    · next env' ds hp => exact ih (indexed_perform h ha hp) hrest

theorem indexed_empty (marker : Marker) : Indexed { marker := marker } := by
  intro q hq
  cases hq

end Environment

end RbsSynth
