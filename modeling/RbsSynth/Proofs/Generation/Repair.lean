import RbsSynth.Generation.Fragment
import RbsSynth.Proofs.Reading.Wrapped

/-!
# Reading a fragment once more

A fragment that cannot be read is read once more as the body of a class, if it stopped where a
declaration could have started.  Wherever the second reading succeeds it is made    (declarations_spec)
-/

namespace RbsSynth.Fragment

open Signature

variable {f : Fragment} {n : TypeName}

theorem wrapped_eq (ht : f.target = n.render) :
    f.wrapped = .ofList (classText n f.text.toList) := by
  rw [← String.toList_inj, String.toList_ofList, wrapped, ht]
  delta classText
  simp only [String.toList_append, List.append_assoc]
  rfl

theorem declarations_of_ok {ds : List Declaration} (h : parse f.text f.label = .ok ds) :
    f.declarations = .ok ds := by
  rw [declarations, h]

theorem declarations_of_wrapped {fault : Fault} {ds : List Declaration}
    (h : parse f.text f.label = .error fault) (hstart : fault.cannotStart = true)
    (hds : parse f.wrapped f.label = .ok ds) : f.declarations = .ok ds := by
  rw [declarations, h]
  simp only [hstart, if_true, hds]

/-- A fragment that is refused could not be read in either way. -/
theorem parse_of_error (hn : n.IsClass) (ht : f.target = n.render) {e : FragmentError}
    (h : f.declarations = .error e) : (∃ fault, parse f.text f.label = .error fault) ∧
      ∃ fault, parse f.wrapped f.label = .error fault := by
  cases hself : parse f.text f.label with
  | ok ds =>
    rw [declarations_of_ok hself] at h
    cases h
  | error fault =>
    refine ⟨⟨fault, rfl⟩, ?_⟩
    cases hwrapped : parse f.wrapped f.label with
    | error fault' => exact ⟨fault', rfl⟩
    | ok ds =>
      rw [wrapped_eq ht] at hwrapped
      have hstart := cannotStart_of_classText hn hself hwrapped
      rw [← wrapped_eq ht] at hwrapped
      rw [declarations_of_wrapped hself hstart hwrapped] at h
      cases h

/-- **Repair is complete.**  A fragment gives its own declarations if it has any, else those of the class
around it if this has any; in that case it stops where a declaration could have started.  It is refused
only if neither text can be read. -/
theorem declarations_spec (hn : n.IsClass) (ht : f.target = n.render) :
    (∀ ds, parse f.text f.label = .ok ds → f.declarations = .ok ds) ∧
    (∀ fault ds, parse f.text f.label = .error fault → parse f.wrapped f.label = .ok ds →
      fault.cannotStart = true ∧ f.declarations = .ok ds) ∧
    ∀ e, f.declarations = .error e → (∃ fault, parse f.text f.label = .error fault) ∧
      ∃ fault, parse f.wrapped f.label = .error fault := by
  refine ⟨fun ds h => declarations_of_ok h, fun fault ds h hds => ?_, fun e h => parse_of_error hn ht h⟩
  have hstart : fault.cannotStart = true := by
    rw [wrapped_eq ht] at hds
    exact cannotStart_of_classText hn h hds
  exact ⟨hstart, declarations_of_wrapped h hstart hds⟩

/-- A method by itself, for the class `Foo`. -/
def bareMethod : Fragment := ⟨"Foo", "def a: () -> void", "m", "t"⟩

theorem isClass_foo : TypeName.IsClass ⟨"Foo", [], false⟩ :=
  ⟨List.forall_mem_nil _, 'F', ['o', 'o'], rfl, rfl, by decide⟩

set_option maxRecDepth 100000 in
theorem declarations_spec_bareMethod :
    ∃ fault ds, parse bareMethod.text bareMethod.label = .error fault ∧
      parse bareMethod.wrapped bareMethod.label = .ok ds ∧ fault.cannotStart = true ∧
      bareMethod.declarations = .ok ds := by
  have hspec := declarations_spec (f := bareMethod) isClass_foo (by decide +kernel)
  have hself : (parse bareMethod.text bareMethod.label).isOk = false := by decide +kernel
  have hwrapped : (parse bareMethod.wrapped bareMethod.label).isOk = true := by decide +kernel
  cases hfault : parse bareMethod.text bareMethod.label with
  | ok ds =>
    rw [hfault] at hself
    cases hself
  | error fault =>
    cases hds : parse bareMethod.wrapped bareMethod.label with
    | error fault' =>
      rw [hds] at hwrapped
      cases hwrapped
    | ok ds => exact ⟨fault, ds, rfl, rfl, hspec.2.1 fault ds hfault hds⟩

end RbsSynth.Fragment
