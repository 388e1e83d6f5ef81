import RbsSynth.Engine.Engine

/-!
# Leaving out blank lines

The text of a program is written without its blank lines.  A line may be blank in the middle of a token:
a literal that spans lines loses them                                        (not_droppingKeeps)
-/

namespace RbsSynth

open Signature

/-- Where declarations that can be read are written and read again, leaving out the blank lines of their
text changes nothing in them. -/
def DroppingKeeps : Prop :=
  ∀ (source : String) (ds es : List Declaration) (text : String), parse source = .ok ds →
    write ds = .ok text → parse text = .ok es →
    ∃ es', parse (dropBlankLines text) = .ok es' ∧ sameDeclarations es es' = true

/-- A literal with a blank line in it. -/
def spanningLiteral : String := "type t = \"a\n\nb\""

/-- A text without its blank lines gives other declarations than the text. -/
def droppingDiffers (text : String) : Bool :=
  match parse text, parse (dropBlankLines text) with
  | .ok es, .ok es' => !sameDeclarations es es'
  | _, _ => false

set_option maxRecDepth 100000 in
theorem not_droppingKeeps : ¬ DroppingKeeps := by
  intro h
  have hdiffers : ((parse spanningLiteral).toOption.bind fun ds => (write ds).toOption).map
      droppingDiffers = some true := by decide +kernel
  cases hds : parse spanningLiteral with
  | error f =>
    rw [hds] at hdiffers
    cases hdiffers
  | ok ds =>
    rw [hds] at hdiffers
    cases htext : write ds with
    | error e =>
      simp only [Except.toOption, Option.bind_some, htext, Option.map_none] at hdiffers
      cases hdiffers
    | ok text =>
      simp only [Except.toOption, Option.bind_some, htext, Option.map_some, Option.some.injEq,
        droppingDiffers] at hdiffers
      cases hes : parse text with
      | error f =>
        rw [hes] at hdiffers
        cases hdiffers
      | ok es =>
        obtain ⟨es', hes', hsame⟩ := h spanningLiteral ds es text hds htext hes
        rw [hes, hes'] at hdiffers
        simp only [hsame, Bool.not_true, Bool.false_eq_true] at hdiffers

end RbsSynth
