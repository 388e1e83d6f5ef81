import Mathlib.Data.List.Induction
import RbsSynth.Proofs.Generation.Sites
import RbsSynth.Proofs.Index

/-!
# What a name stands for in a template

A call `c` with the declared method `d` and the ancestors `above`:

    given?    the last argument given for a required parameter of the name
    encloses  else the record of the innermost matched block call of that method name   (ofCall_rule)
    neither   else nothing

The contexts are folds of `put`; `find?_outer` is the induction over the ancestors.
-/

namespace RbsSynth

/-! ## Arguments by position -/

/-- The value `x` is given for a required parameter `v`, both at position `i`. -/
def GivenAt (d : MatchedMethod) (c : Call) (v : String) (i : Nat) (x : String) : Prop :=
  d.required[i]? = some (some v) ∧ c.values[i]? = some x

/-- The last value that is given for a required parameter `v`. -/
def Given (d : MatchedMethod) (c : Call) (v x : String) : Prop :=
  ∃ i, GivenAt d c v i x ∧ ∀ j y, GivenAt d c v j y → j ≤ i

/-- No value is given for a required parameter `v`. -/
def NotGiven (d : MatchedMethod) (c : Call) (v : String) : Prop := ∀ i x, ¬ GivenAt d c v i x

namespace Context

/-- The last value under a name, the two lists taken by position. -/
def lastGiven (v : String) : List (Option String) → List String → Option String
  | n :: ns, x :: xs => (lastGiven v ns xs).or (if n = some v then some x else none)
  | _, _ => none

theorem lastGiven_eq_none {v : String} {ns : List (Option String)} {xs : List String}
    (h : lastGiven v ns xs = none) (i : Nat) (x : String) :
    ¬ (ns[i]? = some (some v) ∧ xs[i]? = some x) := by
  induction ns generalizing xs i with
  | nil => exact fun hi => by simp at hi
  | cons n ns ih =>
    match xs with
    | [] => exact fun hi => by simp at hi
    | y :: ys =>
      rw [lastGiven, Option.or_eq_none_iff] at h
      rintro ⟨hn, hx⟩
      match i with
      | 0 =>
        have hv : n = some v := Option.some.inj hn
        rw [if_pos hv] at h
        exact absurd h.2 (by simp)
      | i + 1 => exact ih h.1 i ⟨hn, hx⟩

theorem lastGiven_eq_some {v x : String} {ns : List (Option String)} {xs : List String}
    (h : lastGiven v ns xs = some x) :
    ∃ i : Nat, (ns[i]? = some (some v) ∧ xs[i]? = some x) ∧
      ∀ (j : Nat) (y : String), ns[j]? = some (some v) ∧ xs[j]? = some y → j ≤ i := by
  induction ns generalizing xs with
  | nil => exact absurd h (by simp [lastGiven])
  | cons n ns ih =>
    match xs with
    | [] => exact absurd h (by simp [lastGiven])
    | y :: ys =>
      rw [lastGiven] at h
      cases hrest : lastGiven v ns ys with
      | some z =>
        rw [hrest, Option.some_or] at h
        obtain ⟨i, hi, hlast⟩ := ih (hrest.trans h)
        refine ⟨i + 1, hi, fun j w hj => ?_⟩
        match j with
        | 0 => omega
        | j + 1 => exact Nat.succ_le_succ (hlast j w hj)
      | none =>
        rw [hrest, Option.none_or] at h
        by_cases hn : n = some v
        · rw [if_pos hn] at h
          refine ⟨0, ⟨congrArg some hn, h⟩, fun j w hj => ?_⟩
          match j with
          | 0 => omega
          | j + 1 => exact absurd hj (lastGiven_eq_none hrest j w)
        · rw [if_neg hn] at h
          exact absurd h (by simp)

/-- What stands under a name once a call's arguments are bound. -/
theorem find?_bindAll_pairs (v : String) (ns : List (Option String)) (xs : List String)
    (context : Context) :
    Index.find? v (bindAll (pairs ns xs) context)
      = ((lastGiven v ns xs).map Binding.scalar).or (Index.find? v context) := by
  induction ns generalizing xs context with
  | nil => rfl
  | cons n ns ih =>
    match xs with
    | [] => rfl
    | x :: xs =>
      match n with
      | none =>
        show Index.find? v (bindAll (pairs ns xs) context) = _
        rw [ih, lastGiven, if_neg (by simp), Option.or_none]
      | some m =>
        show Index.find? v (bindAll (pairs ns xs) (context.put m (.scalar x))) = _
        rw [ih, lastGiven, Index.find?_put]
        cases lastGiven v ns xs with
        | some y => rfl
        | none =>
          by_cases hm : m = v
          · rw [if_pos hm, if_pos (congrArg some hm)]
            rfl
          · rw [if_neg hm, if_neg (fun h => hm (Option.some.inj h))]
            rfl

/-- The fields hold the arguments of a call by the parameters of a declared method. -/
structure RecordOf (d : MatchedMethod) (c : Call) (fields : Index Binding) : Prop where
  apart : fields.names.Nodup
  given : ∀ v x, Given d c v x → fields.find? v = some (.scalar x)
  notGiven : ∀ v, NotGiven d c v → fields.find? v = none

end Context

/-! ## The calls around -/

/-- The node is the block call `a`, matched with `r`, and its method has the name `v`. -/
structure Encloses (typing : Typing) (v : String) (n : ProgramNode) (a : Call) (r : Resolution) :
    Prop where
  node : n = .call a
  block : a.block.isSome
  matched : typing.matched? a.id = some r
  method : r.method = v

/-- `a` is the innermost of the block calls above whose method has the name `v`. -/
def Innermost (typing : Typing) (v : String) (above : List ProgramNode) (a : Call) (r : Resolution) :
    Prop :=
  ∃ outer inner, above = outer ++ .call a :: inner ∧ Encloses typing v (.call a) a r ∧
    ∀ n ∈ inner, ∀ b s, ¬ Encloses typing v n b s

namespace Context

/-- The contexts of the calls around a site, the innermost last. -/
def outer (typing : Typing) (above : List ProgramNode) : Context :=
  (enclosing typing above).foldl enter []

/-- What the names of a context stand for at the call `c` under the nodes `above`, by the declared
method `d`. -/
structure Rule (typing : Typing) (above : List ProgramNode) (c : Call) (d : MatchedMethod)
    (context : Context) : Prop where
  apart : (Index.names context).Nodup
  /-- An argument of the call itself comes first, -/
  own : ∀ v x, Given d c v x → Index.find? v context = some (.scalar x)
  /-- then the innermost matched block call around that has the method name, -/
  enclosing : ∀ v, NotGiven d c v → ∀ a r, Innermost typing v above a r →
    ∃ first rest fields, r.declarations = first :: rest ∧
      Index.find? v context = some (.record fields) ∧ RecordOf first a fields
  /-- and no other name stands for anything. -/
  free : ∀ v, NotGiven d c v → (∀ n ∈ above, ∀ a r, ¬ Encloses typing v n a r) →
    Index.find? v context = none

end Context

end RbsSynth
