import Mathlib.Data.List.Perm.Basic
import RbsSynth.Proofs.Reading.Slots

/-!
# How parameters are sorted

Each parameter goes to one slot, by its kind and by what was written before it.  A slot holds what goes to
it in the order of the text, but the slots of the two rest parameters hold the last one only:

    (FunctionType.ofWritten ws t).slot s = s.holds (goingTo s [] ws)                     (slot_ofWritten)
    all of ws is in the slots  ↔  at most one rest and one rest keyword parameter is in ws
                                                                                       (written_perm_iff)
-/

namespace RbsSynth.Signature

/-- The slots of a function, in the order of its text. -/
inductive ParamSlot
  | required | optional | rest | trailing | requiredKeywords | optionalKeywords | restKeywords
  deriving DecidableEq

namespace ParamSlot

def all : List ParamSlot :=
  [required, optional, rest, trailing, requiredKeywords, optionalKeywords, restKeywords]

/-- The slots that hold one parameter at most. -/
def isSingle : ParamSlot → Bool
  | rest | restKeywords => true
  | _ => false

/-- What a slot holds of the parameters that go to it. -/
def holds (s : ParamSlot) (ws : List WrittenParam) : List WrittenParam :=
  if s.isSingle then ws.getLast?.toList else ws

variable (s : ParamSlot) (ws vs : List WrittenParam)

/-- A slot that is filled twice holds what it holds when it is filled at once. -/
theorem holds_append : s.holds (s.holds ws ++ vs) = s.holds (ws ++ vs) := by
  unfold holds
  split
  · have hlast : ws.getLast?.toList.getLast? = ws.getLast? := by cases ws.getLast? <;> rfl
    rw [List.getLast?_append, List.getLast?_append, hlast]
  · rfl

theorem holds_eq_iff : s.holds ws = ws ↔ s.isSingle = true → ws.length ≤ 1 := by
  unfold holds
  split
  · next hs =>
    match ws with
    | [] => simp
    | [w] => simp
    | w :: u :: ws =>
      simp only [hs, List.length_cons, forall_const]
      refine iff_of_false (fun h => ?_) (by omega)
      have hlength := congrArg List.length h
      have hle : (w :: u :: ws).getLast?.toList.length ≤ 1 := Option.length_toList_le
      simp only [List.length_cons] at hlength hle
      omega
  · next hs => exact iff_of_true rfl fun h => absurd h hs

end ParamSlot

/-- What a slot of a function holds. -/
def FunctionType.slot (f : FunctionType) : ParamSlot → List WrittenParam
  | .required => f.required.map (⟨.required, ·⟩)
  | .optional => f.optional.map (⟨.optional, ·⟩)
  | .rest => f.rest.toList.map (⟨.rest, ·⟩)
  | .trailing => f.trailing.map (⟨.required, ·⟩)
  | .requiredKeywords => f.requiredKeywords.map fun k => ⟨.keyword k.key, k.param⟩
  | .optionalKeywords => f.optionalKeywords.map fun k => ⟨.optionalKeyword k.key, k.param⟩
  | .restKeywords => f.restKeywords.toList.map (⟨.restKeywords, ·⟩)

theorem FunctionType.written_eq (f : FunctionType) : f.written = ParamSlot.all.flatMap f.slot := by
  simp only [written, ParamSlot.all, slot, List.flatMap_cons, List.flatMap_nil, List.append_nil,
    List.append_assoc]

/-! ## Where a parameter goes -/

/-- Behind an optional or a rest parameter the required ones are trailing. -/
def WrittenParam.turns (w : WrittenParam) : Bool := w.kind = .optional || w.kind = .rest

/-- The slot of a parameter behind others. -/
def WrittenParam.slot (before : List WrittenParam) (w : WrittenParam) : ParamSlot :=
  match w.kind with
  | .required => if before.any turns then .trailing else .required
  | .optional => .optional
  | .rest => .rest
  | .keyword _ => .requiredKeywords
  | .optionalKeyword _ => .optionalKeywords
  | .restKeywords => .restKeywords

/-- The parameters that go to a slot, in their order, where others were written before. -/
def goingTo (s : ParamSlot) (before : List WrittenParam) : List WrittenParam → List WrittenParam
  | [] => []
  | w :: ws => (if w.slot before = s then [w] else []) ++ goingTo s (before ++ [w]) ws

/-- Each parameter goes to just one slot. -/
theorem goingTo_perm (before ws : List WrittenParam) :
    (ParamSlot.all.flatMap (goingTo · before ws)).Perm ws := by
  induction ws generalizing before with
  | nil => exact .nil
  | cons w ws ih =>
    have hone : ParamSlot.all.flatMap (fun s => if w.slot before = s then [w] else []) = [w] := by
      cases w.slot before <;> rfl
    refine (List.flatMap_append_perm ParamSlot.all _ _).symm.trans ?_
    rw [hone]
    exact (ih (before ++ [w])).cons w

/-! ## Adding one more -/

section

variable (f : FunctionType) (w : WrittenParam) (s : ParamSlot)

/-- Whether one more required parameter would be a trailing one. -/
def FunctionType.turned : Bool := f.rest.isSome || !f.optional.isEmpty

theorem FunctionType.holds_slot : s.holds (f.slot s) = f.slot s := by
  rw [ParamSlot.holds_eq_iff]
  intro hs
  cases s with
  | rest | restKeywords =>
    rw [slot, List.length_map]
    exact Option.length_toList_le
  | _ => cases hs

theorem FunctionType.turned_addParam : (f.addParam w).turned = (f.turned || w.turns) := by
  obtain ⟨kind, p⟩ := w
  cases kind with
  | required =>
    rw [addParam]
    simp only [WrittenParam.turns]
    split <;> simp [turned]
  | _ => simp [addParam, turned, WrittenParam.turns]

/-- One more parameter changes the slot it goes to and no other. -/
theorem FunctionType.slot_addParam {before : List WrittenParam}
    (h : f.turned = before.any WrittenParam.turns) :
    (f.addParam w).slot s = if w.slot before = s then s.holds (f.slot s ++ [w]) else f.slot s := by
  obtain ⟨kind, p⟩ := w
  cases kind with
  | required =>
    have hadd : f.addParam ⟨.required, p⟩ = if before.any WrittenParam.turns
        then { f with trailing := f.trailing ++ [p] } else { f with required := f.required ++ [p] } := by
      rw [← h]
      rfl
    rw [hadd, WrittenParam.slot]
    by_cases hturn : before.any WrittenParam.turns = true
    · cases s <;> simp [hturn, slot, ParamSlot.holds, ParamSlot.isSingle]
    · cases s <;> simp [hturn, slot, ParamSlot.holds, ParamSlot.isSingle]
  | _ => cases s <;> simp [addParam, WrittenParam.slot, slot, ParamSlot.holds, ParamSlot.isSingle]

end

/-! ## All parameters -/

variable (ws : List WrittenParam) (t : TypeExpr)

theorem slot_foldl (s : ParamSlot) {f : FunctionType} (before : List WrittenParam)
    (h : f.turned = before.any WrittenParam.turns) :
    (ws.foldl FunctionType.addParam f).slot s = s.holds (f.slot s ++ goingTo s before ws) := by
  induction ws generalizing f before with
  | nil => rw [goingTo, List.append_nil, f.holds_slot]; rfl
  | cons w ws ih =>
    have hturned : (f.addParam w).turned = (before ++ [w]).any WrittenParam.turns := by
      rw [f.turned_addParam, h, List.any_append, List.any_cons, List.any_nil, Bool.or_false]
    rw [List.foldl_cons, ih _ hturned, f.slot_addParam w s h, goingTo]
    split
    · rw [s.holds_append, List.append_assoc]
    · rw [List.nil_append]

/-- **Each slot holds what goes to it.** -/
theorem slot_ofWritten (s : ParamSlot) :
    (FunctionType.ofWritten ws t).slot s = s.holds (goingTo s [] ws) := by
  have hempty : (FunctionType.returning t).slot s = [] := by cases s <;> rfl
  rw [FunctionType.ofWritten, slot_foldl ws s [] rfl, hempty, List.nil_append]

/-- At most one parameter is a rest one, and at most one a rest of the keywords. -/
def AtMostOneRest : Prop :=
  ws.countP (·.kind = .rest) ≤ 1 ∧ ws.countP (·.kind = .restKeywords) ≤ 1

/-- A function has at most one of each. -/
theorem atMostOneRest_written (f : FunctionType) : AtMostOneRest f.written := by
  have hone : ∀ (p : Option Param), p.toList.length ≤ 1 := fun _ => Option.length_toList_le
  constructor <;> simp [FunctionType.written, List.countP_map, Function.comp_def, hone]

theorem length_goingTo_rest (before : List WrittenParam) :
    (goingTo .rest before ws).length = ws.countP (·.kind = .rest) ∧
      (goingTo .restKeywords before ws).length = ws.countP (·.kind = .restKeywords) := by
  induction ws generalizing before with
  | nil => exact ⟨rfl, rfl⟩
  | cons w ws ih =>
    obtain ⟨hrest, hkeywords⟩ := ih (before ++ [w])
    obtain ⟨kind, p⟩ := w
    rw [goingTo, goingTo, List.length_append, List.length_append, hrest, hkeywords, List.countP_cons,
      List.countP_cons]
    cases kind with
    | required =>
      simp only [WrittenParam.slot]
      split <;> simp
    | _ => simp [WrittenParam.slot, Nat.add_comm]

/-- **Nothing is lost if and only if no slot for one parameter would have to hold more.** -/
theorem written_perm_iff : (FunctionType.ofWritten ws t).written.Perm ws ↔ AtMostOneRest ws := by
  constructor
  · intro h
    have hone := atMostOneRest_written (FunctionType.ofWritten ws t)
    rwa [AtMostOneRest, h.countP_eq, h.countP_eq] at hone
  · rintro ⟨hrest, hkeywords⟩
    obtain ⟨hr, hk⟩ := length_goingTo_rest ws []
    have hself : ∀ s : ParamSlot, s.holds (goingTo s [] ws) = goingTo s [] ws := by
      intro s
      rw [ParamSlot.holds_eq_iff]
      cases s with
      | rest => exact fun _ => hr ▸ hrest
      | restKeywords => exact fun _ => hk ▸ hkeywords
      | _ => exact fun h => nomatch h
    have hslots : (FunctionType.ofWritten ws t).slot = fun s => goingTo s [] ws :=
      funext fun s => (slot_ofWritten ws t s).trans (hself s)
    rw [FunctionType.written_eq, hslots]
    exact goingTo_perm [] ws

end RbsSynth.Signature
