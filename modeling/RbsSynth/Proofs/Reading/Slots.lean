import RbsSynth.Proofs.Pieces
import RbsSynth.Signature.TypeText
import RbsSynth.Signature.Value

/-!
# The slots of a function

The parameters of a function are written slot after slot (`FunctionType.written`) and sorted into the
same slots again.

    f fits  →  FunctionType.ofWritten f.written f.returnType = f                    (ofWritten_written)
-/

namespace RbsSynth.Signature

open Text

/-! ## Slots -/

/-- The parameters of a function in the order of their text. -/
def FunctionType.written (f : FunctionType) : List WrittenParam :=
  f.required.map (⟨.required, ·⟩) ++ f.optional.map (⟨.optional, ·⟩) ++ f.rest.toList.map (⟨.rest, ·⟩)
    ++ f.trailing.map (⟨.required, ·⟩) ++ f.requiredKeywords.map (fun k => ⟨.keyword k.key, k.param⟩)
    ++ f.optionalKeywords.map (fun k => ⟨.optionalKeyword k.key, k.param⟩)
    ++ f.restKeywords.toList.map (⟨.restKeywords, ·⟩)

section

variable (f : FunctionType)

theorem foldl_required (h : f.rest = none ∧ f.optional = []) (ps : List Param) :
    (ps.map (⟨.required, ·⟩)).foldl FunctionType.addParam f
      = { f with required := f.required ++ ps } := by
  induction ps generalizing f with
  | nil => cases f; simp
  | cons p ps ih =>
    obtain ⟨hr, ho⟩ := h
    have hadd : f.addParam ⟨.required, p⟩ = { f with required := f.required ++ [p] } := by
      rw [FunctionType.addParam]
      simp only [hr, ho]
      rfl
    rw [List.map_cons, List.foldl_cons, hadd, ih { f with required := f.required ++ [p] } ⟨hr, ho⟩]
    simp only [List.append_assoc, List.singleton_append]

theorem foldl_trailing (h : f.rest.isSome = true ∨ f.optional ≠ []) (ps : List Param) :
    (ps.map (⟨.required, ·⟩)).foldl FunctionType.addParam f
      = { f with trailing := f.trailing ++ ps } := by
  induction ps generalizing f with
  | nil => cases f; simp
  | cons p ps ih =>
    have hadd : f.addParam ⟨.required, p⟩ = { f with trailing := f.trailing ++ [p] } := by
      have hcond : (f.rest.isSome || !f.optional.isEmpty) = true := by
        rw [Bool.or_eq_true, Bool.not_eq_true', List.isEmpty_eq_false_iff]
        exact h
      rw [FunctionType.addParam]
      simp only [hcond, if_true]
    rw [List.map_cons, List.foldl_cons, hadd, ih { f with trailing := f.trailing ++ [p] } h]
    simp only [List.append_assoc, List.singleton_append]

theorem foldl_optional (ps : List Param) : (ps.map (⟨.optional, ·⟩)).foldl FunctionType.addParam f
    = { f with optional := f.optional ++ ps } := by
  induction ps generalizing f with
  | nil => cases f; simp
  | cons p ps ih =>
    rw [List.map_cons, List.foldl_cons, ih]
    simp only [FunctionType.addParam, List.append_assoc, List.singleton_append]

theorem foldl_keywords (ks : List KeywordParam) :
    (ks.map fun k => ⟨.keyword k.key, k.param⟩).foldl FunctionType.addParam f
      = { f with requiredKeywords := f.requiredKeywords ++ ks } := by
  induction ks generalizing f with
  | nil => cases f; simp
  | cons k ks ih =>
    cases k
    rw [List.map_cons, List.foldl_cons, ih]
    simp only [FunctionType.addParam, List.append_assoc, List.singleton_append]

theorem foldl_optionalKeywords (ks : List KeywordParam) :
    (ks.map fun k => ⟨.optionalKeyword k.key, k.param⟩).foldl FunctionType.addParam f
      = { f with optionalKeywords := f.optionalKeywords ++ ks } := by
  induction ks generalizing f with
  | nil => cases f; simp
  | cons k ks ih =>
    cases k
    rw [List.map_cons, List.foldl_cons, ih]
    simp only [FunctionType.addParam, List.append_assoc, List.singleton_append]

end

/-- **The slots are those that were written.** -/
theorem ofWritten_written {f : FunctionType} (h : f.trailing ≠ [] → f.rest.isSome ∨ f.optional ≠ []) :
    FunctionType.ofWritten f.written f.returnType = f := by
  obtain ⟨required, optional, rest, trailing, keywords, optionalKeywords, restKeywords, type⟩ := f
  have hrest : (rest.toList.map (⟨.rest, ·⟩)).foldl FunctionType.addParam
      ⟨required, optional, none, [], [], [], none, type⟩
        = ⟨required, optional, rest, [], [], [], none, type⟩ := by
    cases rest <;> rfl
  have htrailing : (trailing.map (⟨.required, ·⟩)).foldl FunctionType.addParam
      ⟨required, optional, rest, [], [], [], none, type⟩
        = ⟨required, optional, rest, trailing, [], [], none, type⟩ := by
    cases trailing with
    | nil => rfl
    | cons p ps =>
      exact foldl_trailing ⟨required, optional, rest, [], [], [], none, type⟩
        (h (List.cons_ne_nil p ps)) (p :: ps)
  have hlast : (restKeywords.toList.map (⟨.restKeywords, ·⟩)).foldl FunctionType.addParam
      ⟨required, optional, rest, trailing, keywords, optionalKeywords, none, type⟩
        = ⟨required, optional, rest, trailing, keywords, optionalKeywords, restKeywords, type⟩ := by
    cases restKeywords <;> rfl
  simp only [FunctionType.written, FunctionType.ofWritten, List.foldl_append]
  rw [foldl_required (.returning type) ⟨rfl, rfl⟩, foldl_optional]
  simp only [FunctionType.returning, List.nil_append, hrest, htrailing, foldl_keywords,
    foldl_optionalKeywords, hlast]

/-! ## Parameters -/

/-- What stands before the type of a parameter. -/
def ParamKind.sign : ParamKind → List Char
  | .required => []
  | .optional => ['?']
  | .rest => ['*']
  | .keyword key => key.toList ++ [':', ' ']
  | .optionalKeyword key => '?' :: (key.toList ++ [':', ' '])
  | .restKeywords => ['*', '*']

def WrittenParam.text (w : WrittenParam) : List Char := w.kind.sign ++ w.param.render.toList

theorem renderList_params (sign : String) (ps : List Param) :
    Param.renderList sign ps = ps.map fun p => sign ++ p.render := by
  induction ps with
  | nil => rfl
  | cons p ps ih => rw [Param.renderList, ih, List.map_cons]

theorem renderList_keywords (sign : String) (ks : List KeywordParam) :
    KeywordParam.renderList sign ks = ks.map fun k => k.render sign := by
  induction ks with
  | nil => rfl
  | cons k ks ih => rw [KeywordParam.renderList, ih, List.map_cons]

theorem renderOption_eq (sign : String) (p : Option Param) :
    Param.renderOption sign p = p.toList.map fun p => sign ++ p.render := by
  cases p <;> rfl

/-- The texts of the parameters, as a function renders them. -/
theorem renderParams_eq (f : FunctionType) :
    f.renderParams = join ", " (f.written.map fun w => .ofList w.text) := by
  have hsign : ∀ (k : ParamKind) (sign : String) (p : Param), k.sign = sign.toList →
      sign ++ p.render = .ofList (WrittenParam.text ⟨k, p⟩) := by
    intro k sign p hk
    rw [← String.toList_inj, String.toList_append, String.toList_ofList, WrittenParam.text, hk]
  have hkey : ∀ k : KeywordParam, k.render "" = .ofList (WrittenParam.text ⟨.keyword k.key, k.param⟩) := by
    rintro ⟨key, p⟩
    rw [← String.toList_inj, KeywordParam.render, String.toList_append, String.toList_append,
      String.toList_append]
    refine Eq.trans ?_ String.toList_ofList.symm
    rw [WrittenParam.text, ParamKind.sign]
    simp
  have hoptional : ∀ k : KeywordParam,
      k.render "?" = .ofList (WrittenParam.text ⟨.optionalKeyword k.key, k.param⟩) := by
    rintro ⟨key, p⟩
    rw [← String.toList_inj, KeywordParam.render, String.toList_append, String.toList_append,
      String.toList_append]
    refine Eq.trans ?_ String.toList_ofList.symm
    rw [WrittenParam.text, ParamKind.sign]
    simp
  obtain ⟨required, optional, rest, trailing, keywords, optionalKeywords, restKeywords, type⟩ := f
  rw [FunctionType.renderParams, renderList_params, renderList_params, renderList_params,
    renderList_keywords, renderList_keywords, renderOption_eq, renderOption_eq]
  simp only [FunctionType.written, List.map_append, List.map_map, Function.comp_def, hkey, hoptional,
    hsign .required "" _ rfl, hsign .optional "?" _ rfl, hsign .rest "*" _ rfl,
    hsign .restKeywords "**" _ rfl]

end RbsSynth.Signature
