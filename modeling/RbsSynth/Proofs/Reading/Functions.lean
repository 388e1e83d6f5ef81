import RbsSynth.Proofs.Reading.Operands
import RbsSynth.Proofs.Reading.Slots

/-!
# Parameters, blocks and procs are read

    all of ws are read  →  ws in parentheses are read as the parameters with their readings
                                                                                         (reads_params)
-/

namespace RbsSynth.Signature

open Terminal Text Value

variable {name : String} {cs : List Context} {rest : List Char}

/-- Whether a function's names can be written and its types are read. -/
structure FunctionType.IsRead (name : String) (f : FunctionType) : Prop where
  fits : f.Fits
  types : ∀ t ∈ f.types, t.IsRead name

/-! ## Parameters -/

theorem clear_paramName {c : Context} {s : String} (hc : c ∈ typeEnds) (hs : IsParamName s)
    (hrest : Stops rest) : Clear c lowerName s.toList rest := by
  have hends : ∀ c ∈ typeEnds, (∀ w ∈ c.reserved, w ∈ memberWords) ∧
      ∀ r ∈ c.rivals lowerName, r.number < lowerName.number → ∀ d ∈ stops, r.plainBefore d = true := by
    decide
  obtain ⟨hwords, hplain⟩ := hends c hc
  have hl := hrest.follows.noLabel
  obtain ⟨d, ds, rfl, hd⟩ := hrest
  have hdname := (by decide : ∀ d ∈ stops, isNameChar d = false) d hd
  refine clear_lowerName hs.1 hdname (fun _ => hl) (fun r hr hlt => hplain r hr hlt d hd) fun w hw he => ?_
  exact hs.2 (String.toList_inj.mp he ▸ hwords w hw)

/-- The symbols of a parameter's type and name. -/
def Param.symbols (p : Param) : List Symbol :=
  .nonterminal .type :: if p.name.isSome then [.terminal lowerName] else []

def Param.values (p : Param) : List Part :=
  .value (.type p.type) :: p.name.toList.map fun s => .token lowerName s.toList

theorem Param.render_toList {p : Param} (hp : ∀ s ∈ p.name, IsParamName s) : p.render.toList
    = p.type.render.toList ++ p.name.toList.flatMap (fun s => ' ' :: s.toList) := by
  obtain ⟨type, name⟩ := p
  cases name with
  | none => exact (List.append_nil _).symm
  | some s =>
    have hne : s.isEmpty = false := by
      rw [← Bool.not_eq_true, String.isEmpty_iff]
      rintro rfl
      exact (hp "" rfl).1.segment.1 rfl
    rw [render, hne, if_neg Bool.false_ne_true, String.toList_append, String.toList_append,
      List.append_assoc]
    exact congrArg _ (List.append_nil _).symm

theorem readsAll_param {p : Param} (hp : ∀ s ∈ p.name, IsParamName s) (ht : p.type.IsRead name)
    (hrest : Stops rest) : ReadsAll name typeOpens p.render.toList rest p.symbols false
      (p.mapType TypeExpr.reading).values typeEnds := by
  rw [Param.render_toList hp]
  obtain ⟨type, pname⟩ := p
  cases pname with
  | none => exact .cons (ht.asType hrest) .nil
  | some s =>
    have hname : ReadsAll name typeEnds (s.toList ++ []) rest [.terminal lowerName] false
        [.token lowerName s.toList] typeEnds := by
      rw [List.append_nil]
      exact .one (.token (fun c hc => clear_paramName hc (hp s rfl) hrest) (by decide))
    exact .cons (ht.asType (.cons (by decide) _)) hname.space

/-- The contexts in which a parameter may start. -/
def paramOpens : List Context := [.behind leftParen, .behind comma]

theorem mem_bodies_param (p : Param) : p.symbols ∈
    RulePart.bodies [.one .type, .maybeToken lowerName] := by
  obtain ⟨type, name⟩ := p
  cases name with
  | none => exact mem_bodies_must (mem_bodies_without mem_bodies_nil)
  | some s => exact mem_bodies_must (mem_bodies_with mem_bodies_nil)

theorem starts_param {p : Param} (hp : ∀ s ∈ p.name, IsParamName s) (ht : p.type.IsRead name) :
    Starts p.render.toList := by
  rw [Param.render_toList hp]
  exact Starts.append ht.starts _

/-- The key of a keyword can be written. -/
def ParamKind.Fits : ParamKind → Prop
  | .keyword key | .optionalKeyword key => IsKey key.toList
  | _ => True

structure WrittenParam.IsRead (name : String) (w : WrittenParam) : Prop where
  kind : w.kind.Fits
  param : ∀ s ∈ w.param.name, IsParamName s
  type : w.param.type.IsRead name

theorem builds_param (kind : ParamKind) (p : Param) :
    Builds (buildParam kind) (.param ⟨kind, p⟩) p.values := by
  obtain ⟨type, pname⟩ := p
  cases pname with
  | none => rfl
  | some s =>
    intro sp
    show some (Value.param ⟨kind, ⟨type, some (.ofList s.toList)⟩⟩) = _
    rw [String.ofList_toList]

theorem builds_keyword (kind : String → ParamKind) (key : String) (p : Param) (sp : Span) :
    Builds (fun vs => buildKeyword kind (.token ⟨label, .ofList (key.toList ++ [':']), sp⟩ :: vs))
      (.param ⟨kind key, p⟩) p.values := by
  have hbuild : (fun vs => buildKeyword kind
      (.token ⟨label, .ofList (key.toList ++ [':']), sp⟩ :: vs)) = buildParam (kind key) := by
    funext vs
    show buildParam (kind (dropLast (.ofList (key.toList ++ [':'])))) _ = _
    rw [dropLast_key]
    rfl
  rw [hbuild]
  exact builds_param (kind key) p

theorem reads_parameter {w : WrittenParam} (hw : w.IsRead name) (hrest : Stops rest) :
    Reads name paramOpens w.text rest (.nonterminal .parameter) false
      (.value (.param (w.mapType TypeExpr.reading))) typeEnds := by
  obtain ⟨hkind, hp, ht⟩ := hw
  obtain ⟨kind, p⟩ := w
  have hparam : ReadsAll name typeOpens p.render.toList rest p.symbols false
      (p.mapType TypeExpr.reading).values typeEnds := readsAll_param hp ht hrest
  have hkeyed : ∀ (key : String) cs, IsKey key.toList → cs ⊆ keyOpens → ReadsAll name cs
      (key.toList ++ [':'] ++ ' ' :: p.render.toList) rest (.terminal label :: p.symbols) false
      (.token label (key.toList ++ [':']) :: (p.mapType TypeExpr.reading).values) typeEnds :=
    fun key cs hkey hcs => .cons (reads_key hkey hcs _) hparam.space
  have htext : ∀ key : String, key.toList ++ [':', ' '] ++ p.render.toList
      = key.toList ++ [':'] ++ ' ' :: p.render.toList := fun key => by
    rw [List.append_assoc, List.append_assoc]
    rfl
  cases kind with
  | required =>
    exact .rule .required (by decide) (hparam.weaken (by decide) fun _ h => h) (mem_bodies_param p)
      fun _ => builds_param .required _
  | optional =>
    have hbody := ReadsAll.sign (x := ['?']) typeOpens
      (by decide : signAlone paramOpens question ['?'] typeOpens = true) hparam
    exact .rule .optionalPositional (by decide) hbody (mem_bodies_must (mem_bodies_param p))
      fun _ _ => builds_param .optional _
  | rest =>
    have halone : ∀ c ∈ paramOpens, alone c star '*' [doubleStar] = true := by decide
    have hstar : Reads name paramOpens ['*'] (p.render.toList ++ rest) (.terminal star) false
        (.token star ['*']) typeOpens := by
      refine .token (fun c hc => clear_star (halone c hc) fun cs he => ?_) (by decide)
      obtain ⟨d, y, hy, hd⟩ := starts_param hp ht
      rw [hy] at he
      exact hd (List.cons.inj he).1
    exact .rule .rest (by decide) (.cons hstar hparam) (mem_bodies_must (mem_bodies_param p))
      fun _ _ => builds_param .rest _
  | keyword key =>
    have hbody := hkeyed key paramOpens hkind (by decide)
    rw [← htext] at hbody
    exact .rule .keyword (by decide) hbody (mem_bodies_must (mem_bodies_param p))
      fun _ sp => builds_keyword .keyword key _ sp
  | optionalKeyword key =>
    have hbody := ReadsAll.sign (x := ['?']) [.sign]
      (by decide : signAlone paramOpens question ['?'] [.sign] = true)
      (hkeyed key [.sign] hkind (by decide))
    rw [← htext] at hbody
    exact .rule .optionalKeyword (by decide) hbody
      (mem_bodies_must (mem_bodies_must (mem_bodies_param p)))
      fun _ _ sp => builds_keyword .optionalKeyword key _ sp
  | restKeywords =>
    have hbody := ReadsAll.sign (x := ['*', '*']) typeOpens
      (by decide : signAlone paramOpens doubleStar ['*', '*'] typeOpens = true) hparam
    exact .rule .restKeywords (by decide) hbody (mem_bodies_must (mem_bodies_param p))
      fun _ _ => builds_param .restKeywords _

/-! ## Groups -/

/-- The contexts in which parameters in parentheses may stand. -/
def groupOpens : List Context :=
  [.behind caret, .behind leftBrace, .behind colon, .behind bar, .behind rightBracket]

/-- Parameters with commas between them. -/
def paramsText : List WrittenParam → List Char
  | [] => []
  | w :: ws => w.text ++ behindEach [',', ' '] WrittenParam.text ws

theorem renderParams_toList (f : FunctionType) : f.renderParams.toList = paramsText f.written := by
  rw [renderParams_eq]
  cases f.written with
  | nil => rfl
  | cons w ws =>
    rw [List.map_cons, join_cons, behindEach_map, String.toList_ofList]
    simp only [String.toList_ofList]
    rfl

theorem reads_params {ws : List WrittenParam} (hws : ∀ w ∈ ws, w.IsRead name) (rest : List Char) :
    Reads name groupOpens (['('] ++ (paramsText ws ++ [')'])) rest (.nonterminal .parameterGroup) false
      (.value (.params (ws.map (WrittenParam.mapType TypeExpr.reading)))) [.behind rightParen] := by
  have hopen : signAlone groupOpens leftParen ['('] [.behind leftParen] = true := by decide
  have hclose : ReadsAll name typeEnds [')'] rest [.terminal rightParen] false
      [.token rightParen [')']] [.behind rightParen] := .one (.sign (by decide))
  cases ws with
  | nil =>
    have hempty : ReadsAll name [.behind leftParen] [')'] rest [.terminal rightParen] false
        [.token rightParen [')']] [.behind rightParen] := .one (.sign (by decide))
    exact .rule .noParameters (by decide) (.sign _ hopen hempty) (by decide) fun _ _ _ => rfl
  | cons w ws =>
    have hitem : ∀ w ∈ ws, ∀ r, Stops r → ReadsAll name typeEnds ([',', ' '] ++ w.text) r
        [.terminal comma, .nonterminal .parameter] false [.token comma [','],
          .value (.param (w.mapType TypeExpr.reading))] typeEnds := fun u hu r hr =>
      .sign (x := [',']) [.behind comma] (by decide) (.space (.one
        ((reads_parameter (hws u (List.mem_cons_of_mem w hu)) hr).weaken (by decide) fun _ h => h)))
    have hmore : ReadsAll name typeEnds (behindEach [',', ' '] WrittenParam.text ws) ([')'] ++ rest)
        (symbolsOf .moreParameters ws) false
        (partsOf .moreParams (ws.map (WrittenParam.mapType TypeExpr.reading))) typeEnds :=
      readsAll_more (WrittenParam.mapType TypeExpr.reading) .moreParameters .moreParametersMore rfl rfl
        (by decide)
        (fun y => .cons (by decide) _) hitem (.cons (by decide) _) (fun _ _ _ => rfl)
        fun _ _ _ _ => rfl
    have hstops : Stops (behindEach [',', ' '] WrittenParam.text ws ++ [')'] ++ rest) := by
      rw [List.append_assoc]
      exact stops_behindEach (by decide) _ _ _ (.cons (by decide) rest)
    have hfirst := (reads_parameter (hws w List.mem_cons_self) hstops).weaken
      (by decide : [.behind leftParen] ⊆ paramOpens) fun _ h => h
    have hbody := ReadsAll.sign [.behind leftParen] hopen (.cons hfirst (hmore.append hclose))
    rw [paramsText, List.append_assoc]
    cases ws with
    | nil => exact .rule .oneParameter (by decide) hbody (by decide) fun _ _ _ => rfl
    | cons u us =>
      exact .rule .manyParameters (by decide) hbody
        (mem_bodies_must (mem_bodies_must (mem_bodies_must (mem_bodies_must mem_bodies_nil))))
        fun _ _ _ => rfl

end RbsSynth.Signature
