import RbsSynth.Proofs.Reading.Readings
import RbsSynth.Proofs.Reading.TypeNames
import RbsSynth.Signature.TypeText

/-!
# Types are read from their texts

A type is first read as the nonterminal that the form of its reading is written with (`TypeExpr.level`),
from there as any wider one.

    t.IsRead,  Stops rest  →  t.render before rest is read as a type with the value t.reading
                                                                                       (IsRead.asType)
-/

namespace RbsSynth.Signature

open Terminal Text

/-- The nonterminal that a type is written with. -/
def TypeExpr.level : TypeExpr → Nonterminal
  | .optional _ => .optional
  | .union _ => .union
  | .intersection _ => .intersection
  | _ => .simple

/-- Whether a type ends with an operand that a question mark behind it would be read with. -/
def TypeExpr.isOpen : TypeExpr → Bool
  | .proc .. => true
  | _ => false

/-- Whether a question mark behind a type makes it optional. -/
def TypeExpr.TakesMark : TypeExpr → Prop
  | .literal s => ¬ IsBareSymbol s.toList
  | t => t.looseBeforeOptional = false

/-- The texts before which a type ends. -/
def TypeExpr.Before (t : TypeExpr) (rest : List Char) : Prop :=
  Stops rest ∨ t.TakesMark ∧ ∃ r, rest = '?' :: r ∧ Stops r

/-- Whether the text of a type is read as its reading. -/
structure TypeExpr.IsRead (name : String) (t : TypeExpr) : Prop where
  starts : ∃ d y, t.render.toList = d :: y ∧ d ≠ '*'
  reads : ∀ rest, t.Before rest → Reads name typeOpens t.render.toList rest (.nonterminal t.reading.level)
    t.reading.isOpen (.value (.type t.reading)) typeEnds

theorem TypeExpr.Before.follows {t : TypeExpr} {rest : List Char} (h : t.Before rest) :
    Follows rest := by
  rcases h with h | ⟨_, r, rfl, hr⟩
  · exact h.follows
  · exact ⟨'?', r, rfl, by decide, fun _ => hr⟩

variable {name : String} {cs ds : List Context} {x rest : List Char} {t : TypeExpr}
  {ts : List TypeExpr} {n : TypeName} {m k : Nonterminal} {b : Bool} {v : Value}

/-! ## Wider forms -/

/-- A rule that only gives another name to what it reads. -/
theorem Reads.promote {r : Rule} (hshape : r.shape = (m, [.one k])) (hr : r ≠ .root)
    (hbuild : ∀ sp, r.build name sp [v] = some v)
    (h : Reads name cs x rest (.nonterminal k) b (.value v) ds) :
    Reads name cs x rest (.nonterminal m) r.isOpen (.value v) ds := by
  have hbuilds : ∀ sp, Builds (r.build name sp) v [.value v] := hbuild
  have hread := Reads.rule r hr (.one h) (by rw [hshape]; exact List.mem_singleton_self _) hbuilds
  rw [hshape] at hread
  exact hread

theorem Reads.asOptional (h : Reads name cs x rest (.nonterminal .simple) b (.value v) ds) :
    Reads name cs x rest (.nonterminal .optional) true (.value v) ds :=
  h.promote (r := .plainOptional) rfl (by decide) fun _ => rfl

theorem Reads.asIntersection (h : Reads name cs x rest (.nonterminal .optional) b (.value v) ds) :
    Reads name cs x rest (.nonterminal .intersection) false (.value v) ds :=
  h.promote (r := .plainIntersection) rfl (by decide) fun _ => rfl

theorem Reads.asUnion (h : Reads name cs x rest (.nonterminal .intersection) b (.value v) ds) :
    Reads name cs x rest (.nonterminal .union) false (.value v) ds :=
  h.promote (r := .plainUnion) rfl (by decide) fun _ => rfl

theorem Reads.asType (h : Reads name cs x rest (.nonterminal .union) b (.value v) ds) :
    Reads name cs x rest (.nonterminal .type) false (.value v) ds :=
  h.promote (r := .type) rfl (by decide) fun _ => rfl

namespace TypeExpr.IsRead

theorem asOptional (h : t.IsRead name) (hu : t.looseInReturn = false) (hrest : Stops rest) :
    Reads name typeOpens t.render.toList rest (.nonterminal .optional) true (.value (.type t.reading))
      typeEnds := by
  have hread := h.reads rest (.inl hrest)
  have hunion := reading_ne_union (t := t) (by rintro us rfl; cases hu)
  have hintersection := reading_ne_intersection (t := t) (by rintro us rfl; cases hu)
  generalize t.reading = u at hread hunion hintersection ⊢
  cases u with
  | union us => exact absurd rfl (hunion us)
  | intersection us => exact absurd rfl (hintersection us)
  | optional => exact hread.open
  | _ => exact hread.asOptional

theorem asIntersection (h : t.IsRead name) (hu : ∀ us, t ≠ .union us) (hrest : Stops rest) :
    Reads name typeOpens t.render.toList rest (.nonterminal .intersection) false
      (.value (.type t.reading)) typeEnds := by
  have hread := h.reads rest (.inl hrest)
  have hunion := reading_ne_union hu
  generalize t.reading = u at hread hunion ⊢
  cases u with
  | union us => exact absurd rfl (hunion us)
  | intersection => exact hread
  | optional => exact hread.asIntersection
  | _ => exact hread.asOptional.asIntersection

theorem asType (h : t.IsRead name) (hrest : Stops rest) :
    Reads name typeOpens t.render.toList rest (.nonterminal .type) false (.value (.type t.reading))
      typeEnds := by
  have hread := h.reads rest (.inl hrest)
  generalize t.reading = u at hread ⊢
  cases u with
  | union => exact hread.asType
  | intersection => exact hread.asUnion.asType
  | optional => exact hread.asIntersection.asUnion.asType
  | _ => exact hread.asOptional.asIntersection.asUnion.asType

/-- A type in parentheses is a simple one. -/
theorem inParens (h : t.IsRead name) (rest : List Char) :
    Reads name typeOpens (inParens t.render).toList rest (.nonterminal .simple) false
      (.value (.type t.reading)) typeEnds := by
  have htext : (Signature.inParens t.render).toList = ['('] ++ (t.render.toList ++ [')']) := by
    rw [Signature.inParens, String.toList_append, String.toList_append, List.append_assoc]
    rfl
  have hclose : ReadsAll name typeEnds [')'] rest [.terminal rightParen] false
      [.token rightParen [')']] typeEnds := .one (.sign (by decide))
  have hbody : ReadsAll name typeOpens (['('] ++ (t.render.toList ++ [')'])) rest
      [.terminal leftParen, .nonterminal .type, .terminal rightParen] false
      [.token leftParen ['('], .value (.type t.reading), .token rightParen [')']] typeEnds :=
    .sign typeOpens (by decide) (.cons (h.asType (.cons (by decide) rest)) hclose)
  rw [htext]
  exact .rule .parenthesized (by decide) hbody (by decide) fun _ _ _ => rfl

end TypeExpr.IsRead

/-! ## Arguments -/

/-- The texts of some types behind the first. -/
def typesBehind (ts : List TypeExpr) : List Char := behindEach [',', ' '] (·.render.toList) ts

theorem renderList_eq (ts : List TypeExpr) : TypeExpr.renderList ts = ts.map TypeExpr.render := by
  induction ts with
  | nil => rfl
  | cons t ts ih => rw [TypeExpr.renderList, ih, List.map_cons]

theorem join_renderList (t : TypeExpr) (ts : List TypeExpr) :
    (join ", " (TypeExpr.renderList (t :: ts))).toList = t.render.toList ++ typesBehind ts := by
  rw [renderList_eq, List.map_cons, join_cons, behindEach_map]
  rfl

theorem bracketed_cons (t : TypeExpr) (ts : List TypeExpr) :
    (bracketed (TypeExpr.renderList (t :: ts))).toList
      = ['['] ++ (t.render.toList ++ (typesBehind ts ++ [']'])) := by
  have htext : bracketed (TypeExpr.renderList (t :: ts))
      = "[" ++ join ", " (TypeExpr.renderList (t :: ts)) ++ "]" := rfl
  rw [htext, String.toList_append, String.toList_append, join_renderList, List.append_assoc,
    List.append_assoc]
  rfl

theorem stops_behindEach {α : Type} {d : Char} (hd : d ∈ stops) (sep : List Char)
    (text : α → List Char) (as : List α) (hrest : Stops rest) :
    Stops (behindEach (d :: sep) text as ++ rest) := by
  cases as with
  | nil => exact hrest
  | cons a as => exact .cons hd _

/-- What some types are read as. -/
def readTypes (ts : List TypeExpr) : List Part := partsOf .types (ts.map TypeExpr.reading)

theorem readsAll_moreTypes (hts : ∀ t ∈ ts, t.IsRead name) (hrest : Stops rest) :
    ReadsAll name typeEnds (typesBehind ts) rest (symbolsOf .moreTypes ts) false
      (readTypes ts) typeEnds := by
  have hitem : ∀ t ∈ ts, ∀ r, Stops r → ReadsAll name typeEnds ([',', ' '] ++ t.render.toList) r
      [.terminal comma, .nonterminal .type] false [.token comma [','], .value (.type t.reading)] typeEnds :=
    fun t ht r hr =>
      .sign (x := [',']) typeOpens (by decide) (.space (.one ((hts t ht).asType hr)))
  exact readsAll_more TypeExpr.reading .moreTypes .moreTypesMore rfl rfl (by decide)
    (fun y => .cons (by decide) _) hitem hrest (fun _ _ _ => rfl) fun _ _ _ _ => rfl

/-- The arguments behind a name, if there are any. -/
theorem readsAll_args (hts : ∀ t ∈ ts, t.IsRead name) (hcs : cs ⊆ typeEnds)
    (hopen : signAlone cs leftBracket ['['] typeOpens = true) :
    ReadsAll name cs (bracketed (TypeExpr.renderList ts)).toList rest (symbolsOf .typeArguments ts)
      false (readTypes ts) typeEnds := by
  cases ts with
  | nil => exact ReadsAll.nil.weaken (fun _ h => h) hcs
  | cons t ts =>
    have hclose : ReadsAll name typeEnds [']'] rest [.terminal rightBracket] false
        [.token rightBracket [']']] typeEnds := .one (.sign (by decide))
    have hmore := readsAll_moreTypes (fun u hu => hts u (List.mem_cons_of_mem t hu))
      (.cons (by decide) rest : Stops ([']'] ++ rest))
    have hstops : Stops (typesBehind ts ++ [']'] ++ rest) := by
      rw [List.append_assoc]
      exact stops_behindEach (by decide) _ _ _ (.cons (by decide) rest)
    have hfirst := (hts t List.mem_cons_self).asType hstops
    have hbody := ReadsAll.sign typeOpens hopen (.cons hfirst (hmore.append hclose))
    rw [bracketed_cons]
    refine .one (.rule .typeArguments (by decide) hbody ?_ ?_)
    · exact mem_bodies_must (mem_bodies_must (mem_bodies_maybe ts (mem_bodies_must mem_bodies_nil)))
    · cases ts <;> exact fun _ _ _ => rfl

theorem follows_bracketed (hrest : Follows rest) :
    Follows ((bracketed (TypeExpr.renderList ts)).toList ++ rest) := by
  cases ts with
  | nil => exact hrest
  | cons t ts =>
    rw [bracketed_cons]
    exact ⟨'[', _, rfl, List.mem_cons_self, fun h => by cases h⟩

/-- A name with its arguments. -/
theorem readsAll_applied
    (hn : ∀ r, Follows r → Reads name cs n.render.toList r (.nonterminal k) false (.value (.name n)) ds)
    (hds : ds ⊆ typeEnds) (hopen : signAlone ds leftBracket ['['] typeOpens = true)
    (hts : ∀ t ∈ ts, t.IsRead name) (hrest : Follows rest) :
    ReadsAll name cs (n.render ++ bracketed (TypeExpr.renderList ts)).toList rest
      (.nonterminal k :: symbolsOf .typeArguments ts) false (.value (.name n) :: readTypes ts)
      typeEnds := by
  rw [String.toList_append]
  exact .cons (hn _ (follows_bracketed hrest)) (readsAll_args hts hds hopen)

theorem mem_bodies_applied (k : Nonterminal) (ts : List TypeExpr) :
    .nonterminal k :: symbolsOf .typeArguments ts
      ∈ RulePart.bodies [.one k, .maybe .typeArguments] := by
  have h := mem_bodies_must (s := .nonterminal k) (mem_bodies_maybe (m := .typeArguments) ts mem_bodies_nil)
  rwa [List.append_nil] at h

theorem readsAll_classApplied (hn : n.IsClass) (hcs : cs ⊆ classOpens)
    (hts : ∀ t ∈ ts, t.IsRead name) (hrest : Follows rest) :
    ReadsAll name cs (n.render ++ bracketed (TypeExpr.renderList ts)).toList rest
      (.nonterminal .className :: symbolsOf .typeArguments ts) false
      (.value (.name n) :: readTypes ts) typeEnds :=
  readsAll_applied (fun _ hr => reads_className hn hcs hr) (by decide) (by decide) hts hrest

theorem readsAll_interfaceApplied (hn : n.IsInterface) (hcs : cs ⊆ interfaceOpens)
    (hts : ∀ t ∈ ts, t.IsRead name) (hrest : Follows rest) :
    ReadsAll name cs (n.render ++ bracketed (TypeExpr.renderList ts)).toList rest
      (.nonterminal .interfacePath :: symbolsOf .typeArguments ts) false
      (.value (.name n) :: readTypes ts) typeEnds :=
  readsAll_applied (fun _ hr => reads_interfacePath hn hcs hr) (by decide) (by decide) hts
    hrest

end RbsSynth.Signature
