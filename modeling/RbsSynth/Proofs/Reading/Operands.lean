import RbsSynth.Proofs.Reading.TypeForms

/-!
# Optionals, unions, intersections, tuples and records

An operand that is looser than its place stands in parentheses.

    a is no union,  all operands are read  →  a | b | … is read as the union of their readings
                                                                                         (isRead_union)
-/

namespace RbsSynth.Signature

open Terminal Text

variable {name : String} {rest : List Char} {t : TypeExpr} {ts : List TypeExpr}

/-- The text of an operand, in parentheses where `loose` says so. -/
def operand (loose : TypeExpr → Bool) (t : TypeExpr) : String :=
  if loose t then inParens t.render else t.render

theorem starts_operand (h : t.IsRead name) (loose : TypeExpr → Bool) :
    Starts (operand loose t).toList := by
  rw [operand]
  split
  · rw [inParens, String.toList_append, String.toList_append, List.append_assoc]
    exact ⟨'(', _, rfl, by decide⟩
  · exact h.starts

/-! ## Optionals -/

theorem isRead_optional (h : t.IsRead name) : (TypeExpr.optional t).IsRead name where
  starts := by
    rw [TypeExpr.render, String.toList_append]
    exact (starts_operand h TypeExpr.looseBeforeOptional).append _
  reads := by
    intro rest hrest
    have hstops : Stops rest := by
      rcases hrest with h | ⟨hm, _⟩
      · exact h
      · cases hm
    by_cases hmark : (TypeExpr.optional t).IsMarkedSymbol
    · -- the mark belongs to the symbol
      obtain ⟨s, rfl, hs⟩ : ∃ s, t = .literal s ∧ IsBareSymbol s.toList := by
        cases t with
        | literal s => exact ⟨s, rfl, hmark⟩
        | _ => cases hmark
      have hreading : (TypeExpr.optional (.literal s)).reading = .literal (s ++ "?") := if_pos hs
      have hrender : (TypeExpr.optional (.literal s)).render = (TypeExpr.literal (s ++ "?")).render := by
        rw [TypeExpr.render, TypeExpr.render, TypeExpr.render]
        exact congrArg (· ++ "?") (if_neg Bool.false_ne_true)
      rw [hrender, hreading]
      exact (isRead_symbol (.inr (isClosedSymbol_mark hs))).reads rest (.inl hstops)
    · have hoperand : Reads name typeOpens (operand TypeExpr.looseBeforeOptional t).toList (['?'] ++ rest)
          (.nonterminal .simple) false (.value (.type t.reading)) typeEnds := by
        rw [operand]
        split
        · exact h.inParens _
        · next hloose =>
          rw [Bool.not_eq_true] at hloose
          have hmarked : t.TakesMark := by
            cases t with
            | literal s => exact hmark
            | _ => exact hloose
          have hread := h.reads ('?' :: rest) (.inr ⟨hmarked, rest, rfl, hstops⟩)
          cases t with
          | union => cases hloose
          | intersection => cases hloose
          | optional => cases hloose
          | proc => cases hloose
          | _ => exact hread
      have hsign : ReadsAll name typeEnds ['?'] rest [.terminal question] false
          [.token question ['?']] typeEnds := .one (.sign (by decide))
      rw [TypeExpr.render, String.toList_append, TypeExpr.reading_unmarked hmark]
      exact .rule .optional (by decide) (.cons hoperand hsign) (by decide) fun _ _ => rfl

/-! ## Unions and intersections -/

/-- A list of operands, read from the left. -/
theorem reads_operands (plain r : Rule) {m k : Nonterminal} {c : Terminal} {s : List Char} {b : Bool}
    {text : TypeExpr → List Char} {f : TypeExpr → TypeExpr → TypeExpr}
    (hplain : plain.shape = (m, [.one k])) (hr : r.shape = (m, [.one m, .token c, .one k]))
    (hroot : plain ≠ .root ∧ r ≠ .root ∧ plain.isOpen = false ∧ r.isOpen = false)
    (hsign : signAlone typeEnds c s typeOpens = true) {a : TypeExpr}
    (hops : ∀ t ∈ a :: ts, ∀ rest, Stops rest → Reads name typeOpens (text t) rest (.nonterminal k) b
      (.value (.type t.reading)) typeEnds) (hrest : Stops rest)
    (hone : ∀ t sp, plain.build name sp [.type t] = some (.type t))
    (hmore : ∀ t u sp, Builds (r.build name sp) (.type (f t u))
      [.value (.type t), .token c s, .value (.type u)]) :
    Reads name typeOpens (text a ++ behindEach (' ' :: (s ++ [' '])) text ts) rest (.nonterminal m)
      false (.value (.type ((ts.map TypeExpr.reading).foldl f a.reading))) typeEnds := by
  induction ts using List.reverseRecOn generalizing rest with
  | nil =>
    have hread := (hops a List.mem_cons_self rest hrest).promote hplain hroot.1 (hone a.reading)
    rw [hroot.2.2.1] at hread
    rw [behindEach, List.flatMap_nil, List.append_nil]
    exact hread
  | append_singleton ts u ih =>
    have hlast := hops u (by rw [← List.cons_append]; exact List.mem_append_right _ List.mem_cons_self)
      rest hrest
    have hfirst := ih (fun t ht => hops t (by
        rw [← List.cons_append]
        exact List.mem_append_left _ ht))
      (Stops.cons (d := ' ') (by decide) (s ++ (' ' :: text u) ++ rest))
    have hop : ReadsAll name typeEnds (s ++ (' ' :: text u)) rest [.terminal c, .nonterminal k] b
        [.token c s, .value (.type u.reading)] typeEnds := .sign typeOpens hsign (.space (.one hlast))
    have hread := Reads.rule r hroot.2.1 (.cons hfirst hop.space)
      (by rw [hr]; exact List.mem_singleton_self _)
      (hmore ((ts.map TypeExpr.reading).foldl f a.reading) u.reading)
    have htext : text a ++ behindEach (' ' :: (s ++ [' '])) text (ts ++ [u])
        = text a ++ behindEach (' ' :: (s ++ [' '])) text ts ++ (' ' :: (s ++ (' ' :: text u))) := by
      rw [behindEach, List.flatMap_append, List.flatMap_singleton, List.append_assoc, List.cons_append,
        List.append_assoc]
      rfl
    rw [hr, hroot.2.2.2] at hread
    rw [htext, List.map_append, List.foldl_append]
    exact hread

theorem renderOperands_eq (loose : TypeExpr → Bool) (ts : List TypeExpr) :
    TypeExpr.renderOperands loose ts = ts.map (operand loose) := by
  induction ts with
  | nil => rfl
  | cons t ts ih =>
    rw [TypeExpr.renderOperands, ih, List.map_cons]
    rfl

theorem join_operands (sep : String) (loose : TypeExpr → Bool) (t : TypeExpr) (ts : List TypeExpr) :
    (join sep (TypeExpr.renderOperands loose (t :: ts))).toList
      = (operand loose t).toList ++ behindEach sep.toList (fun u => (operand loose u).toList) ts := by
  rw [renderOperands_eq, List.map_cons, join_cons, behindEach_map]

theorem foldl_orElse (ts us : List TypeExpr) :
    us.foldl TypeExpr.orElse (.union ts) = .union (ts ++ us) := by
  induction us generalizing ts with
  | nil => rw [List.append_nil]; rfl
  | cons u us ih =>
    rw [List.foldl_cons, TypeExpr.orElse, ih, List.append_assoc]
    rfl

theorem foldl_andAlso (ts us : List TypeExpr) :
    us.foldl TypeExpr.andAlso (.intersection ts) = .intersection (ts ++ us) := by
  induction us generalizing ts with
  | nil => rw [List.append_nil]; rfl
  | cons u us ih =>
    rw [List.foldl_cons, TypeExpr.andAlso, ih, List.append_assoc]
    rfl

theorem orElse_eq {a : TypeExpr} (ha : ∀ vs, a ≠ .union vs) (b : TypeExpr) :
    a.orElse b = .union [a, b] := by
  rw [TypeExpr.orElse.eq_def]
  split
  · next ts => exact absurd rfl (ha ts)
  · rfl

theorem andAlso_eq {a : TypeExpr} (ha : ∀ vs, a ≠ .intersection vs) (b : TypeExpr) :
    a.andAlso b = .intersection [a, b] := by
  rw [TypeExpr.andAlso.eq_def]
  split
  · next ts => exact absurd rfl (ha ts)
  · rfl

theorem starts_operands {sep : String} {loose : TypeExpr → Bool} {a : TypeExpr} (h : a.IsRead name)
    (us : List TypeExpr) : Starts (join sep (TypeExpr.renderOperands loose (a :: us))).toList := by
  rw [join_operands]
  exact (starts_operand h loose).append _

theorem isRead_union {a b : TypeExpr} {us : List TypeExpr} (ha : ∀ vs, a ≠ .union vs)
    (hts : ∀ t ∈ a :: b :: us, t.IsRead name) : (TypeExpr.union (a :: b :: us)).IsRead name where
  starts := by
    rw [TypeExpr.render]
    exact starts_operands (hts a List.mem_cons_self) _
  reads := by
    intro rest hrest
    have hstops : Stops rest := by
      rcases hrest with h | ⟨hm, _⟩
      · exact h
      · cases hm
    have hops : ∀ t ∈ a :: b :: us, ∀ rest, Stops rest →
        Reads name typeOpens (operand TypeExpr.looseInUnion t).toList rest (.nonterminal .intersection)
          false (.value (.type t.reading)) typeEnds := by
      intro t ht rest hrest
      rw [operand]
      split
      · exact ((hts t ht).inParens rest).asOptional.asIntersection
      · next hloose =>
        refine (hts t ht).asIntersection ?_ hrest
        rintro vs rfl
        exact hloose rfl
    have hread := reads_operands .plainUnion .union (s := ['|']) (f := .orElse) rfl rfl (by decide)
      (by decide) hops hstops (fun _ _ => rfl) fun _ _ _ _ => rfl
    rw [List.map_cons, List.foldl_cons, orElse_eq (TypeExpr.reading_ne_union ha), foldl_orElse] at hread
    rw [TypeExpr.render, join_operands, TypeExpr.reading_eq fun _ h => by cases h]
    exact hread

theorem isRead_intersection {a b : TypeExpr} {us : List TypeExpr} (ha : ∀ vs, a ≠ .intersection vs)
    (hts : ∀ t ∈ a :: b :: us, t.IsRead name) :
    (TypeExpr.intersection (a :: b :: us)).IsRead name where
  starts := by
    rw [TypeExpr.render]
    exact starts_operands (hts a List.mem_cons_self) _
  reads := by
    intro rest hrest
    have hstops : Stops rest := by
      rcases hrest with h | ⟨hm, _⟩
      · exact h
      · cases hm
    have hops : ∀ t ∈ a :: b :: us, ∀ rest, Stops rest →
        Reads name typeOpens (operand TypeExpr.looseInIntersection t).toList rest
          (.nonterminal .optional) true (.value (.type t.reading)) typeEnds := by
      intro t ht rest hrest
      rw [operand]
      split
      · exact ((hts t ht).inParens rest).asOptional
      · next hloose =>
        refine (hts t ht).asOptional ?_ hrest
        cases t with
        | union => exact absurd rfl hloose
        | intersection => exact absurd rfl hloose
        | _ => rfl
    have hread := reads_operands .plainIntersection .intersection (s := ['&']) (f := .andAlso) rfl rfl
      (by decide) (by decide) hops hstops (fun _ _ => rfl) fun _ _ _ _ => rfl
    rw [List.map_cons, List.foldl_cons, andAlso_eq (TypeExpr.reading_ne_intersection ha),
      foldl_andAlso] at hread
    rw [TypeExpr.render, join_operands, TypeExpr.reading_eq fun _ h => by cases h]
    exact hread

/-! ## Tuples -/

theorem isRead_emptyTuple : (TypeExpr.tuple []).IsRead name where
  starts := ⟨'[', _, rfl, by decide⟩
  reads := by
    intro rest _
    have hclose : ReadsAll name typeOpens [']'] rest [.terminal rightBracket] false
        [.token rightBracket [']']] typeEnds := .one (.sign (by decide))
    have hbody : ReadsAll name typeOpens "[ ]".toList rest
        [.terminal leftBracket, .terminal rightBracket] false
        [.token leftBracket ['['], .token rightBracket [']']] typeEnds :=
      .sign (x := ['[']) [.behind leftBracket] (by decide)
        (hclose.weaken (by decide) fun _ h => h).space
    rw [TypeExpr.render]
    exact .rule .emptyTuple (by decide) hbody (by decide) fun _ _ _ => rfl

theorem isRead_tuple (hts : ∀ t ∈ ts, t.IsRead name) : (TypeExpr.tuple ts).IsRead name := by
  cases ts with
  | nil => exact isRead_emptyTuple
  | cons t ts =>
    have htext : (TypeExpr.tuple (t :: ts)).render.toList
        = ['['] ++ (t.render.toList ++ (typesBehind ts ++ [']'])) := by
      rw [TypeExpr.render, String.toList_append, String.toList_append, join_renderList,
        List.append_assoc, List.append_assoc]
      · rfl
      · exact List.cons_ne_nil t ts
    refine ⟨⟨'[', _, htext, by decide⟩, fun rest _ => ?_⟩
    have hclose : ReadsAll name typeEnds [']'] rest [.terminal rightBracket] false
        [.token rightBracket [']']] typeEnds := .one (.sign (by decide))
    have hmore := readsAll_moreTypes (fun u hu => hts u (List.mem_cons_of_mem t hu))
      (.cons (by decide) rest : Stops ([']'] ++ rest))
    have hstops : Stops (typesBehind ts ++ [']'] ++ rest) := by
      rw [List.append_assoc]
      exact stops_behindEach (by decide) _ _ _ (.cons (by decide) rest)
    have hbody := ReadsAll.sign typeOpens
      (by decide : signAlone typeOpens leftBracket ['['] typeOpens = true)
      (.cons ((hts t List.mem_cons_self).asType hstops) (hmore.append hclose))
    rw [htext, TypeExpr.reading_eq fun _ h => by cases h]
    refine .rule .tuple (by decide) hbody ?_ ?_
    · exact mem_bodies_must (mem_bodies_must (mem_bodies_maybe ts (mem_bodies_must mem_bodies_nil)))
    · cases ts <;> exact fun _ _ _ => rfl

/-! ## Records -/

/-- The contexts behind a sign or comma in front of a label. -/
def keyOpens : List Context := [.behind leftBrace, .behind comma, .behind leftParen, .sign]

theorem alone_label : ∀ c ∈ keyOpens,
    ('_' :: lettersFrom 97 26).all (alone c label · [selfDot, selfOptionalDot]) = true := by
  decide

/-- A key with its colon, before a blank. -/
theorem reads_key {key : String} {cs : List Context} (hkey : IsKey key.toList) (hcs : cs ⊆ keyOpens)
    (y : List Char) : Reads name cs (key.toList ++ [':']) (' ' :: y) (.terminal label) false
      (.token label (key.toList ++ [':'])) typeOpens := by
  refine .token (fun c hc => clear_label hkey (alone_label c (hcs hc)) fun ds he => ?_) ?_
  · exact absurd (List.cons.inj he).1 (by decide)
  · exact List.all_eq_true.mpr fun c hc =>
      (by decide : ∀ c ∈ keyOpens, typeOpens.contains (c.next label) = true) c (hcs hc)

theorem dropLast_key (key : String) : dropLast (.ofList (key.toList ++ [':'])) = key := by
  rw [dropLast, String.toList_ofList, List.dropLast_concat, String.ofList_toList]

/-- A key with its colon and the type behind. -/
theorem readsAll_keyed {key : String} {cs : List Context} (hkey : IsKey key.toList)
    (hcs : cs ⊆ keyOpens) (ht : t.IsRead name) (hrest : Stops rest) :
    ReadsAll name cs (key.toList ++ [':'] ++ ' ' :: t.render.toList) rest
      [.terminal label, .nonterminal .type] false
      [.token label (key.toList ++ [':']), .value (.type t.reading)] typeEnds :=
  .cons (reads_key hkey hcs _) (.space (.one (ht.asType hrest)))

theorem RecordField.render_toList (f : RecordField) : f.render.toList
    = (if f.required then [] else ['?']) ++ (f.key.toList ++ [':'] ++ ' ' :: f.type.render.toList) := by
  obtain ⟨key, type, required⟩ := f
  rw [render, String.toList_append, String.toList_append, String.toList_append, List.append_assoc,
    List.append_assoc, List.append_assoc]
  cases required <;> rfl

theorem reads_field {f : RecordField} {cs : List Context} (hkey : IsKey f.key.toList)
    (hcs : cs ⊆ [.behind leftBrace, .behind comma]) (ht : f.type.IsRead name) (hrest : Stops rest) :
    Reads name cs f.render.toList rest (.nonterminal .recordField) false
      (.value (.field (f.mapType TypeExpr.reading))) typeEnds := by
  obtain ⟨key, type, required⟩ := f
  have hfield : ∀ b, some (Value.field ⟨dropLast (.ofList (key.toList ++ [':'])), type.reading, b⟩)
      = some (.field ⟨key, type.reading, b⟩) := fun b => by rw [dropLast_key]
  rw [RecordField.render_toList]
  cases required with
  | true =>
    have hbody := readsAll_keyed hkey (fun c hc => (by decide : [Context.behind leftBrace,
      .behind comma] ⊆ keyOpens) (hcs hc)) ht hrest
    exact .rule .recordField (by decide) hbody (by decide) fun _ _ => hfield true
  | false =>
    have hbody : ReadsAll name [.behind leftBrace, .behind comma]
        (['?'] ++ (key.toList ++ [':'] ++ ' ' :: type.render.toList)) rest
        [.terminal question, .terminal label, .nonterminal .type] false
        [.token question ['?'], .token label (key.toList ++ [':']), .value (.type type.reading)] typeEnds :=
      .sign [.sign] (by decide) (readsAll_keyed hkey (by decide) ht hrest)
    exact .rule .optionalRecordField (by decide) (hbody.weaken hcs fun _ h => h) (by decide)
      fun _ _ _ => hfield false

theorem renderList_fields (fs : List RecordField) :
    RecordField.renderList fs = fs.map RecordField.render := by
  induction fs with
  | nil => rfl
  | cons f fs ih => rw [RecordField.renderList, ih, List.map_cons]

theorem isRead_record {f : RecordField} {fs : List RecordField}
    (hkeys : ∀ g ∈ f :: fs, IsKey g.key.toList) (hts : ∀ g ∈ f :: fs, g.type.IsRead name) :
    (TypeExpr.record (f :: fs)).IsRead name := by
  have htext : (TypeExpr.record (f :: fs)).render.toList = ['\x7b'] ++ (' ' :: (f.render.toList ++
      (behindEach [',', ' '] (·.render.toList) fs ++ (' ' :: ['\x7d'])))) := by
    rw [TypeExpr.render, renderList_fields, String.toList_append, String.toList_append, List.map_cons,
      join_cons, behindEach_map, List.append_assoc, List.append_assoc]
    rfl
  refine ⟨⟨'\x7b', _, htext, by decide⟩, fun rest _ => ?_⟩
  have hclose : ReadsAll name typeEnds ['\x7d'] rest [.terminal rightBrace] false
      [.token rightBrace ['\x7d']] typeEnds := .one (.sign (by decide))
  have hitem : ∀ g ∈ fs, ∀ r, Stops r → ReadsAll name typeEnds ([',', ' '] ++ g.render.toList) r
      [.terminal comma, .nonterminal .recordField] false [.token comma [','],
        .value (.field (g.mapType TypeExpr.reading))] typeEnds := fun g hg r hr =>
    .sign (x := [',']) [.behind comma] (by decide) (.space (.one
      (reads_field (hkeys g (List.mem_cons_of_mem f hg)) (by decide)
        (hts g (List.mem_cons_of_mem f hg)) hr)))
  have hmore : ReadsAll name typeEnds (behindEach [',', ' '] (·.render.toList) fs)
      (' ' :: ['\x7d'] ++ rest) (symbolsOf .moreRecordFields fs) false
      (partsOf .fields (fs.map (RecordField.mapType TypeExpr.reading))) typeEnds :=
    readsAll_more (RecordField.mapType TypeExpr.reading) .moreRecordFields .moreRecordFieldsMore rfl rfl
      (by decide)
      (fun y => .cons (by decide) _) hitem (.cons (by decide) _) (fun _ _ _ => rfl) fun _ _ _ _ => rfl
  have hfirst : Reads name [.behind leftBrace] f.render.toList
      (behindEach [',', ' '] (·.render.toList) fs ++ (' ' :: ['\x7d']) ++ rest)
      (.nonterminal .recordField) false (.value (.field (f.mapType TypeExpr.reading))) typeEnds := by
    refine reads_field (hkeys f List.mem_cons_self) (by decide) (hts f List.mem_cons_self) ?_
    rw [List.append_assoc]
    exact stops_behindEach (by decide) _ _ _ (.cons (by decide) _)
  have hbody := ReadsAll.sign (x := ['\x7b']) [.behind leftBrace]
    (by decide : signAlone typeOpens leftBrace ['\x7b'] [.behind leftBrace] = true)
    (.space (.cons hfirst (hmore.append hclose.space)))
  rw [htext, TypeExpr.reading_eq fun _ h => by cases h]
  refine .rule .record (by decide) hbody ?_ ?_
  · exact mem_bodies_must (mem_bodies_must (mem_bodies_maybe fs (mem_bodies_must mem_bodies_nil)))
  · cases fs <;> exact fun _ _ _ => rfl

end RbsSynth.Signature
