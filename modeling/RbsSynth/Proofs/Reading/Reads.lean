import Mathlib.Data.List.Forall2
import Mathlib.Data.List.Induction
import RbsSynth.Proofs.Pieces
import RbsSynth.Proofs.Scanning.Scans
import RbsSynth.Proofs.Scanning.Tokens

/-!
# Reading a text as a symbol

`Reads name cs x rest X b part ds`: in every context of `cs` the text `x`, before `rest`, is read as
the symbol `X` with the value that `part` tells, and leaves a context of `ds`; if `b` is false, a question
mark behind it would not be read as a part of it.  `ReadsAll` is the same for the body of a rule, with
blanks between its symbols.

    ReadsAll … r's body … parts,  r builds v from parts  →  Reads … r's nonterminal … v     (Reads.rule)
    no item is fused with the next  →  Reads … x₁, x₂, …, xₙ …                             (reads_more)
-/

namespace RbsSynth.Signature

open Text

/-- What is known of a value that was read; of a token it is not known where it stood. -/
inductive Part
  | token (t : Terminal) (x : List Char)
  | value (v : Value)

inductive Part.Is : Part → Value → Prop
  | token (t : Terminal) (x : List Char) (s : Span) : Is (.token t x) (.token ⟨t, .ofList x, s⟩)
  | value (v : Value) : Is (.value v) v

/-- Whether `f` gives `v` for all values that some parts tell. -/
def Builds (f : List Value → Option Value) (v : Value) : List Part → Prop
  | [] => f [] = some v
  | .token t x :: ps => ∀ s, Builds (fun vs => f (.token ⟨t, .ofList x, s⟩ :: vs)) v ps
  | .value u :: ps => Builds (fun vs => f (u :: vs)) v ps

theorem Builds.eq {f : List Value → Option Value} {v : Value} {ps : List Part} {vs : List Value}
    (h : Builds f v ps) (hps : List.Forall₂ Part.Is ps vs) : f vs = some v := by
  induction hps generalizing f with
  | nil => exact h
  | cons hp _ ih =>
    cases hp with
    | token t x s => exact ih (h s)
    | value u => exact ih h

section

variable (name : String)

def Reads (cs : List Context) (x rest : List Char) (X : Symbol) (b : Bool) (part : Part)
    (ds : List Context) : Prop :=
  ∀ c ∈ cs, ∀ p, ∃ w n c' b', Derives name X b' w n ∧ (b' = true → b = true) ∧ part.Is n.value ∧
    Scans c p (x ++ rest) w [] c' (p.advance x) rest ∧ c' ∈ ds

def ReadsAll (cs : List Context) (x rest : List Char) (xs : List Symbol) (b : Bool)
    (parts : List Part) (ds : List Context) : Prop :=
  ∀ c ∈ cs, ∀ p, ∃ w ns c' b', DerivesAll name xs b' w ns ∧ (b' = true → b = true) ∧
    List.Forall₂ Part.Is parts (ns.map (·.value)) ∧
    Scans c p (x ++ rest) w [] c' (p.advance x) rest ∧ c' ∈ ds

end

variable {name : String} {cs cs' ds ds' : List Context} {x y rest : List Char} {X : Symbol}
  {xs ys : List Symbol} {b : Bool} {part : Part} {parts parts' : List Part} {v : Value}

/-! ## Tokens -/

theorem Reads.token {t : Terminal} (hx : ∀ c ∈ cs, Clear c t x rest)
    (hds : cs.all (fun c => ds.contains (c.next t)) = true) :
    Reads name cs x rest (.terminal t) false (.token t x) ds := by
  intro c hc p
  refine ⟨_, _, _, _, .token ⟨t, .ofList x, ⟨p, p.advance x⟩⟩, fun h => h, .token t x _,
    .token (hx c hc) (.refl _ _ _), ?_⟩
  exact List.contains_iff_mem.mp (List.all_eq_true.mp hds c hc)

/-- Whether a sign is read in the contexts `cs` and leads to `ds`. -/
def signAlone (cs : List Context) (t : Terminal) (x : List Char) (ds : List Context) : Bool :=
  (t.spelling?.map (·.toList) == some x) && cs.all fun c =>
    x.head?.any (fun d => solid d && alone c t d []) && ds.contains (c.next t)

theorem Reads.sign {t : Terminal} (h : signAlone cs t x ds = true) :
    Reads name cs x rest (.terminal t) false (.token t x) ds := by
  rw [signAlone, Bool.and_eq_true, beq_iff_eq, List.all_eq_true] at h
  obtain ⟨s, hs, hx⟩ := Option.map_eq_some_iff.mp h.1
  subst hx
  refine .token (fun c hc => ?_) (List.all_eq_true.mpr fun c hc => ?_)
  · exact clear_sign hs (Bool.and_eq_true_iff.mp (h.2 c hc)).1 rest
  · exact (Bool.and_eq_true_iff.mp (h.2 c hc)).2

/-- Whether the word `x` is read in the contexts `cs` before `d` and leads to `ds`. -/
def keywordAlone (cs : List Context) (t : Terminal) (x : List Char) (d : Char)
    (ds : List Context) : Bool :=
  isWord x && !isNameChar d && cs.all fun c => wordAlone c t x d && ds.contains (c.next t)

theorem Reads.keyword {t : Terminal} {d : Char} (h : keywordAlone cs t x d ds = true)
    (ht : t ≠ .label) (hl : NoLabel (d :: rest)) :
    Reads name cs x (d :: rest) (.terminal t) false (.token t x) ds := by
  rw [keywordAlone, Bool.and_eq_true, Bool.and_eq_true, Bool.not_eq_true', List.all_eq_true] at h
  obtain ⟨⟨hx, hd⟩, h⟩ := h
  refine .token (fun c hc => ?_) (List.all_eq_true.mpr fun c hc => ?_)
  · exact clear_word hx hd (Bool.and_eq_true_iff.mp (h c hc)).1 (fun _ => hl) ht
  · exact (Bool.and_eq_true_iff.mp (h c hc)).2

/-! ## Bodies -/

theorem Reads.weaken (h : Reads name cs x rest X b part ds) (hcs : cs' ⊆ cs) (hds : ds ⊆ ds') :
    Reads name cs' x rest X b part ds' := by
  intro c hc p
  obtain ⟨w, n, c', b', hw, hb, hn, hscan, hc'⟩ := h c (hcs hc) p
  exact ⟨w, n, c', b', hw, hb, hn, hscan, hds hc'⟩

theorem ReadsAll.weaken (h : ReadsAll name cs x rest xs b parts ds) (hcs : cs' ⊆ cs)
    (hds : ds ⊆ ds') : ReadsAll name cs' x rest xs b parts ds' := by
  intro c hc p
  obtain ⟨w, ns, c', b', hw, hb, hns, hscan, hc'⟩ := h c (hcs hc) p
  exact ⟨w, ns, c', b', hw, hb, hns, hscan, hds hc'⟩

/-- Less is told of a question mark. -/
theorem Reads.open (h : Reads name cs x rest X b part ds) : Reads name cs x rest X true part ds := by
  intro c hc p
  obtain ⟨w, n, c', b', hw, _, hn, hscan, hc'⟩ := h c hc p
  exact ⟨w, n, c', b', hw, fun _ => rfl, hn, hscan, hc'⟩

theorem ReadsAll.nil : ReadsAll name cs [] rest [] false [] cs :=
  fun c hc p => ⟨[], [], c, false, .nil, fun h => h, .nil, .refl c p rest, hc⟩

theorem ReadsAll.cons (h : Reads name cs x (y ++ rest) X false part cs')
    (hs : ReadsAll name cs' y rest xs b parts ds) :
    ReadsAll name cs (x ++ y) rest (X :: xs) b (part :: parts) ds := by
  intro c hc p
  obtain ⟨w, n, c', b', hw, hb', hn, hscan, hc'⟩ := h c hc p
  obtain ⟨ws, ns, c'', bs, hws, hbs, hns, hscans, hc''⟩ := hs c' hc' (p.advance x)
  obtain rfl : b' = false := Bool.eq_false_iff.mpr fun ht => by cases hb' ht
  refine ⟨w ++ ws, n :: ns, c'', bs, ?_, hbs, .cons hn hns, ?_, hc''⟩
  · have hcons := DerivesAll.cons hw hws fun hb => by cases hb
    rwa [Bool.false_or] at hcons
  · rw [List.append_assoc, Position.advance_append]
    exact hscan.trans hscans

theorem ReadsAll.sign (cs' : List Context) {t : Terminal} (h : signAlone cs t x cs' = true)
    (hs : ReadsAll name cs' y rest xs b parts ds) :
    ReadsAll name cs (x ++ y) rest (.terminal t :: xs) b (.token t x :: parts) ds :=
  .cons (.sign h) hs

theorem ReadsAll.one (h : Reads name cs x rest X b part ds) :
    ReadsAll name cs x rest [X] b [part] ds := by
  intro c hc p
  obtain ⟨w, n, c', b', hw, hb, hn, hscan, hc'⟩ := h c hc p
  exact ⟨w, [n], c', b', hw.singleton, hb, .cons hn .nil, hscan, hc'⟩

theorem ReadsAll.append (h : ReadsAll name cs x (y ++ rest) xs false parts cs')
    (hs : ReadsAll name cs' y rest ys b parts' ds) :
    ReadsAll name cs (x ++ y) rest (xs ++ ys) b (parts ++ parts') ds := by
  intro c hc p
  obtain ⟨w, ns, c', b', hw, hb', hns, hscan, hc'⟩ := h c hc p
  obtain ⟨ws, ns', c'', bs, hws, hbs, hns', hscans, hc''⟩ := hs c' hc' (p.advance x)
  obtain rfl : b' = false := Bool.eq_false_iff.mpr fun ht => by cases hb' ht
  refine ⟨w ++ ws, ns ++ ns', c'', bs, hw.append hws, hbs, ?_, ?_, hc''⟩
  · rw [List.map_append]
    exact List.rel_append hns hns'
  · rw [List.append_assoc, Position.advance_append]
    exact hscan.trans hscans

/-- Blanks before a body are skipped. -/
theorem ReadsAll.blanks (hy : ∀ a ∈ y, isBlankChar a = true)
    (h : ReadsAll name cs x rest xs b parts ds) : ReadsAll name cs (y ++ x) rest xs b parts ds := by
  intro c hc p
  obtain ⟨w, ns, c', b', hw, hb, hns, hscan, hc'⟩ := h c hc (p.advance y)
  refine ⟨w, ns, c', b', hw, hb, hns, ?_, hc'⟩
  rw [List.append_assoc, Position.advance_append]
  exact .blank hy hscan

theorem ReadsAll.space (h : ReadsAll name cs x rest xs b parts ds) :
    ReadsAll name cs (' ' :: x) rest xs b parts ds :=
  .blanks (y := [' ']) (fun a ha => by rw [List.mem_singleton.mp ha]; rfl) h

/-! ## Rules -/

theorem Rule.mem_all (r : Rule) : r ∈ Rule.all := by cases r <;> decide

theorem mem_productions {r : Rule} {body : List Symbol} (h : body ∈ RulePart.bodies r.shape.2) :
    ⟨r, body⟩ ∈ productions :=
  List.mem_flatMap.mpr ⟨r, r.mem_all, List.mem_map.mpr ⟨body, h, rfl⟩⟩

theorem Reads.rule (r : Rule) (hr : r ≠ .root) (h : ReadsAll name cs x rest xs b parts ds)
    (hxs : xs ∈ RulePart.bodies r.shape.2) (hv : ∀ s, Builds (r.build name s) v parts) :
    Reads name cs x rest (.nonterminal r.shape.1) r.isOpen (.value v) ds := by
  intro c hc p
  obtain ⟨w, ns, c', b', hw, _, hns, hscan, hc'⟩ := h c hc p
  have hbuild := (hv (hull ns)).eq hns
  exact ⟨w, _, c', _, .node (p := ⟨r, xs⟩) (mem_productions hxs) hr hw hbuild, Rule.isOpen_of_opens,
    .value v, hscan, hc'⟩

/-! ## Lists -/

/-- A nonterminal that is left out without items. -/
def symbolsOf {α : Type} (m : Nonterminal) : List α → List Symbol
  | [] => []
  | _ :: _ => [.nonterminal m]

theorem mem_bodies_nil : [] ∈ RulePart.bodies [] := List.mem_singleton_self []

theorem mem_bodies_must {s : Symbol} {ps : List RulePart} (h : xs ∈ RulePart.bodies ps) :
    s :: xs ∈ RulePart.bodies (.must s :: ps) := List.mem_map_of_mem h

theorem mem_bodies_with {ss : List Symbol} {ps : List RulePart} (h : xs ∈ RulePart.bodies ps) :
    ss ++ xs ∈ RulePart.bodies (.may ss :: ps) := List.mem_append_left _ (List.mem_map_of_mem h)

theorem mem_bodies_without {ss : List Symbol} {ps : List RulePart} (h : xs ∈ RulePart.bodies ps) :
    xs ∈ RulePart.bodies (.may ss :: ps) := List.mem_append_right _ h

theorem mem_bodies_append {ps qs : List RulePart} (hxs : xs ∈ RulePart.bodies ps)
    (hys : ys ∈ RulePart.bodies qs) : xs ++ ys ∈ RulePart.bodies (ps ++ qs) := by
  induction ps generalizing xs with
  | nil =>
    obtain rfl := List.mem_singleton.mp hxs
    exact hys
  | cons part ps ih =>
    cases part with
    | must s =>
      obtain ⟨_, hbody, rfl⟩ := List.mem_map.mp hxs
      exact mem_bodies_must (ih hbody)
    | may ss =>
      rcases List.mem_append.mp hxs with h | h
      · obtain ⟨_, hbody, rfl⟩ := List.mem_map.mp h
        rw [List.append_assoc]
        exact mem_bodies_with (ih hbody)
      · exact mem_bodies_without (ih h)

theorem mem_bodies_tokens {ps : List RulePart} (ks : List Token) (h : xs ∈ RulePart.bodies ps) :
    ks.map (.terminal ·.terminal) ++ xs
      ∈ RulePart.bodies ((ks.map (·.terminal)).map .token ++ ps) := by
  induction ks with
  | nil => exact h
  | cons k ks ih => exact mem_bodies_must ih

theorem mem_bodies_maybe {α : Type} {m : Nonterminal} {ps : List RulePart} (as : List α)
    (h : xs ∈ RulePart.bodies ps) : symbolsOf m as ++ xs ∈ RulePart.bodies (.maybe m :: ps) := by
  cases as with
  | nil => exact mem_bodies_without h
  | cons a as => exact mem_bodies_with h

def partsOf {α : Type} (wrap : List α → Value) : List α → List Part
  | [] => []
  | a :: as => [.value (wrap (a :: as))]

section

variable {α β : Type} {sep : List Char} {text : α → List Char} {val : β → Value}
  {wrap : List β → Value} {t : Terminal} {s : List Char} {m item : Nonterminal}

/-- A list that grows at its end, with a token before each item; an item is read as what `f` says. -/
theorem reads_more (f : α → β) (one more : Rule) (hone : one.shape = (m, [.token t, .one item]))
    (hmore : more.shape = (m, [.one m, .token t, .one item]))
    (hroot : one ≠ .root ∧ more ≠ .root ∧ one.isOpen = false ∧ more.isOpen = false)
    {stop : List Char → Prop} (hsep : ∀ y, stop (sep ++ y)) {as : List α}
    (hitem : ∀ a ∈ as, ∀ r, stop r → ReadsAll name cs (sep ++ text a) r
      [.terminal t, .nonterminal item] false [.token t s, .value (val (f a))] cs) (has : as ≠ [])
    (hrest : stop rest)
    (hbuild : ∀ b sp, Builds (one.build name sp) (wrap [b]) [.token t s, .value (val b)])
    (hbuilds : ∀ bs b sp, Builds (more.build name sp) (wrap (bs ++ [b]))
      [.value (wrap bs), .token t s, .value (val b)]) :
    Reads name cs (behindEach sep text as) rest (.nonterminal m) false (.value (wrap (as.map f))) cs := by
  obtain ⟨hr₁, hr₂, ho₁, ho₂⟩ := hroot
  induction as using List.reverseRecOn generalizing rest with
  | nil => exact absurd rfl has
  | append_singleton as a ih =>
    have hlast := hitem a (List.mem_append_right as List.mem_cons_self) rest hrest
    have htext : behindEach sep text (as ++ [a]) = behindEach sep text as ++ (sep ++ text a) := by
      rw [behindEach, List.flatMap_append, List.flatMap_singleton]
      rfl
    rw [List.map_append, List.map_singleton]
    cases as with
    | nil =>
      have hread := Reads.rule one hr₁ hlast (by rw [hone]; exact List.mem_singleton_self _)
        (hbuild (f a))
      rw [hone, ho₁] at hread
      rw [htext]
      exact hread
    | cons d as =>
      have hstop : stop (sep ++ text a ++ rest) := by
        rw [List.append_assoc]
        exact hsep _
      have hfirst := ih (fun e he => hitem e (List.mem_append_left [a] he)) (List.cons_ne_nil d as)
        hstop
      have hread := Reads.rule more hr₂ (.cons hfirst hlast)
        (by rw [hmore]; exact List.mem_singleton_self _) (hbuilds ((d :: as).map f) (f a))
      rw [hmore, ho₂] at hread
      rw [htext]
      exact hread

/-- The same where the whole list may be left out. -/
theorem readsAll_more (f : α → β) (one more : Rule) (hone : one.shape = (m, [.token t, .one item]))
    (hmore : more.shape = (m, [.one m, .token t, .one item]))
    (hroot : one ≠ .root ∧ more ≠ .root ∧ one.isOpen = false ∧ more.isOpen = false)
    {stop : List Char → Prop} (hsep : ∀ y, stop (sep ++ y)) {as : List α}
    (hitem : ∀ a ∈ as, ∀ r, stop r → ReadsAll name cs (sep ++ text a) r
      [.terminal t, .nonterminal item] false [.token t s, .value (val (f a))] cs) (hrest : stop rest)
    (hbuild : ∀ b sp, Builds (one.build name sp) (wrap [b]) [.token t s, .value (val b)])
    (hbuilds : ∀ bs b sp, Builds (more.build name sp) (wrap (bs ++ [b]))
      [.value (wrap bs), .token t s, .value (val b)]) :
    ReadsAll name cs (behindEach sep text as) rest (symbolsOf m as) false (partsOf wrap (as.map f)) cs := by
  cases as with
  | nil => exact .nil
  | cons a as =>
    exact .one (reads_more f one more hone hmore hroot hsep hitem (List.cons_ne_nil a as) hrest hbuild
      hbuilds)

end

end RbsSynth.Signature
