import RbsSynth.Proofs.Reading.Sorting
import RbsSynth.Proofs.Reading.WordsAsNames

/-!
# Lists of parameters

A method, a block or a proc is read with whatever parameters are written in it, of any kind, in any number
and order, and has these in its slots.  No list of parameters is refused; of several rest parameters, which
have one slot, all but the last are lost.

    tokens are built into a function  →  the parameters in them are sorted into its slots
    parameters are written in tokens  →  the tokens are built into a function        (parameters_sorted)

So `(*A, *B) -> void` is a method without `*A`                                     (not_keepsParameters)
-/

namespace RbsSynth.Signature

open Terminal Value

variable {name : String} {x : Symbol} {xs ys : List Symbol} {b : Bool} {w : List Token} {n : Node}
  {ns : List Node} {r : Rule} {ws : List WrittenParam} {p : WrittenParam}

/-! ## Parameters -/

/-- The tokens before the type of a parameter, which tell its kind. -/
inductive IsSign : List Token → ParamKind → Prop
  | required : IsSign [] .required
  | optional {k : Token} (h : k.terminal = question) : IsSign [k] .optional
  | rest {k : Token} (h : k.terminal = star) : IsSign [k] .rest
  | keyword {k : Token} (h : k.terminal = label) : IsSign [k] (.keyword (dropLast k.text))
  | optionalKeyword {q k : Token} (hq : q.terminal = question) (h : k.terminal = label) :
    IsSign [q, k] (.optionalKeyword (dropLast k.text))
  | restKeywords {k : Token} (h : k.terminal = doubleStar) : IsSign [k] .restKeywords

/-- The tokens behind the type of a parameter: its name, if it has one. -/
inductive IsNamed : List Token → Option String → Prop
  | unnamed : IsNamed [] none
  | named {k : Token} (h : k.terminal = lowerName) : IsNamed [k] (some k.text)

def IsType (name : String) (w : List Token) (t : TypeExpr) : Prop :=
  ∃ b n, Derives name (.nonterminal .type) b w n ∧ n.value = .type t

/-- The tokens of a parameter: its sign, its type and its name. -/
def IsParameter (name : String) (w : List Token) (p : WrittenParam) : Prop :=
  ∃ sign type named, w = sign ++ (type ++ named) ∧ IsSign sign p.kind ∧ IsType name type p.param.type ∧
    IsNamed named p.param.name

/-- The parts of a parameter behind its sign. -/
def typeAndName : List RulePart := [.one .type, .maybeToken lowerName]

/-- The rule for a parameter. -/
def ParamKind.rule : ParamKind → Rule
  | .required => .required
  | .optional => .optionalPositional
  | .rest => .rest
  | .keyword _ => .keyword
  | .optionalKeyword _ => .optionalKeyword
  | .restKeywords => .restKeywords

section

variable {sign named : List Token} {kind : ParamKind} {s : Option String}

theorem IsSign.shape_rule (h : IsSign sign kind) :
    kind.rule.shape = (.parameter, (sign.map (·.terminal)).map .token ++ typeAndName) := by
  rcases h with _ | ⟨h⟩ | ⟨h⟩ | ⟨h⟩ | ⟨h, h'⟩ | ⟨h⟩ <;> simp only [List.map_cons, List.map_nil, *] <;> rfl

theorem IsSign.build_rule (h : IsSign sign kind) (hnamed : IsNamed named s) (sp : Option Span)
    (t : TypeExpr) : kind.rule.build name sp (sign.map .token ++ .type t :: named.map .token)
      = some (.param ⟨kind, t, s⟩) := by
  rcases h with _ | @⟨⟨_, _, _⟩, rfl⟩ | @⟨⟨_, _, _⟩, rfl⟩ | @⟨⟨_, _, _⟩, rfl⟩ |
      @⟨⟨_, _, _⟩, ⟨_, _, _⟩, rfl, rfl⟩ | @⟨⟨_, _, _⟩, rfl⟩ <;>
    rcases hnamed with _ | @⟨⟨_, _, _⟩, rfl⟩ <;> rfl

end

/-- A rule for parameters behind the tokens of a sign. -/
def Rule.HasSign (r : Rule) : Prop :=
  ∃ ts : List Terminal, r.shape.2 = ts.map .token ++ typeAndName ∧
    ∀ sign : List Token, sign.map (·.terminal) = ts → ∃ kind : ParamKind, IsSign sign kind ∧ kind.rule = r

theorem hasSign (hr : r.shape.1 = .parameter) : r.HasSign := by
  have hone : ∀ {r : Rule} (t : Terminal), r.shape.2 = .token t :: typeAndName →
      (∀ k : Token, k.terminal = t → ∃ kind : ParamKind, IsSign [k] kind ∧ kind.rule = r) → r.HasSign := by
    intro r t hshape hkind
    refine ⟨[t], hshape, fun sign h => ?_⟩
    obtain ⟨k, rfl, hk⟩ := List.map_eq_singleton_iff.mp h
    exact hkind k hk
  cases r with
  | required =>
    refine ⟨[], rfl, fun sign h => ?_⟩
    obtain rfl := List.map_eq_nil_iff.mp h
    exact ⟨_, .required, rfl⟩
  | optionalPositional => exact hone question rfl fun k hk => ⟨_, .optional hk, rfl⟩
  | rest => exact hone star rfl fun k hk => ⟨_, .rest hk, rfl⟩
  | keyword => exact hone label rfl fun k hk => ⟨_, .keyword hk, rfl⟩
  | optionalKeyword =>
    refine ⟨[question, label], rfl, fun sign h => ?_⟩
    obtain ⟨q, _, rfl, hq, h⟩ := List.map_eq_cons_iff.mp h
    obtain ⟨k, rfl, hk⟩ := List.map_eq_singleton_iff.mp h
    exact ⟨_, .optionalKeyword hq hk, rfl⟩
  | restKeywords => exact hone doubleStar rfl fun k hk => ⟨_, .restKeywords hk, rfl⟩
  | _ => cases hr

theorem Derives.isParameter (h : Derives name (.nonterminal .parameter) b w n)
    (hw : ∀ k ∈ w, k.terminal.Takes k.text.toList) : ∃ p, n.value = .param p ∧ IsParameter name w p := by
  obtain ⟨r, body, _, ns, hr, hbody, hall, hv⟩ := h.of_nonterminal
  obtain ⟨ts, hshape, hsign⟩ := hasSign hr
  rw [hshape] at hbody
  obtain ⟨sign, _, _, _, _, rfl, hts, rfl, hbody, hall⟩ := hall.of_tokens hbody
  obtain ⟨_, _, type, named, tn, ns, _, rfl, rfl, htype, hbody, hall⟩ := hall.of_must hbody
  obtain ⟨kind, hkind, rfl⟩ := hsign sign hts
  obtain ⟨t, ht⟩ : ∃ t, tn.value = .type t :=
    htype.means fun k hk => hw k (List.mem_append_right _ (List.mem_append_left _ hk))
  obtain ⟨s, hs, hns⟩ : ∃ s, IsNamed named s ∧ ns.map (·.value) = named.map .token := by
    rcases List.mem_append.mp hbody with hbody | hbody
    · obtain rfl := List.mem_singleton.mp hbody
      obtain ⟨k, _, _, _, hk, rfl, rfl, hend⟩ := hall.of_token
      obtain ⟨_, rfl, rfl⟩ := hend.of_nil
      exact ⟨_, .named hk, rfl⟩
    · obtain rfl := List.mem_singleton.mp hbody
      obtain ⟨_, rfl, rfl⟩ := hall.of_nil
      exact ⟨_, .unnamed, rfl⟩
  have hvalues : (sign.map Token.node ++ tn :: ns).map (·.value)
      = sign.map .token ++ .type t :: named.map .token := by
    rw [List.map_append, List.map_map, List.map_cons, ht, hns]
    rfl
  rw [hvalues, hkind.build_rule hs] at hv
  exact ⟨_, (Option.some.inj hv).symm, sign, type, named, rfl, hkind, ⟨_, tn, htype, ht⟩, hs⟩

theorem IsParameter.derives (h : IsParameter name w p) :
    ∃ n, Derives name (.nonterminal .parameter) false w n ∧ n.value = .param p := by
  obtain ⟨kind, t, s⟩ := p
  obtain ⟨sign, type, named, rfl, hsign, ⟨b, tn, htype, ht⟩, hnamed⟩ := h
  obtain rfl : b = false := Bool.eq_false_iff.mpr fun hb => absurd (htype.mayBeOpen hb) (by decide)
  obtain ⟨body, hbody, hall⟩ : ∃ body ∈ RulePart.bodies typeAndName,
      DerivesAll name body false (type ++ named) (tn :: named.map Token.node) := by
    cases hnamed with
    | unnamed =>
      exact ⟨_, mem_bodies_must (mem_bodies_without mem_bodies_nil), .cons htype .nil fun hb => nomatch hb⟩
    | named hk =>
      exact ⟨_, mem_bodies_must (mem_bodies_with mem_bodies_nil),
        .cons htype (.token hk .nil) fun hb => nomatch hb⟩
  have hroot : kind.rule ≠ .root ∧ kind.rule.isOpen = false := by
    cases kind <;> exact ⟨nofun, rfl⟩
  have hvalues : (sign.map Token.node ++ tn :: named.map Token.node).map (·.value)
      = sign.map .token ++ .type t :: named.map .token := by
    rw [List.map_append, List.map_map, List.map_cons, List.map_map, ht]
    rfl
  have hshape := hsign.shape_rule
  have hrule := Derives.rule hroot (by rw [hshape]; exact mem_bodies_tokens sign hbody) (.tokens sign hall)
    (by rw [hvalues]; exact hsign.build_rule hnamed _ _)
  rw [hshape] at hrule
  exact ⟨_, hrule, rfl⟩

/-! ## Groups -/

/-- Parameters with a comma before each. -/
inductive AreBehind (name : String) : List Token → List WrittenParam → Prop
  | nil : AreBehind name [] []
  | cons {k : Token} {v w : List Token} {p : WrittenParam} {ps : List WrittenParam}
    (hk : k.terminal = comma) (hp : IsParameter name v p) (h : AreBehind name w ps) :
    AreBehind name (k :: (v ++ w)) (p :: ps)

/-- Parameters in parentheses. -/
def AreParameters (name : String) (w : List Token) (ws : List WrittenParam) : Prop :=
  ∃ l inner r, w = l :: (inner ++ [r]) ∧ l.terminal = leftParen ∧ r.terminal = rightParen ∧
    (inner = [] ∧ ws = [] ∨ ∃ first more p ps, inner = first ++ more ∧ ws = p :: ps ∧
      IsParameter name first p ∧ AreBehind name more ps)

theorem AreBehind.concat {k : Token} {v : List Token} {ps : List WrittenParam} (h : AreBehind name w ps)
    (hk : k.terminal = comma) (hp : IsParameter name v p) : AreBehind name (w ++ k :: v) (ps ++ [p]) := by
  induction h with
  | nil =>
    have hone := AreBehind.cons hk hp .nil
    rwa [List.append_nil] at hone
  | cons hk' hp' _ ih =>
    rw [List.cons_append, List.append_assoc]
    exact .cons hk' hp' ih

theorem Derives.areBehind (h : Derives name (.nonterminal .moreParameters) b w n)
    (hw : ∀ k ∈ w, k.terminal.Takes k.text.toList) :
    ∃ ps, n.value = .moreParams ps ∧ AreBehind name w ps := by
  -- by the length, since the inversion of a node does not tell that its parts are smaller
  induction hlength : w.length using Nat.strong_induction_on generalizing b w n with
  | _ _ ih =>
    obtain ⟨r, body, _, ns, hr, hbody, hall, hv⟩ := h.of_nonterminal
    have hrule : r = .moreParameters ∨ r = .moreParametersMore := by
      revert hr
      cases r <;> decide
    rcases hrule with rfl | rfl
    · obtain ⟨k, _, _, _, _, hk, rfl, rfl, hbody, hall⟩ := hall.of_mustToken hbody
      obtain ⟨_, _, v, _, pn, _, _, rfl, rfl, hp, hbody, hall⟩ := hall.of_must hbody
      obtain rfl := List.mem_singleton.mp hbody
      obtain ⟨_, rfl, rfl⟩ := hall.of_nil
      obtain ⟨p, hpn, hp⟩ := hp.isParameter fun k hk => hw k (by simp [hk])
      rw [List.map_cons, List.map_cons, hpn] at hv
      exact ⟨[p], (Option.some.inj hv).symm, .cons hk hp .nil⟩
    · obtain ⟨_, _, w₁, _, mn, _, _, rfl, rfl, hmore, hbody, hall⟩ := hall.of_must hbody
      obtain ⟨k, _, _, _, _, hk, rfl, rfl, hbody, hall⟩ := hall.of_mustToken hbody
      obtain ⟨_, _, v, _, pn, _, _, rfl, rfl, hp, hbody, hall⟩ := hall.of_must hbody
      obtain rfl := List.mem_singleton.mp hbody
      obtain ⟨_, rfl, rfl⟩ := hall.of_nil
      obtain ⟨p, hpn, hp⟩ := hp.isParameter fun k hk => hw k (by simp [hk])
      obtain ⟨ps, hmn, hps⟩ := ih w₁.length (by rw [← hlength]; simp) hmore
        (fun k hk => hw k (List.mem_append_left _ hk)) rfl
      rw [List.map_cons, List.map_cons, List.map_cons, hmn, hpn] at hv
      rw [List.append_nil]
      exact ⟨ps ++ [p], (Option.some.inj hv).symm, hps.concat hk hp⟩

/-- More parameters behind some that are read already. -/
theorem AreBehind.derives_behind {v : List Token} {ps : List WrittenParam} {mn : Node}
    (h : AreBehind name w ps) (hn : Derives name (.nonterminal .moreParameters) false v mn)
    (hmn : mn.value = .moreParams ws) :
    ∃ n, Derives name (.nonterminal .moreParameters) false (v ++ w) n ∧ n.value = .moreParams (ws ++ ps) := by
  induction h generalizing v mn ws with
  | nil =>
    rw [List.append_nil, List.append_nil]
    exact ⟨mn, hn, hmn⟩
  | @cons k u w p ps hk hp _ ih =>
    obtain ⟨pn, hpn, hpv⟩ := hp.derives
    have hall := DerivesAll.cons hn (.token hk hpn.singleton) fun hb => nomatch hb
    have hrule := Derives.rule (r := .moreParametersMore) (v := .moreParams (ws ++ [p])) (by decide)
      (List.mem_singleton_self _) hall (by simp only [List.map_cons, List.map_nil, hmn, hpv]; rfl)
    obtain ⟨n, hn, hv⟩ := ih hrule rfl
    rw [List.append_assoc] at hn hv
    exact ⟨n, hn, hv⟩

theorem AreBehind.derives {ps : List WrittenParam} (h : AreBehind name w (p :: ps)) :
    ∃ n, Derives name (.nonterminal .moreParameters) false w n ∧ n.value = .moreParams (p :: ps) := by
  cases h with
  | @cons k u w _ _ hk hp h =>
    obtain ⟨pn, hpn, hpv⟩ := hp.derives
    have hrule := Derives.rule (r := .moreParameters) (v := .moreParams [p]) (by decide)
      (List.mem_singleton_self _) (.token hk hpn.singleton)
      (by simp only [List.map_cons, List.map_nil, hpv]; rfl)
    exact h.derives_behind hrule rfl

theorem Derives.areParameters (h : Derives name (.nonterminal .parameterGroup) b w n)
    (hw : ∀ k ∈ w, k.terminal.Takes k.text.toList) :
    ∃ ws, n.value = .params ws ∧ AreParameters name w ws := by
  obtain ⟨r, body, _, ns, hr, hbody, hall, hv⟩ := h.of_nonterminal
  have hrule : r = .noParameters ∨ r = .oneParameter ∨ r = .manyParameters := by
    revert hr
    cases r <;> decide
  rcases hrule with rfl | rfl | rfl
  · obtain ⟨l, _, _, _, _, hl, rfl, rfl, hbody, hall⟩ := hall.of_mustToken hbody
    obtain ⟨r, _, _, _, _, hr, rfl, rfl, hbody, hall⟩ := hall.of_mustToken hbody
    obtain rfl := List.mem_singleton.mp hbody
    obtain ⟨_, rfl, rfl⟩ := hall.of_nil
    exact ⟨[], (Option.some.inj hv).symm, l, [], r, rfl, hl, hr, .inl ⟨rfl, rfl⟩⟩
  · obtain ⟨l, _, _, _, _, hl, rfl, rfl, hbody, hall⟩ := hall.of_mustToken hbody
    obtain ⟨_, _, v, _, pn, _, _, rfl, rfl, hp, hbody, hall⟩ := hall.of_must hbody
    obtain ⟨r, _, _, _, _, hr, rfl, rfl, hbody, hall⟩ := hall.of_mustToken hbody
    obtain rfl := List.mem_singleton.mp hbody
    obtain ⟨_, rfl, rfl⟩ := hall.of_nil
    obtain ⟨p, hpn, hp⟩ := hp.isParameter fun k hk => hw k (by simp [hk])
    rw [List.map_cons, List.map_cons, hpn] at hv
    exact ⟨[p], (Option.some.inj hv).symm, l, v, r, rfl, hl, hr,
      .inr ⟨v, [], p, [], (List.append_nil v).symm, rfl, hp, .nil⟩⟩
  · obtain ⟨l, _, _, _, _, hl, rfl, rfl, hbody, hall⟩ := hall.of_mustToken hbody
    obtain ⟨_, _, v, _, pn, _, _, rfl, rfl, hp, hbody, hall⟩ := hall.of_must hbody
    obtain ⟨_, _, u, _, mn, _, _, rfl, rfl, hm, hbody, hall⟩ := hall.of_must hbody
    obtain ⟨r, _, _, _, _, hr, rfl, rfl, hbody, hall⟩ := hall.of_mustToken hbody
    obtain rfl := List.mem_singleton.mp hbody
    obtain ⟨_, rfl, rfl⟩ := hall.of_nil
    obtain ⟨p, hpn, hp⟩ := hp.isParameter fun k hk => hw k (by simp [hk])
    obtain ⟨ps, hmn, hps⟩ := hm.areBehind fun k hk => hw k (by simp [hk])
    rw [List.map_cons, List.map_cons, List.map_cons, hpn, hmn] at hv
    exact ⟨p :: ps, (Option.some.inj hv).symm, l, v ++ u, r,
      by rw [List.append_assoc], hl, hr,
      .inr ⟨v, u, p, ps, rfl, rfl, hp, hps⟩⟩

/-- **Every list of parameters is accepted.** -/
theorem AreParameters.derives (h : AreParameters name w ws) :
    ∃ n, Derives name (.nonterminal .parameterGroup) false w n ∧ n.value = .params ws := by
  obtain ⟨l, inner, r, rfl, hl, hr, ⟨rfl, rfl⟩ | ⟨first, more, p, ps, rfl, rfl, hp, hps⟩⟩ := h
  · exact ⟨_, .rule (r := .noParameters) (by decide) (List.mem_singleton_self _)
      (.token hl (.token hr .nil)) rfl, rfl⟩
  · obtain ⟨pn, hpn, hpv⟩ := hp.derives
    have hend : DerivesAll name [.terminal rightParen] false [r] [r.node] := .token hr .nil
    cases ps with
    | nil =>
      cases hps
      have hall := DerivesAll.token hl (.cons hpn hend fun hb => nomatch hb)
      rw [List.append_nil]
      exact ⟨_, .rule (r := .oneParameter) (v := .params [p]) (by decide) (List.mem_singleton_self _) hall
        (by rw [List.map_cons, List.map_cons, hpv]; rfl), rfl⟩
    | cons q qs =>
      obtain ⟨mn, hmn, hmv⟩ := hps.derives
      have hall := DerivesAll.token hl (.cons hpn (.cons hmn hend fun hb => nomatch hb) fun hb => nomatch hb)
      rw [List.append_assoc]
      exact ⟨_, .rule (r := .manyParameters) (v := .params (p :: q :: qs)) (by decide)
        (List.mem_singleton_self _) hall
        (by rw [List.map_cons, List.map_cons, List.map_cons, hpv, hmv]; rfl), rfl⟩

/-! ## Functions -/

/-- The rules that build a function. -/
def functionRules : List Rule := [.methodType, .blockInner, .proc]

theorem of_mem_functionRules (hr : r ∈ functionRules) : r = .methodType ∨ r = .blockInner ∨ r = .proc := by
  simpa only [functionRules, List.mem_cons, List.not_mem_nil, or_false] using hr

/-- What stands before the parameters of a function. -/
def Rule.beforeParams : Rule → List RulePart
  | .methodType => [.maybe .typeParameters]
  | .proc => [.token caret]
  | _ => []

/-- What stands behind the parameters of a function. -/
def Rule.behindParams : Rule → List RulePart
  | .methodType => [.maybe .block, .token arrow, .one .optional]
  | .blockInner => [.maybe .selfBinding, .token arrow, .one .optional]
  | .proc => [.maybe .selfBinding, .maybe .block, .token arrow, .one .optional]
  | _ => []

theorem shape_function (hr : r ∈ functionRules) :
    r.shape.2 = r.beforeParams ++ .maybe .parameterGroup :: r.behindParams := by
  rcases of_mem_functionRules hr with rfl | rfl | rfl <;> rfl

/-- The function of a method, of a block or of a proc. -/
def Value.function? : Value → Option FunctionType
  | .methodType m => some m.function
  | .inner f _ => some f
  | .type (.proc f _ _) => some f
  | _ => none

/-- The tokens stand for some parts of a rule. -/
def StandFor (name : String) (ps : List RulePart) (w : List Token) : Prop :=
  ∃ body b ns, body ∈ RulePart.bodies ps ∧ DerivesAll name body b w ns

/-- The rule builds a value from tokens; so is every node of a derivation built, by one of the rules of its
nonterminal. -/
def BuiltBy (name : String) (r : Rule) (w : List Token) (v : Value) : Prop :=
  ∃ body b ns, body ∈ RulePart.bodies r.shape.2 ∧ DerivesAll name body b w ns ∧
    r.build name (hull ns) (ns.map (·.value)) = some v

/-- The parameters that are written in a function; without parentheses there are none. -/
def WrittenIn (name : String) (r : Rule) (w : List Token) (ws : List WrittenParam) : Prop :=
  ∃ u group v, w = u ++ (group ++ v) ∧ StandFor name r.beforeParams u ∧
    (group = [] ∧ ws = [] ∨ AreParameters name group ws) ∧ StandFor name r.behindParams v

/-- The parameters are sorted into the slots of a function, and all of them are there unless a slot for one
parameter would have to hold more. -/
structure Sorts (ws : List WrittenParam) (f : FunctionType) : Prop where
  slots : ∀ s, f.slot s = s.holds (goingTo s [] ws)
  kept : f.written.Perm ws ↔ AtMostOneRest ws

theorem sorts_ofWritten (ws : List WrittenParam) (t : TypeExpr) : Sorts ws (.ofWritten ws t) :=
  ⟨slot_ofWritten ws t, written_perm_iff ws t⟩

theorem function?_build {sp : Option Span} {vs : List Value} {v : Value} (hr : r ∈ functionRules)
    (h : r.build name sp vs = some v) : ∃ t, v.function? = some (.ofWritten (paramsIn vs) t) := by
  rcases of_mem_functionRules hr with rfl | rfl | rfl <;>
  · simp only [Rule.build] at h
    split at h
    · cases h
      exact ⟨_, rfl⟩
    · cases h

theorem exists_build (name : String) (sp : Option Span) {vs : List Value} {t : TypeExpr}
    (hr : r ∈ functionRules) (h : vs.getLast? = some (.type t)) : ∃ v, r.build name sp vs = some v := by
  rcases of_mem_functionRules hr with rfl | rfl | rfl <;>
  · simp only [Rule.build, h]
    exact ⟨_, rfl⟩

/-- Only a group has parameters. -/
theorem paramsIn_append {vs : List Value} (us : List Value) (h : List.Forall₂ Symbol.Means xs vs)
    (hxs : .nonterminal .parameterGroup ∉ xs) : paramsIn (vs ++ us) = paramsIn us := by
  induction h with
  | nil => rfl
  | @cons x v xs vs hx _ ih =>
    obtain ⟨hne, hxs⟩ := List.ne_and_not_mem_of_not_mem_cons hxs
    have hv : ∀ ps, v ≠ .params ps := by
      rintro ps rfl
      cases x with
      | terminal t =>
        obtain ⟨_, _, he, -⟩ := hx
        cases he
      | nonterminal m => cases m <;> simp_all [Symbol.Means, Nonterminal.Means]
    rw [List.cons_append, ← ih hxs]
    cases v with
    | params ps => exact absurd rfl (hv ps)
    | _ => rfl

/-- No body before the parameters of a function has a group, nor can it be open. -/
theorem beforeParams_spec (hr : r ∈ functionRules) : ∀ body ∈ RulePart.bodies r.beforeParams,
    .nonterminal .parameterGroup ∉ body ∧ body.getLast?.all (!·.mayBeOpen) = true := by
  revert r
  decide

/-- No body behind the parameters of a function has a group; the last is what the function returns. -/
theorem behindParams_spec (hr : r ∈ functionRules) : ∀ body ∈ RulePart.bodies r.behindParams,
    .nonterminal .parameterGroup ∉ body ∧ body.getLast? = some (.nonterminal .optional) := by
  revert r
  decide

/-- The parameters of a function are those of its group. -/
theorem BuiltBy.sorts {v : Value} (hr : r ∈ functionRules) (hw : ∀ k ∈ w, k.terminal.Takes k.text.toList)
    (h : BuiltBy name r w v) : ∃ f ws, v.function? = some f ∧ WrittenIn name r w ws ∧ Sorts ws f := by
  obtain ⟨body, b, ns, hbody, hall, hv⟩ := h
  rw [shape_function hr] at hbody
  obtain ⟨before, _, rfl, hbefore, hbody⟩ := of_mem_bodies_append hbody
  obtain ⟨b₁, _, u, _, ns₁, _, rfl, rfl, hu, hall⟩ := hall.of_append
  obtain ⟨b₂, group, v₂, gs, ns₂, behind, rfl, rfl, hgroup, hbehind, hv₂⟩ := hall.of_maybe hbody
  obtain ⟨hwu, hw⟩ := List.forall_mem_append.mp hw
  obtain ⟨hwg, hwv⟩ := List.forall_mem_append.mp hw
  obtain ⟨t, hf⟩ := function?_build hr hv
  have hnone : paramsIn (ns₂.map (·.value)) = [] := by
    have happend := paramsIn_append [] (hv₂.means hwv) (behindParams_spec hr behind hbehind).1
    rwa [List.append_nil] at happend
  rw [List.map_append, List.map_append,
    paramsIn_append _ (hu.means hwu) (beforeParams_spec hr before hbefore).1] at hf
  rcases hgroup with ⟨rfl, rfl⟩ | ⟨_, gn, rfl, hgn⟩
  · rw [List.map_nil, List.nil_append, hnone] at hf
    exact ⟨_, [], hf, ⟨u, [], v₂, rfl, ⟨_, _, _, hbefore, hu⟩, .inl ⟨rfl, rfl⟩, ⟨_, _, _, hbehind, hv₂⟩⟩,
      sorts_ofWritten [] t⟩
  · obtain ⟨ws, hvalue, hws⟩ := hgn.areParameters hwg
    rw [List.map_singleton, hvalue] at hf
    exact ⟨_, ws, hf, ⟨u, group, v₂, rfl, ⟨_, _, _, hbefore, hu⟩, .inr hws, ⟨_, _, _, hbehind, hv₂⟩⟩,
      sorts_ofWritten ws t⟩

/-- A function is built whatever parameters it has. -/
theorem WrittenIn.exists_builtBy (hr : r ∈ functionRules) (hw : ∀ k ∈ w, k.terminal.Takes k.text.toList)
    (h : WrittenIn name r w ws) :
    ∃ v f, BuiltBy name r w v ∧ v.function? = some f ∧ Sorts ws f := by
  obtain ⟨u, group, v, rfl, ⟨before, b, us, hbefore, hu⟩, hgroup, ⟨behind, b', vs, hbehind, hv⟩⟩ := h
  obtain ⟨hwu, hw⟩ := List.forall_mem_append.mp hw
  obtain ⟨hwg, hwv⟩ := List.forall_mem_append.mp hw
  obtain ⟨hfree, hclosed⟩ := beforeParams_spec hr before hbefore
  obtain ⟨hfree', hlast⟩ := behindParams_spec hr behind hbehind
  obtain rfl : b = false := Bool.eq_false_iff.mpr fun hb => by
    obtain ⟨y, hy, hopen⟩ := hu.mayBeOpen hb
    rw [hy, Option.all_some, hopen] at hclosed
    cases hclosed
  obtain ⟨body, gs, hbody, hg, hparams⟩ : ∃ body gs, body ++ behind ∈
      RulePart.bodies (.maybe .parameterGroup :: r.behindParams) ∧ DerivesAll name body false group gs ∧
      paramsIn (gs.map (·.value) ++ vs.map (·.value)) = ws := by
    rcases hgroup with ⟨rfl, rfl⟩ | hws
    · have happend := paramsIn_append [] (hv.means hwv) hfree'
      rw [List.append_nil] at happend
      exact ⟨[], [], mem_bodies_without hbehind, .nil, happend⟩
    · obtain ⟨gn, hgn, hvalue⟩ := hws.derives
      refine ⟨[.nonterminal .parameterGroup], [gn], mem_bodies_with hbehind, hgn.singleton, ?_⟩
      rw [List.map_singleton, hvalue]
      rfl
  obtain ⟨_, hget, ⟨t, rfl⟩, -⟩ := getLast?_of_means (hv.means hwv) hlast
  have hvalues : (us ++ (gs ++ vs)).map (·.value)
      = us.map (·.value) ++ (gs.map (·.value) ++ vs.map (·.value)) := by
    rw [List.map_append, List.map_append]
  have hreturn : ((us ++ (gs ++ vs)).map (·.value)).getLast? = some (.type t) := by
    rw [hvalues, List.getLast?_append, List.getLast?_append, hget]
    rfl
  obtain ⟨v, hbuild⟩ := exists_build name (hull (us ++ (gs ++ vs))) hr hreturn
  obtain ⟨t', hf⟩ := function?_build hr hbuild
  rw [hvalues, paramsIn_append _ (hu.means hwu) hfree, hparams] at hf
  refine ⟨v, _, ⟨before ++ (body ++ behind), _, _, ?_, hu.append (hg.append hv), hbuild⟩, hf,
    sorts_ofWritten ws t'⟩
  rw [shape_function hr]
  exact mem_bodies_append hbefore hbody

/-! ## Top theorem -/

/-- **What is built from the tokens of a function has the parameters written in them in its slots, and it is
built whichever they are.** -/
theorem parameters_sorted {name : String} {r : Rule} {w : List Token} (hr : r ∈ functionRules)
    (hw : ∀ k ∈ w, k.terminal.Takes k.text.toList) :
    (∀ v, BuiltBy name r w v → ∃ f ws, v.function? = some f ∧ WrittenIn name r w ws ∧ Sorts ws f) ∧
      ∀ ws, WrittenIn name r w ws → ∃ v f, BuiltBy name r w v ∧ v.function? = some f ∧ Sorts ws f :=
  ⟨fun _ h => h.sorts hr hw, fun _ h => h.exists_builtBy hr hw⟩

/-- A token, wherever it stands. -/
def tokenOf (t : Terminal) (text : String) : Token := ⟨t, text, ⟨{}, {}⟩⟩

/-- The tokens of `(?untyped, untyped) -> void`. -/
def turnedTokens : List Token :=
  [tokenOf leftParen "(", tokenOf question "?", tokenOf baseType "untyped", tokenOf comma ",",
    tokenOf baseType "untyped", tokenOf rightParen ")", tokenOf arrow "->", tokenOf baseType "void"]

def turnedParams : List WrittenParam :=
  [⟨.optional, .base .untyped, none⟩, ⟨.required, .base .untyped, none⟩]

section

variable {k : Token} {t : BaseType}

theorem derives_base (name : String) (hk : k.terminal = baseType) (ht : BaseType.ofWord? k.text = some t) :
    ∃ n, Derives name (.nonterminal .optional) true [k] n ∧ n.value = .type (.base t) := by
  have htoken : DerivesAll name [.terminal baseType] false [k] [k.node] := .token hk .nil
  have hsimple := Derives.rule (r := .base) (v := .type (.base t)) (by decide) (List.mem_singleton_self _)
    htoken (by rw [List.map_singleton, Token.node, Rule.build, ht]; rfl)
  exact ⟨_, .node (p := ⟨.plainOptional, [.nonterminal .simple]⟩)
    (mem_productions (List.mem_singleton_self _)) (by decide) hsimple.singleton rfl, rfl⟩

theorem isType_base (hk : k.terminal = baseType) (ht : BaseType.ofWord? k.text = some t) :
    IsType name [k] (.base t) := by
  obtain ⟨n, hn, hv⟩ := derives_base name hk ht
  have hintersection := Derives.rule (r := .plainIntersection) (by decide) (List.mem_singleton_self _)
    hn.singleton rfl
  have hunion := Derives.rule (r := .plainUnion) (by decide) (List.mem_singleton_self _)
    hintersection.singleton rfl
  exact ⟨_, _, .rule (r := .type) (by decide) (List.mem_singleton_self _) hunion.singleton rfl, hv⟩

end

theorem writtenIn_turned : WrittenIn name .methodType turnedTokens turnedParams := by
  have htype : IsType name [tokenOf baseType "untyped"] (.base .untyped) := isType_base rfl (by decide)
  have hfirst : IsParameter name [tokenOf question "?", tokenOf baseType "untyped"]
      ⟨.optional, .base .untyped, none⟩ :=
    ⟨[tokenOf question "?"], [tokenOf baseType "untyped"], [], rfl, .optional rfl, htype, .unnamed⟩
  have hsecond : IsParameter name [tokenOf baseType "untyped"] ⟨.required, .base .untyped, none⟩ :=
    ⟨[], [tokenOf baseType "untyped"], [], rfl, .required, htype, .unnamed⟩
  obtain ⟨n, hn, -⟩ := derives_base name (k := tokenOf baseType "void") rfl (by decide : _ = some BaseType.void)
  refine ⟨[], turnedTokens.take 6, turnedTokens.drop 6, rfl, ⟨[], _, _, by decide, .nil⟩, .inr ?_,
    ⟨[.terminal arrow, .nonterminal .optional], _, _, by decide, .tokens [tokenOf arrow "->"] hn.singleton⟩⟩
  exact ⟨_, _, _, rfl, rfl, rfl, .inr ⟨_, _, _, _, rfl, rfl, hfirst, .cons rfl hsecond .nil⟩⟩

/-- A required parameter behind an optional one is trailing. -/
theorem parameters_sorted_turned : ∃ v f, BuiltBy "a.rbs" .methodType turnedTokens v ∧
    v.function? = some f ∧ Sorts turnedParams f ∧ f.trailing = [⟨.base .untyped, none⟩] := by
  have hword : ∀ x ∈ ["untyped", "void"], baseType.Takes x.toList := fun x hx =>
    ⟨x, (by decide : ∀ x ∈ ["untyped", "void"], x ∈ wordsOf baseType) x hx, rfl⟩
  have htakes : ∀ k ∈ turnedTokens, k.terminal.Takes k.text.toList := by
    simp only [turnedTokens, List.forall_mem_cons]
    exact ⟨takes_of_spelled rfl, takes_of_spelled rfl, hword _ (by decide), takes_of_spelled rfl,
      hword _ (by decide), takes_of_spelled rfl, takes_of_spelled rfl, hword _ (by decide),
      List.forall_mem_nil _⟩
  obtain ⟨v, f, hv, hf, hsorts⟩ := (parameters_sorted (by decide) htakes).2 _ writtenIn_turned
  refine ⟨v, f, hv, hf, hsorts, ?_⟩
  obtain ⟨p, hp, hone⟩ := List.map_eq_singleton_iff.mp (hsorts.slots .trailing)
  cases hone
  exact hp

/-! ## Several rest parameters -/

theorem isReadAs_of_eval {line : String} {m : Member} (h : (parse (textAround line) name).toOption.any
    (sameDeclarations · [classAround m]) = true) : IsReadAs name line m := by
  obtain ⟨ds, hds, hsame⟩ := (Option.any_eq_true _ _).mp h
  refine ⟨ds, ?_, hsame⟩
  cases hparse : parse (textAround line) name with
  | error f =>
    rw [hparse] at hds
    cases hds
  | ok ds' =>
    rw [hparse] at hds
    rw [Option.some.inj hds]

/-- A method is read with all parameters that are written in it, or not at all. -/
def KeepsParameters : Prop :=
  ∀ (name : String) (ws : List WrittenParam) (f : FunctionType),
    IsReadAs name ("def m: (" ++ .ofList (paramsText ws) ++ ") -> void")
      (.method { name := "m", overloads := [⟨f, none, []⟩] }) → f.written.Perm ws

def restOf (name : String) : WrittenParam := ⟨.rest, .classInstance ⟨name, [], false⟩ [], none⟩

/-- Of two rest parameters the first one is lost. -/
theorem not_keepsParameters : ¬ KeepsParameters := by
  intro h
  have hread : IsReadAs "a.rbs" ("def m: (" ++ .ofList (paramsText [restOf "A", restOf "B"]) ++ ") -> void")
      (.method { name := "m", overloads := [⟨{ FunctionType.returning (.base .void) with
        rest := some (restOf "B").param }, none, []⟩] }) :=
    isReadAs_of_eval (by decide +kernel)
  exact absurd (h _ _ _ hread).length_eq (by decide)

end RbsSynth.Signature
