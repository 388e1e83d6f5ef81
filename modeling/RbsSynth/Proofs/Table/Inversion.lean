import RbsSynth.Proofs.Table.Soundness

/-!
# What a derivation is made of
-/

namespace RbsSynth.Signature

variable {name : String} {t : Terminal} {m : Nonterminal} {x : Symbol} {xs ys : List Symbol} {b : Bool}
  {w : List Token} {n : Node} {ns : List Node}

theorem Derives.of_terminal (h : Derives name (.terminal t) b w n) :
    ∃ k : Token, k.terminal = t ∧ w = [k] ∧ b = false ∧ n = ⟨.token k, some k.span⟩ := by
  generalize hx : Symbol.terminal t = x at h
  cases h with
  | token k => exact ⟨k, (Symbol.terminal.inj hx).symm, rfl, rfl, rfl⟩
  | node => cases hx

/-- A node of a nonterminal is built by one of its rules. -/
theorem Derives.of_nonterminal (h : Derives name (.nonterminal m) b w n) :
    ∃ (r : Rule) (body : List Symbol) (b' : Bool) (ns : List Node), r.shape.1 = m ∧
      body ∈ RulePart.bodies r.shape.2 ∧ DerivesAll name body b' w ns ∧
      r.build name (hull ns) (ns.map (·.value)) = some n.value := by
  generalize hx : Symbol.nonterminal m = x at h
  cases h with
  | token k => cases hx
  | @node p b' w ns v hp _ hall hv =>
    obtain ⟨r, -, hr⟩ := List.mem_flatMap.mp hp
    obtain ⟨body, hbody, rfl⟩ := List.mem_map.mp hr
    exact ⟨r, body, b', ns, (Symbol.nonterminal.inj hx).symm, hbody, hall, hv⟩

theorem DerivesAll.of_cons (h : DerivesAll name (x :: xs) b w ns) :
    ∃ b₁ b₂ w₁ w₂ n ns', w = w₁ ++ w₂ ∧ ns = n :: ns' ∧ Derives name x b₁ w₁ n ∧
      DerivesAll name xs b₂ w₂ ns' := by
  cases h with
  | cons hx hxs _ => exact ⟨_, _, _, _, _, _, rfl, rfl, hx, hxs⟩

theorem DerivesAll.of_token (h : DerivesAll name (.terminal t :: xs) b w ns) :
    ∃ (k : Token) (b' : Bool) (w' : List Token) (ns' : List Node), k.terminal = t ∧ w = k :: w' ∧
      ns = ⟨.token k, some k.span⟩ :: ns' ∧ DerivesAll name xs b' w' ns' := by
  obtain ⟨_, b', _, w', _, ns', rfl, rfl, hx, hxs⟩ := h.of_cons
  obtain ⟨k, hk, rfl, -, rfl⟩ := hx.of_terminal
  exact ⟨k, b', w', ns', hk, rfl, rfl, hxs⟩

/-- A node of a nonterminal with one rule. -/
theorem Derives.of_rule {r : Rule} (hr : ∀ s ∈ Rule.all, s.shape.1 = m → s = r)
    (h : Derives name (.nonterminal m) b w n) :
    ∃ (body : List Symbol) (b' : Bool) (ns : List Node), body ∈ RulePart.bodies r.shape.2 ∧
      DerivesAll name body b' w ns ∧ r.build name (hull ns) (ns.map (·.value)) = some n.value := by
  obtain ⟨s, body, b', ns, hs, hbody, hall, hv⟩ := h.of_nonterminal
  obtain rfl := hr s (by cases s <;> decide) hs
  exact ⟨body, b', ns, hbody, hall, hv⟩

/-- The tokens and the node of a part that may be left out. -/
def DerivesMaybe (name : String) (m : Nonterminal) (w : List Token) (ns : List Node) : Prop :=
  w = [] ∧ ns = [] ∨ ∃ b n, ns = [n] ∧ Derives name (.nonterminal m) b w n

theorem DerivesAll.of_must {ps : List RulePart} (hbody : xs ∈ RulePart.bodies (.must x :: ps))
    (h : DerivesAll name xs b w ns) :
    ∃ b₁ b₂ w₁ w₂ n ns' body, w = w₁ ++ w₂ ∧ ns = n :: ns' ∧ Derives name x b₁ w₁ n ∧
      body ∈ RulePart.bodies ps ∧ DerivesAll name body b₂ w₂ ns' := by
  obtain ⟨body, hrest, rfl⟩ := List.mem_map.mp hbody
  obtain ⟨b₁, b₂, w₁, w₂, n, ns', rfl, rfl, hx, hxs⟩ := h.of_cons
  exact ⟨b₁, b₂, w₁, w₂, n, ns', body, rfl, rfl, hx, hrest, hxs⟩

theorem DerivesAll.of_maybe {ps : List RulePart} (hbody : xs ∈ RulePart.bodies (.maybe m :: ps))
    (h : DerivesAll name xs b w ns) :
    ∃ b' w₁ w₂ ns₁ ns₂ body, w = w₁ ++ w₂ ∧ ns = ns₁ ++ ns₂ ∧ DerivesMaybe name m w₁ ns₁ ∧
      body ∈ RulePart.bodies ps ∧ DerivesAll name body b' w₂ ns₂ := by
  rcases List.mem_append.mp hbody with hwith | hwithout
  · obtain ⟨body, hrest, rfl⟩ := List.mem_map.mp hwith
    obtain ⟨b₁, b₂, w₁, w₂, n, ns', rfl, rfl, hx, hxs⟩ := h.of_cons
    exact ⟨b₂, w₁, w₂, [n], ns', body, rfl, rfl, .inr ⟨b₁, n, rfl, hx⟩, hrest, hxs⟩
  · exact ⟨b, [], w, [], ns, xs, rfl, rfl, .inl ⟨rfl, rfl⟩, hwithout, h⟩

/-! ## Parts in a row -/

/-- The node of a token. -/
def Token.node (k : Token) : Node := ⟨.token k, some k.span⟩

theorem DerivesAll.tokens (ks : List Token) (h : DerivesAll name xs b w ns) :
    DerivesAll name (ks.map (.terminal ·.terminal) ++ xs) b (ks ++ w) (ks.map Token.node ++ ns) := by
  induction ks with
  | nil => exact h
  | cons k ks ih =>
    have hcons := DerivesAll.cons (.token k) ih fun hb => by cases hb
    rwa [Bool.false_or] at hcons

theorem DerivesAll.token {k : Token} (hk : k.terminal = t) (h : DerivesAll name xs b w ns) :
    DerivesAll name (.terminal t :: xs) b (k :: w) (k.node :: ns) :=
  hk ▸ .tokens [k] h

theorem DerivesAll.of_mustToken {t : Terminal} {ps : List RulePart}
    (hbody : xs ∈ RulePart.bodies (.token t :: ps)) (h : DerivesAll name xs b w ns) :
    ∃ (k : Token) (b' : Bool) (w' : List Token) (ns' : List Node) (body : List Symbol), k.terminal = t ∧
      w = k :: w' ∧ ns = k.node :: ns' ∧ body ∈ RulePart.bodies ps ∧ DerivesAll name body b' w' ns' := by
  obtain ⟨_, b', _, w', _, ns', body, rfl, rfl, ht, hbody, hrest⟩ := h.of_must hbody
  obtain ⟨k, hk, rfl, -, rfl⟩ := ht.of_terminal
  exact ⟨k, b', w', ns', body, hk, rfl, rfl, hbody, hrest⟩

theorem DerivesAll.of_tokens {ts : List Terminal} {ps : List RulePart}
    (hbody : xs ∈ RulePart.bodies (ts.map .token ++ ps)) (h : DerivesAll name xs b w ns) :
    ∃ ks b' w' ns' body, w = ks ++ w' ∧ ks.map (·.terminal) = ts ∧ ns = ks.map Token.node ++ ns' ∧
      body ∈ RulePart.bodies ps ∧ DerivesAll name body b' w' ns' := by
  induction ts generalizing xs b w ns with
  | nil => exact ⟨[], b, w, ns, xs, rfl, rfl, rfl, hbody, h⟩
  | cons t ts ih =>
    obtain ⟨k, _, _, _, _, hk, rfl, rfl, hbody, h⟩ := h.of_mustToken hbody
    obtain ⟨ks, b', w', ns', body, rfl, hks, rfl, hbody, hrest⟩ := ih hbody h
    exact ⟨k :: ks, b', w', ns', body, rfl, by rw [List.map_cons, hk, hks], rfl, hbody, hrest⟩

theorem of_mem_bodies_append {ps qs : List RulePart} (h : xs ∈ RulePart.bodies (ps ++ qs)) :
    ∃ ys zs, xs = ys ++ zs ∧ ys ∈ RulePart.bodies ps ∧ zs ∈ RulePart.bodies qs := by
  induction ps generalizing xs with
  | nil => exact ⟨[], xs, rfl, List.mem_singleton_self _, h⟩
  | cons part ps ih =>
    cases part with
    | must s =>
      obtain ⟨_, hbody, rfl⟩ := List.mem_map.mp h
      obtain ⟨ys, zs, rfl, hys, hzs⟩ := ih hbody
      exact ⟨s :: ys, zs, rfl, List.mem_map_of_mem hys, hzs⟩
    | may ss =>
      rcases List.mem_append.mp h with h | h
      · obtain ⟨_, hbody, rfl⟩ := List.mem_map.mp h
        obtain ⟨ys, zs, rfl, hys, hzs⟩ := ih hbody
        exact ⟨ss ++ ys, zs, (List.append_assoc ss ys zs).symm,
          List.mem_append_left _ (List.mem_map_of_mem hys), hzs⟩
      · obtain ⟨ys, zs, rfl, hys, hzs⟩ := ih h
        exact ⟨ys, zs, rfl, List.mem_append_right _ hys, hzs⟩

theorem DerivesAll.of_append (h : DerivesAll name (xs ++ ys) b w ns) :
    ∃ b₁ b₂ w₁ w₂ ns₁ ns₂, w = w₁ ++ w₂ ∧ ns = ns₁ ++ ns₂ ∧ DerivesAll name xs b₁ w₁ ns₁ ∧
      DerivesAll name ys b₂ w₂ ns₂ := by
  induction xs generalizing b w ns with
  | nil => exact ⟨_, _, [], w, [], ns, rfl, rfl, .nil, h⟩
  | cons x xs ih =>
    cases h with
    | @cons _ _ b' _ w' _ n' _ hx hxs hb =>
      obtain ⟨b₁, b₂, w₁, w₂, ns₁, ns₂, rfl, rfl, hfirst, hrest⟩ := ih hxs
      exact ⟨b' || b₁, b₂, w' ++ w₁, w₂, n' :: ns₁, ns₂, (List.append_assoc w' w₁ w₂).symm, rfl,
        .cons hx hfirst fun ht => (List.append_eq_nil_iff.mp (hb ht)).1, hrest⟩

/-! ## Names of classes -/

/-- The tokens of the name of a class. -/
theorem Derives.of_className (h : Derives name (.nonterminal .className) b w n) :
    ∃ (p : List Token) (k : Token), w = p ++ [k] ∧ k.terminal = .upperName ∧
      (p = [] ∨ ∃ q, p = [q] ∧ q.terminal = .namespacePath) ∧
      (TypeName.parse? (tokensText (w.map .token))).map .name = some n.value := by
  obtain ⟨body, b', ns, hbody, hall, hv⟩ := h.of_rule (r := .className) (by decide)
  have hbodies : RulePart.bodies Rule.className.shape.2
      = [[.terminal .namespacePath, .terminal .upperName], [.terminal .upperName]] := rfl
  rw [hbodies] at hbody
  rcases List.mem_cons.mp hbody with rfl | hbody
  · obtain ⟨q, _, _, _, hq, rfl, rfl, hlast⟩ := hall.of_token
    obtain ⟨k, _, _, _, hk, rfl, rfl, hend⟩ := hlast.of_token
    obtain ⟨_, rfl, rfl⟩ := hend.of_nil
    exact ⟨[q], k, rfl, hk, .inr ⟨q, rfl, hq⟩, hv⟩
  · obtain rfl := List.mem_singleton.mp hbody
    obtain ⟨k, _, _, _, hk, rfl, rfl, hend⟩ := hall.of_token
    obtain ⟨_, rfl, rfl⟩ := hend.of_nil
    exact ⟨[], k, rfl, hk, .inl rfl, hv⟩

end RbsSynth.Signature
