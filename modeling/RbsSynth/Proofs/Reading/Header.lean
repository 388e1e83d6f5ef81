import RbsSynth.Proofs.Reading.TypeNames
import RbsSynth.Proofs.Reading.Twins
import RbsSynth.Proofs.Table.Inversion

/-!
# The header of a class

    class Name
    ...

A reader goes on behind the header as in the body of the class.
-/

namespace RbsSynth.Signature

open Terminal

/-- The tokens of a header. -/
def IsHeader (n : TypeName) (w : List Token) : Prop :=
  ∃ (k : Token) (p : List Token) (l : Token), w = k :: (p ++ [l]) ∧ k.terminal = classWord ∧
    (p = [] ∨ ∃ q, p = [q] ∧ q.terminal = namespacePath) ∧ l.terminal = upperName ∧
    TypeName.parse? (tokensText ((p ++ [l]).map .token)) = some n

variable {name : String} {n : TypeName}

/-- **A header is read.** -/
theorem reads_header (name : String) (hn : n.IsClass) (rest : List Char) :
    ∃ w p, IsHeader n w ∧ Scans .start {} ("class ".toList ++ n.render.toList ++ '\n' :: rest) w []
      (.behind upperName) p ('\n' :: rest) := by
  have hword : Reads name [.start] "class".toList (' ' :: (n.render.toList ++ '\n' :: rest))
      (.terminal classWord) false (.token classWord "class".toList) [.behind classWord] :=
    .keyword (by decide) (by decide) fun c cs he => by
      obtain ⟨rfl, -⟩ := List.cons.inj he
      exact ⟨by decide, fun h => absurd h (by decide)⟩
  have hname : Reads name [.behind classWord] n.render.toList ('\n' :: rest) (.nonterminal .className)
      false (.value (.name n)) [.behind upperName] :=
    reads_className hn (by decide) (Stops.cons (by decide) rest).follows
  have hall := ReadsAll.cons hword (.space (.one hname))
  obtain ⟨w, ns, c', b', hw, -, hparts, hscan, hc'⟩ := hall .start List.mem_cons_self {}
  obtain rfl := List.mem_singleton.mp hc'
  refine ⟨w, _, ?_, hscan⟩
  obtain ⟨k, _, w', ns', hk, rfl, rfl, hall'⟩ := hw.of_token
  obtain ⟨_, _, w₁, w₂, node, ns₂, rfl, rfl, hder, hend⟩ := hall'.of_cons
  obtain ⟨_, rfl, rfl⟩ := hend.of_nil
  obtain ⟨p, l, rfl, hl, hp, hv⟩ := hder.of_className
  refine ⟨k, p, l, by rw [List.append_nil], hk, hp, hl, ?_⟩
  rw [List.map_cons, List.map_cons, List.map_nil] at hparts
  cases hparts with
  | cons _ hparts =>
    cases hparts with
    | cons hpart _ =>
      generalize node.value = v at hpart hv
      cases hpart
      obtain ⟨n', hn', he⟩ := Option.map_eq_some_iff.mp hv
      rw [hn', Value.name.inj he]

/-! ## The stack behind a header -/

/-- What is told of the stack behind a header and of that with the whole name of the class. -/
structure Opened (name : String) (stack base : List (Lr.Frame Node)) : Prop where
  state : Lr.top base = bodyState
  settle : ∀ (t : Terminal) (q : Nat) (ws : List (Lr.Frame Node)),
    (machine name).settle t.number stack = .shift q ws →
      (machine name).settle t.number base = .shift q ws
  path : Accepts (Lr.top stack) namespacePath

/-- The stack before the name of a class, whose word is `k`. -/
def classFrames (k : Token) : List (Lr.Frame Node) :=
  [⟨13, ⟨.token k, some k.span⟩⟩, ⟨5, ⟨.annotations [], none⟩⟩]

theorem chain_classFrames (k : Token) :
    Chain (fun _ _ _ => True) (classFrames k) := by
  refine .push (x := .terminal classWord) (.push (x := .nonterminal .annotations) .nil ?_ trivial) ?_
    trivial
  · exact (by decide +kernel : next? 0 (.nonterminal .annotations) = some 5)
  · exact (by decide +kernel : next? 5 (.terminal classWord) = some 13)

theorem settle_classWord (name : String) : (machine name).settle classWord.number []
    = .shift 13 [⟨5, ⟨.annotations [], none⟩⟩] := by
  have hp : productions[7]? = some ⟨.annotations, []⟩ := by decide +kernel
  have ha : action? 0 classWord = some (.reduce 7) := by decide +kernel
  have hshift : action? 5 classWord = some (.shift 13) := by decide +kernel
  have hq : next? 0 (.nonterminal .annotations) = some 5 := by decide +kernel
  have hr : (machine name).reduce 7 [] = some [⟨5, ⟨.annotations [], none⟩⟩] :=
    reduce_of_build hp (buildNode_eq hp rfl) hq
  rw [settle_reduce .nil ha (by decide) hr]
  exact settle_shift hshift

/-- Behind the last token of a name only the name is reduced. -/
theorem opened_of_reduce {q i : Nat} {p : Production} {k : Token} {node : Node}
    (frames : List (Lr.Frame Node)) (hp : productions[i]? = some p) (hi : i ≠ 0) (hhead : p.head = .className)
    (hlen : p.body.length = frames.length) (hn : buildNode name i (frames.reverse.map (·.value)) = some node)
    (htop : Lr.top (frames ++ classFrames k) = q) (hpath : Accepts q namespacePath)
    (hq : ∀ t, action? q t = none ∨ action? q t = some (.reduce i))
    (hchain : Chain (fun _ _ _ => True) (frames ++ classFrames k)) :
    Opened name (frames ++ classFrames k) (⟨bodyState, node⟩ :: classFrames k) := by
  have hgoto : next? (Lr.top (classFrames k)) (.nonterminal p.head) = some bodyState := by
    rw [hhead]
    show next? 13 (.nonterminal .className) = some bodyState
    decide +kernel
  have hr : (machine name).reduce i (frames ++ classFrames k)
      = some (⟨bodyState, node⟩ :: classFrames k) := by
    have htake : (frames ++ classFrames k).take p.body.length = frames := hlen ▸ List.take_left
    have hdrop : (frames ++ classFrames k).drop p.body.length = classFrames k :=
      hlen ▸ List.drop_left
    rw [← htake] at hn
    rw [← hdrop] at hgoto
    simpa only [hdrop] using reduce_of_build hp hn hgoto
  refine ⟨rfl, fun t s ws hs => ?_, htop.symm ▸ hpath⟩
  rcases hq t with ha | ha <;> rw [← htop] at ha
  · rw [settle_none ha] at hs
    cases hs
  · rw [← hs]
    exact (settle_reduce hchain ha hi hr).symm

/-- Whether production `i` is all that state `q` does, and it does so before a path. -/
def reducesOnly (q i : Nat) : Bool :=
  (action? q namespacePath).isSome &&
    Terminal.all.all fun t => action? q t = none || action? q t = some (.reduce i)

theorem reducesOnly_spec {q i : Nat} (h : reducesOnly q i = true) : Accepts q namespacePath ∧
    ∀ t, action? q t = none ∨ action? q t = some (.reduce i) := by
  rw [reducesOnly, Bool.and_eq_true] at h
  refine ⟨h.1, fun t => ?_⟩
  have ht := List.all_eq_true.mp h.2 t t.mem_all
  rwa [Bool.or_eq_true, decide_eq_true_eq, decide_eq_true_eq] at ht

/-- **The stack behind a header.** -/
theorem feed_header (name : String) {w : List Token} (h : IsHeader n w) : ∃ stack base,
    feedTokens (machine name) w [] = some stack ∧ Opened name stack base := by
  obtain ⟨k, p, l, rfl, hk, hp, hl, hparse⟩ := h
  have hclass : feedTokens (machine name) (k :: (p ++ [l])) []
      = feedTokens (machine name) (p ++ [l]) (classFrames k) := by
    rw [feedTokens, hk]
    simp only [settle_classWord]
    rfl
  rcases hp with rfl | ⟨q, rfl, hq⟩
  · have hshift : action? 13 upperName = some (.shift 10) := by decide +kernel
    have hp : productions[176]? = some ⟨.className, [.terminal upperName]⟩ := by decide +kernel
    obtain ⟨hpath, honly⟩ := reducesOnly_spec (by decide +kernel : reducesOnly 10 176 = true)
    have hbuild : buildNode name 176 [⟨.token l, some l.span⟩] = some ⟨.name n, _⟩ :=
      buildNode_eq hp (by
        show (TypeName.parse? (tokensText [.token l])).map Value.name = _
        rw [← List.map_singleton, ← List.nil_append [l], hparse]
        rfl)
    refine ⟨⟨10, ⟨.token l, some l.span⟩⟩ :: classFrames k, _, ?_,
      opened_of_reduce [⟨10, ⟨.token l, some l.span⟩⟩] hp (by decide) rfl rfl hbuild rfl
        hpath honly (.push (chain_classFrames k) (next?_of_action? hshift) trivial)⟩
    have hs : (machine name).settle upperName.number (classFrames k) = .shift 10 (classFrames k) :=
      settle_shift hshift
    rw [hclass, List.nil_append, feedTokens, hl]
    simp only [hs]
    rfl
  · have hshift : action? 13 namespacePath = some (.shift 8) := by decide +kernel
    have hshift' : action? 8 upperName = some (.shift 24) := by decide +kernel
    have hp : productions[175]? = some ⟨.className, [.terminal namespacePath, .terminal upperName]⟩ := by
      decide +kernel
    obtain ⟨hpath, honly⟩ := reducesOnly_spec (by decide +kernel : reducesOnly 24 175 = true)
    have hbuild : buildNode name 175 [⟨.token q, some q.span⟩, ⟨.token l, some l.span⟩]
        = some ⟨.name n, _⟩ :=
      buildNode_eq hp (by
        show (TypeName.parse? (tokensText [.token q, .token l])).map Value.name = _
        have htokens : [Value.token q, .token l] = ([q] ++ [l]).map .token := rfl
        rw [htokens, hparse]
        rfl)
    refine ⟨[⟨24, ⟨.token l, some l.span⟩⟩, ⟨8, ⟨.token q, some q.span⟩⟩] ++ classFrames k, _, ?_,
      opened_of_reduce [⟨24, ⟨.token l, some l.span⟩⟩, ⟨8, ⟨.token q, some q.span⟩⟩] hp
        (by decide) rfl rfl hbuild rfl hpath honly
        (.push (.push (chain_classFrames k) (next?_of_action? hshift) trivial)
          (next?_of_action? hshift') trivial)⟩
    have hs : (machine name).settle namespacePath.number (classFrames k)
        = .shift 8 (classFrames k) := settle_shift hshift
    have hs' : (machine name).settle upperName.number (⟨8, ⟨.token q, some q.span⟩⟩ :: classFrames k)
        = .shift 24 (⟨8, ⟨.token q, some q.span⟩⟩ :: classFrames k) := settle_shift hshift'
    rw [hclass, List.singleton_append, feedTokens, hq]
    simp only [hs]
    rw [feedTokens, hl]
    simp only [hs']
    rfl

end RbsSynth.Signature
