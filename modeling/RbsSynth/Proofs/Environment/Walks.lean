import RbsSynth.Proofs.Environment.Reached

/-!
# Walks to the ancestors come to an end

How ancestors are listed, step by step: with the depth counted up from the start, and with nothing else that
bounds the number of steps.  A module is passed over when it is listed, but it is listed only behind what is
prepended to it, so mixins that lead back to a module are followed round; the depth ends that.  Every walk has
just one run, for any mixins and superclasses, and so has every list of ancestors:

    env.Walks depth ms found found'  ↔  found' = env.addSides (depthLimit + 1 - depth) ms found   (walks_iff)
    env.HasAncestors name side as    ↔  as = env.ancestors name side                              (hasAncestors_iff)

A run enters a module at most once at each depth, and so lists it no more often than there are depths
(`HasAncestors.count_le`).
-/

namespace RbsSynth.Environment

/-- The instance sides of some modules at a depth, one after another. -/
inductive Walks (env : Environment) : Nat → List String → List Ancestor → List Ancestor → Prop
  | done (depth : Nat) (found : List Ancestor) : Walks env depth [] found found
  | passed {depth : Nat} {m : String} {ms : List String} {found found' : List Ancestor}
    (h : env.entry? m = none ∨ ⟨m, .ofInstance⟩ ∈ found ∨ depthLimit < depth)
    (rest : Walks env depth ms found found') : Walks env depth (m :: ms) found found'
  | entered {depth : Nat} {m : String} {e : ModuleEntry} {ms : List String}
    {found before behind found' : List Ancestor} (he : env.entry? m = some e)
    (new : ⟨m, .ofInstance⟩ ∉ found) (h : depth ≤ depthLimit)
    (prepends : Walks env (depth + 1) (env.prepended e) found before)
    (includes : Walks env (depth + 1) (env.included e) (before ++ [⟨m, .ofInstance⟩]) behind)
    (rest : Walks env depth ms behind found') : Walks env depth (m :: ms) found found'

/-- A class and its superclasses, from a depth on. -/
inductive Climbs (env : Environment) : Nat → Option String → List Ancestor → List Ancestor → Prop
  | done {depth : Nat} {current : Option String} (h : current = none ∨ depthLimit < depth)
    (found : List Ancestor) : Climbs env depth current found found
  | next {depth : Nat} {c : String} {found found' found'' : List Ancestor} (h : depth ≤ depthLimit)
    (side : Walks env depth [c] found found')
    (rest : Climbs env (depth + 1) (env.superclassOf? c) found' found'') :
    Climbs env depth (some c) found found''

/-- The singleton sides of a class and its superclasses, with the depth at which they end. -/
inductive ClimbsSingletons (env : Environment) :
    Nat → Option String → List Ancestor → List Ancestor → Nat → Prop
  | done {depth : Nat} {current : Option String} (h : current = none ∨ depthLimit < depth)
    (found : List Ancestor) : ClimbsSingletons env depth current found found depth
  | stopped {depth : Nat} {c : String} {found : List Ancestor}
    (h : env.entry? c = none ∨ ⟨c, .ofSingleton⟩ ∈ found) :
    ClimbsSingletons env depth (some c) found found depth
  | next {depth last : Nat} {c : String} {e : ModuleEntry} {found found' found'' : List Ancestor}
    (h : depth ≤ depthLimit) (he : env.entry? c = some e) (new : ⟨c, .ofSingleton⟩ ∉ found)
    (side : Walks env (depth + 1) (env.extended e) (found ++ [⟨c, .ofSingleton⟩]) found')
    (rest : ClimbsSingletons env (depth + 1) (env.superclassOf? c) found' found'' last) :
    ClimbsSingletons env depth (some c) found found'' last

/-- The ancestors of a name on a side. -/
inductive HasAncestors (env : Environment) (name : String) : Side → List Ancestor → Prop
  | undeclared (h : env.entry? name = none) (side : Side) : HasAncestors env name side []
  | ofClass {e : ModuleEntry} {found : List Ancestor} (he : env.entry? name = some e)
    (kind : e.kind ≠ .ofModule) (chain : Climbs env 0 (some name) [] found) : HasAncestors env name .ofInstance found
  | ofModule {e : ModuleEntry} {found found' : List Ancestor} (he : env.entry? name = some e)
    (kind : e.kind = .ofModule) (chain : Climbs env 0 (some name) [] found)
    (object : Walks env 1 ["Object"] found found') : HasAncestors env name .ofInstance found'
  | ofSingleton {e : ModuleEntry} {found found' : List Ancestor} {last : Nat} (he : env.entry? name = some e)
    (chain : ClimbsSingletons env 0 (some name) [] found last)
    (behind : Climbs env last (some (if e.kind = .ofModule then "Module" else "Class")) found found') :
    HasAncestors env name .ofSingleton found'

variable {env : Environment}

/-! ## One walk -/

theorem levels_eq {depth : Nat} (h : depth ≤ depthLimit) :
    depthLimit + 1 - depth = depthLimit + 1 - (depth + 1) + 1 := by
  omega

theorem addSides_cons (n : Nat) (m : String) (ms : List String) (found : List Ancestor) :
    env.addSides n (m :: ms) found = env.addSides n ms (env.addSide n m found) := rfl

theorem addSide_of_passed {depth : Nat} {m : String} {found : List Ancestor}
    (h : env.entry? m = none ∨ ⟨m, .ofInstance⟩ ∈ found ∨ depthLimit < depth) :
    env.addSide (depthLimit + 1 - depth) m found = found := by
  rcases h with h | h | h
  · exact addSide_of_none h _ found
  · exact addSide_of_mem h _
  · have hzero : depthLimit + 1 - depth = 0 := by omega
    rw [hzero, addSide]

theorem Walks.eq {depth : Nat} {ms : List String} {found found' : List Ancestor}
    (h : env.Walks depth ms found found') : env.addSides (depthLimit + 1 - depth) ms found = found' := by
  induction h with
  | done => rfl
  | passed h _ ih => rw [addSides_cons, addSide_of_passed h, ih]
  | entered he new h _ _ _ ihprepends ihincludes ihrest =>
    rw [addSides_cons]
    rw [levels_eq h, addSide_of_new he new, ihprepends, ihincludes, ← levels_eq h, ihrest]

theorem walks_addSides (n : Nat) {depth : Nat} (hn : depthLimit + 1 - depth = n) (ms : List String)
    (found : List Ancestor) : env.Walks depth ms found (env.addSides n ms found) := by
  induction n generalizing depth ms found with
  | zero =>
    induction ms with
    | nil => exact .done depth found
    | cons m ms ih => exact .passed (.inr (.inr (by omega))) ih
  | succ n ih =>
    have hdepth : depth ≤ depthLimit := by omega
    induction ms generalizing found with
    | nil => exact .done depth found
    | cons m ms ihms =>
      rw [addSides_cons]
      cases he : env.entry? m with
      | none =>
        rw [addSide_of_none he]
        exact .passed (.inl he) (ihms found)
      | some e =>
        by_cases hin : ⟨m, .ofInstance⟩ ∈ found
        · rw [addSide_of_mem hin]
          exact .passed (.inr (.inl hin)) (ihms found)
        · rw [addSide_of_new he hin]
          exact .entered he hin hdepth (ih (by omega) _ _) (ih (by omega) _ _) (ihms _)

/-- **A walk has just one run.** -/
theorem walks_iff {depth : Nat} {ms : List String} {found found' : List Ancestor} :
    env.Walks depth ms found found' ↔ found' = env.addSides (depthLimit + 1 - depth) ms found := by
  constructor
  · intro h
    exact h.eq.symm
  · rintro rfl
    exact walks_addSides _ rfl ms found

/-! ## Chains -/

theorem addChain_of_done {depth : Nat} {current : Option String} (h : current = none ∨ depthLimit < depth)
    (found : List Ancestor) : env.addChain (depthLimit + 1 - depth) current found = found := by
  rcases h with rfl | h
  · cases depthLimit + 1 - depth <;> rfl
  · have hzero : depthLimit + 1 - depth = 0 := by omega
    rw [hzero, addChain]

theorem Climbs.eq {depth : Nat} {current : Option String} {found found' : List Ancestor}
    (h : env.Climbs depth current found found') :
    env.addChain (depthLimit + 1 - depth) current found = found' := by
  induction h with
  | done h found => exact addChain_of_done h found
  | next h side _ ih =>
    have hside := side.eq
    rw [levels_eq h] at hside ⊢
    rw [addChain, ← ih, ← hside]
    rfl

theorem climbs_addChain (n : Nat) {depth : Nat} (hn : depthLimit + 1 - depth = n) (current : Option String)
    (found : List Ancestor) : env.Climbs depth current found (env.addChain n current found) := by
  induction n generalizing depth current found with
  | zero => exact .done (.inr (by omega)) found
  | succ n ih =>
    cases current with
    | none => exact .done (.inl rfl) found
    | some c =>
      rw [addChain]
      exact .next (by omega) (walks_addSides (n + 1) hn [c] found) (ih (by omega) _ _)

theorem addSingletons_of_done {depth : Nat} {current : Option String}
    (h : current = none ∨ depthLimit < depth) (found : List Ancestor) :
    env.addSingletons (depthLimit + 1 - depth) current found = (found, depthLimit + 1 - depth) := by
  rcases h with rfl | h
  · cases depthLimit + 1 - depth <;> rfl
  · have hzero : depthLimit + 1 - depth = 0 := by omega
    rw [hzero, addSingletons]

theorem addSingletons_of_stopped {c : String} {found : List Ancestor}
    (h : env.entry? c = none ∨ ⟨c, .ofSingleton⟩ ∈ found) (n : Nat) :
    env.addSingletons n (some c) found = (found, n) := by
  cases n with
  | zero => rfl
  | succ n =>
    rw [addSingletons]
    rcases h with h | h
    · rw [h]
    · split
      · rfl
      · rw [if_pos (List.contains_iff_mem.mpr h)]

theorem addSingletons_of_new {c : String} {e : ModuleEntry} {found : List Ancestor}
    (he : env.entry? c = some e) (h : ⟨c, .ofSingleton⟩ ∉ found) (n : Nat) :
    env.addSingletons (n + 1) (some c) found = env.addSingletons n (env.superclassOf? c)
      (env.addSides n (env.extended e) (found ++ [⟨c, .ofSingleton⟩])) := by
  rw [addSingletons, he]
  dsimp only
  rw [if_neg fun hin => h (List.contains_iff_mem.mp hin)]
  rfl

theorem ClimbsSingletons.eq {depth last : Nat} {current : Option String} {found found' : List Ancestor}
    (h : env.ClimbsSingletons depth current found found' last) :
    env.addSingletons (depthLimit + 1 - depth) current found = (found', depthLimit + 1 - last) := by
  induction h with
  | done h found => exact addSingletons_of_done h found
  | stopped h => exact addSingletons_of_stopped h _
  | next h he new side _ ih => rw [levels_eq h, addSingletons_of_new he new, side.eq, ih]

theorem exists_climbsSingletons (n : Nat) {depth : Nat} (hn : depthLimit + 1 - depth = n)
    (current : Option String) (found : List Ancestor) :
    ∃ found' last, env.ClimbsSingletons depth current found found' last := by
  induction n generalizing depth current found with
  | zero => exact ⟨found, depth, .done (.inr (by omega)) found⟩
  | succ n ih =>
    cases current with
    | none => exact ⟨found, depth, .done (.inl rfl) found⟩
    | some c =>
      cases he : env.entry? c with
      | none => exact ⟨found, depth, .stopped (.inl he)⟩
      | some e =>
        by_cases hin : ⟨c, .ofSingleton⟩ ∈ found
        · exact ⟨found, depth, .stopped (.inr hin)⟩
        · have hdeeper : depthLimit + 1 - (depth + 1) = n := by omega
          have side : env.Walks (depth + 1) (env.extended e) (found ++ [⟨c, .ofSingleton⟩]) _ :=
            walks_addSides n hdeeper _ _
          obtain ⟨found', last, rest⟩ := ih hdeeper (env.superclassOf? c) _
          exact ⟨found', last, .next (by omega) he hin side rest⟩

/-! ## Ancestors -/

theorem HasAncestors.eq {name : String} {side : Side} {as : List Ancestor} (h : env.HasAncestors name side as) :
    env.ancestors name side = as := by
  cases h with
  | undeclared h side => exact ancestors_of_none h side
  | ofClass he kind chain =>
    rw [ancestors, he]
    simp only [if_neg kind]
    exact chain.eq
  | ofModule he kind chain object =>
    have hchain := chain.eq
    have hobject := object.eq
    rw [Nat.sub_zero] at hchain
    rw [ancestors, he]
    simp only [if_pos kind, hchain]
    exact hobject
  | ofSingleton he chain behind =>
    have hchain := chain.eq
    rw [Nat.sub_zero] at hchain
    rw [ancestors, he]
    simp only [hchain]
    exact behind.eq

/-- **The ancestors of a name have just one run.** -/
theorem hasAncestors_iff {name : String} {side : Side} {as : List Ancestor} :
    env.HasAncestors name side as ↔ as = env.ancestors name side := by
  constructor
  · intro h
    exact h.eq.symm
  · rintro rfl
    have run : ∃ as, env.HasAncestors name side as := by
      cases he : env.entry? name with
      | none => exact ⟨[], .undeclared he side⟩
      | some e =>
        have chain : env.Climbs 0 (some name) [] _ := climbs_addChain _ rfl (some name) []
        cases side with
        | ofInstance =>
          by_cases kind : e.kind = .ofModule
          · exact ⟨_, .ofModule he kind chain (walks_addSides _ rfl ["Object"] _)⟩
          · exact ⟨_, .ofClass he kind chain⟩
        | ofSingleton =>
          obtain ⟨found, last, singletons⟩ : ∃ found last, env.ClimbsSingletons 0 (some name) [] found last :=
            exists_climbsSingletons _ rfl (some name) []
          exact ⟨_, .ofSingleton he singletons (climbs_addChain _ rfl _ found)⟩
    obtain ⟨as, h⟩ := run
    rw [h.eq]
    exact h

/-! ## How often a module is entered -/

/-- A walk does not list what is listed again, and lists a module no more often than there are depths left. -/
theorem Walks.count_le {m : String} {depth : Nat} {ms : List String} {found found' : List Ancestor}
    (h : env.Walks depth ms found found') :
    (⟨m, .ofInstance⟩ ∈ found → found'.count ⟨m, .ofInstance⟩ = found.count ⟨m, .ofInstance⟩) ∧
      ∀ k, depthLimit + 1 - depth ≤ k → found.count ⟨m, .ofInstance⟩ ≤ k →
        found'.count ⟨m, .ofInstance⟩ ≤ k := by
  induction h with
  | done => exact ⟨fun _ => rfl, fun _ _ hk => hk⟩
  | passed _ _ ih => exact ih
  | @entered depth x e ms found before behind found' he new h _ _ _ ihprepends ihincludes ihrest =>
    have hsnoc : (before ++ [(⟨x, .ofInstance⟩ : Ancestor)]).count ⟨m, .ofInstance⟩
        = before.count ⟨m, .ofInstance⟩ + if x = m then 1 else 0 := by
      rw [List.count_append, List.count_singleton]
      simp
    by_cases hx : x = m
    · -- the module itself: not listed before, and listed once more behind its prepended modules
      subst hx
      rw [if_pos rfl] at hsnoc
      have hzero : found.count ⟨x, .ofInstance⟩ = 0 := List.count_eq_zero.mpr new
      have hbefore := ihprepends.2 (depthLimit - depth) (by omega) (by omega)
      have hbehind := ihincludes.1 (List.mem_append_right _ List.mem_cons_self)
      refine ⟨fun hin => absurd hin new, fun k hk _ => ihrest.2 k hk (by omega)⟩
    · rw [if_neg hx, Nat.add_zero] at hsnoc
      constructor
      · intro hin
        have hpos := List.count_pos_iff.mpr hin
        have hbefore := ihprepends.1 hin
        have hbehind := ihincludes.1 (List.mem_append_left _ (List.count_pos_iff.mp (by omega)))
        rw [ihrest.1 (List.count_pos_iff.mp (by omega)), hbehind, hsnoc, hbefore]
      · intro k hk hfound
        have hbefore := ihprepends.2 k (by omega) hfound
        have hbehind := ihincludes.2 k (by omega) (by omega)
        exact ihrest.2 k hk hbehind

theorem Climbs.count_le {m : String} {depth : Nat} {current : Option String} {found found' : List Ancestor}
    (h : env.Climbs depth current found found') (hfound : found.count ⟨m, .ofInstance⟩ ≤ depthLimit + 1) :
    found'.count ⟨m, .ofInstance⟩ ≤ depthLimit + 1 := by
  induction h with
  | done => exact hfound
  | next _ side _ ih => exact ih (side.count_le.2 _ (Nat.sub_le _ _) hfound)

theorem ClimbsSingletons.count_le {m : String} {depth last : Nat} {current : Option String}
    {found found' : List Ancestor} (h : env.ClimbsSingletons depth current found found' last)
    (hfound : found.count ⟨m, .ofInstance⟩ ≤ depthLimit + 1) :
    found'.count ⟨m, .ofInstance⟩ ≤ depthLimit + 1 := by
  induction h with
  | done => exact hfound
  | stopped => exact hfound
  | next _ _ _ side _ ih =>
    refine ih (side.count_le.2 _ (Nat.sub_le _ _) ?_)
    rw [List.count_append, List.count_singleton, if_neg (by simp), Nat.add_zero]
    exact hfound

/-- **A module is listed no more often than there are depths.** -/
theorem HasAncestors.count_le {name m : String} {side : Side} {as : List Ancestor}
    (h : env.HasAncestors name side as) : as.count ⟨m, .ofInstance⟩ ≤ depthLimit + 1 := by
  have hnil : ([] : List Ancestor).count ⟨m, .ofInstance⟩ ≤ depthLimit + 1 := Nat.zero_le _
  cases h with
  | undeclared => exact hnil
  | ofClass _ _ chain => exact chain.count_le hnil
  | ofModule _ _ chain object => exact object.count_le.2 _ (Nat.sub_le _ _) (chain.count_le hnil)
  | ofSingleton _ chain behind => exact behind.count_le (chain.count_le hnil)

end RbsSynth.Environment
