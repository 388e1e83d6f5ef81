import RbsSynth.Proofs.Scanning.LineEnd

/-!
# Runs over texts

A reader skips a blank, skips a comment or gives a token to the machine; what is told of these three is
told of all its runs (`reading_induction`).

    Finds name st cs w st' cs'  says that st finds the tokens w and goes on as st' with cs'
    run name 0 st cs = .ok st'  →  st finds some tokens w, and cs is cut into them   (run_finds, run_cuts)
    Scans c p cs w k c' p' cs'  →  a reader in the context c finds w                  (finds_of_scans)
    run name 0 st (cs ++ '\n' :: r)  is a run over cs and then one over '\n' :: r      (run_append_line)
-/

namespace RbsSynth.Signature

open Terminal

/-- The lexicon in which a reader looks for what comes next. -/
def Progress.lexicon (st : Progress) : Lexicon := lexicons.getD (Lr.top st.stack) Lexicon.full

/-- The token that a reader takes off a text. -/
def Progress.tokenOf (st : Progress) (t : Terminal) (x : List Char) : Token :=
  ⟨t, .ofList x, ⟨st.position, st.position.advance x⟩⟩

/-- A reader that has left out some text. -/
def Progress.past (st : Progress) (x : List Char) : Progress :=
  { st with position := st.position.advance x }

/-- A reader that has left out a comment. -/
def Progress.noted (st : Progress) (x : List Char) : Progress :=
  { st with
    position := st.position.advance x
    comments := ⟨x, st.position.line, st.position.column⟩ :: st.comments }

variable {name : String} {st st' : Progress} {cs : List Char} {c : Char} {t : Terminal} {n : Nat}

/-! ## Steps -/

theorem not_blank_of_next? {lexicon : Lexicon} (hc : isBlankChar c = false)
    (h : lexicon.next? (c :: cs) = some (blank, n)) : False := by
  obtain ⟨x, rest, he, -, hne, hx⟩ := takes_of_next? h
  obtain ⟨d, y, rfl⟩ := List.exists_cons_of_ne_nil hne
  obtain ⟨rfl, -⟩ := List.cons.inj he
  rw [hx c List.mem_cons_self] at hc
  cases hc

theorem pos_of_next? {lexicon : Lexicon} (h : lexicon.next? cs = some (t, n)) : 0 < n := by
  obtain ⟨x, rest, -, rfl, hx⟩ := takes_of_next? h
  exact List.length_pos_iff.mpr hx.ne_nil

theorem Progress.step_none (name : String) (h : st.lexicon.next? (c :: cs) = none) :
    ∃ f, st.step name (c :: cs) = .error f ∧ f.expected = st.lexicon.expected := by
  unfold step
  unfold lexicon at h ⊢
  simp only [h]
  cases Lexicon.full.next? (c :: cs) with
  | none => exact ⟨_, rfl, by with_reducible rfl⟩
  | some p => exact ⟨_, rfl, by with_reducible rfl⟩

theorem Progress.step_noted (name : String) (h : st.lexicon.next? cs = some (comment, n)) :
    st.step name cs = .ok (st.noted (cs.take n), n) := step_comment h

theorem Progress.step_some (name : String) (h : st.lexicon.next? cs = some (t, n))
    (ht : t.isSkipped = false) :
    st.step name cs = (st.feed name (st.tokenOf t (cs.take n))).map (·, n) := by
  unfold step
  unfold lexicon at h
  simp only [h, ht]
  rfl

/-! ## Runs -/

namespace Progress

theorem run_past (hc : isBlankChar c = true) (cs : List Char) :
    run name 0 st (c :: cs) = run name 0 (st.past [c]) cs :=
  run_blank (b := [c]) (fun a ha => by rw [List.mem_singleton.mp ha]; exact hc) cs

theorem run_none (name : String) (h : st.lexicon.next? (c :: cs) = none) :
    ∃ f, run name 0 st (c :: cs) = .error f ∧ f.expected = st.lexicon.expected := by
  obtain ⟨f, hf, he⟩ := step_none name h
  exact ⟨f, by rw [run_cons, hf], he⟩

theorem run_noted (h : st.lexicon.next? (c :: cs) = some (comment, n)) :
    run name 0 st (c :: cs)
      = run name 0 (st.noted ((c :: cs).take n)) ((c :: cs).drop n) :=
  run_step (List.cons_ne_nil c cs) (step_noted name h) (pos_of_next? h)

theorem run_token_ok (h : st.lexicon.next? (c :: cs) = some (t, n)) (ht : t.isSkipped = false)
    (hf : st.feed name (st.tokenOf t ((c :: cs).take n)) = .ok st') :
    run name 0 st (c :: cs) = run name 0 st' ((c :: cs).drop n) := by
  refine run_step (List.cons_ne_nil c cs) ?_ (pos_of_next? h)
  rw [step_some name h ht, hf]
  rfl

theorem run_token_error {f : Fault} (h : st.lexicon.next? (c :: cs) = some (t, n))
    (ht : t.isSkipped = false) (hf : st.feed name (st.tokenOf t ((c :: cs).take n)) = .error f) :
    run name 0 st (c :: cs) = .error f := by
  rw [run_cons, step_some name h ht, hf]
  rfl

/-- **What one step keeps a run keeps.** -/
theorem reading_induction {motive : Progress → List Char → Prop} (name : String)
    (nil : ∀ st, motive st [])
    (blank : ∀ st c cs, isBlankChar c = true → motive (st.past [c]) cs → motive st (c :: cs))
    (none : ∀ st c cs, isBlankChar c = false → st.lexicon.next? (c :: cs) = none →
      motive st (c :: cs))
    (comment : ∀ st c cs n, isBlankChar c = false →
      st.lexicon.next? (c :: cs) = some (comment, n) →
      motive (st.noted ((c :: cs).take n)) ((c :: cs).drop n) → motive st (c :: cs))
    (token : ∀ st c cs t n, isBlankChar c = false → st.lexicon.next? (c :: cs) = some (t, n) →
      t.isSkipped = false →
      (∀ st', st.feed name (st.tokenOf t ((c :: cs).take n)) = .ok st' →
        motive st' ((c :: cs).drop n)) → motive st (c :: cs))
    (st : Progress) (cs : List Char) : motive st cs := by
  generalize hlen : cs.length = k
  induction k using Nat.strongRecOn generalizing st cs with
  | ind k ih =>
    subst hlen
    cases cs with
    | nil => exact nil st
    | cons c cs =>
      by_cases hc : isBlankChar c = true
      · exact blank st c cs hc (ih _ (Nat.lt_succ_self _) _ cs rfl)
      · rw [Bool.not_eq_true] at hc
        cases hn : st.lexicon.next? (c :: cs) with
        | none => exact none st c cs hc hn
        | some p =>
          obtain ⟨t, n⟩ := p
          have hless : ((c :: cs).drop n).length < (c :: cs).length := by
            have hpos := pos_of_next? hn
            rw [List.length_drop, List.length_cons]
            omega
          cases ht : t.isSkipped with
          | false => exact token st c cs t n hc hn ht fun st' _ => ih _ hless st' _ rfl
          | true =>
            have hcases : t = .blank ∨ t = .comment := by
              revert ht
              cases t <;> decide
            rcases hcases with rfl | rfl
            · exact (not_blank_of_next? hc hn).elim
            · exact comment st c cs n hc hn (ih _ hless _ _ rfl)

end Progress

/-! ## What a reader finds -/

/-- A reader finds tokens at the start of a text, one behind another, and goes on with the rest. -/
inductive Finds (name : String) : Progress → List Char → List Token → Progress → List Char → Prop
  | refl (st : Progress) (cs : List Char) : Finds name st cs [] st cs
  | blank {st st' : Progress} {c : Char} {cs cs' : List Char} {w : List Token}
    (hc : isBlankChar c = true) (h : Finds name (st.past [c]) cs w st' cs') :
    Finds name st (c :: cs) w st' cs'
  | comment {st st' : Progress} {c : Char} {cs cs' : List Char} {w : List Token} {n : Nat}
    (hc : isBlankChar c = false) (hn : st.lexicon.next? (c :: cs) = some (comment, n))
    (h : Finds name (st.noted ((c :: cs).take n)) ((c :: cs).drop n) w st' cs') :
    Finds name st (c :: cs) w st' cs'
  | token {st st₁ st' : Progress} {c : Char} {cs cs' : List Char} {w : List Token} {t : Terminal}
    {n : Nat} (hc : isBlankChar c = false) (hn : st.lexicon.next? (c :: cs) = some (t, n))
    (ht : t.isSkipped = false) (hf : st.feed name (st.tokenOf t ((c :: cs).take n)) = .ok st₁)
    (h : Finds name st₁ ((c :: cs).drop n) w st' cs') :
    Finds name st (c :: cs) (st.tokenOf t ((c :: cs).take n) :: w) st' cs'

/-- A token that is given to the machine is shifted. -/
theorem Progress.settle_of_feed {k : Token} (h : st.feed name k = .ok st') :
    ∃ q stack, (machine name).settle k.terminal.number st.stack = .shift q stack ∧
      st'.stack = ⟨q, ⟨.token k, some k.span⟩⟩ :: stack := by
  unfold feed at h
  split at h
  · next q stack hs =>
    cases h
    exact ⟨q, stack, hs, rfl⟩
  · cases h
  · cases h

variable {st'' : Progress} {cs' cs'' : List Char} {w v : List Token}

theorem Finds.trans (h : Finds name st cs w st' cs') (h' : Finds name st' cs' v st'' cs'') :
    Finds name st cs (w ++ v) st'' cs'' := by
  induction h with
  | refl => exact h'
  | blank hc _ ih => exact .blank hc (ih h')
  | comment hc hn _ ih => exact .comment hc hn (ih h')
  | token hc hn ht hf _ ih => exact .token hc hn ht hf (ih h')

theorem Finds.run_eq (h : Finds name st cs w st' cs') :
    Progress.run name 0 st cs = Progress.run name 0 st' cs' := by
  induction h with
  | refl => rfl
  | blank hc _ ih => rw [Progress.run_past hc, ih]
  | comment _ hn _ ih => rw [Progress.run_noted hn, ih]
  | token _ hn ht hf _ ih => rw [Progress.run_token_ok hn ht hf, ih]

/-- What is found was given to the machine. -/
theorem Finds.feedTokens (h : Finds name st cs w st' cs') :
    feedTokens (machine name) w st.stack = some st'.stack := by
  induction h with
  | refl => rfl
  | blank _ _ ih => exact ih
  | comment _ _ _ ih => exact ih
  | token _ _ _ hf _ ih =>
    obtain ⟨q, stack, hs, hstack⟩ := Progress.settle_of_feed hf
    rw [hstack] at ih
    rw [Signature.feedTokens]
    simp only [hs]
    exact ih

/-- **A text that is read is found.** -/
theorem run_finds (name : String) (st : Progress) (cs : List Char) :
    ∀ st', Progress.run name 0 st cs = .ok st' → ∃ w, Finds name st cs w st' [] := by
  induction st, cs using Progress.reading_induction name with
  | nil st =>
    intro st' h
    rw [Progress.run_nil] at h
    cases h
    exact ⟨[], .refl st []⟩
  | blank st c cs hc ih =>
    intro st' h
    rw [Progress.run_past hc] at h
    obtain ⟨w, hw⟩ := ih st' h
    exact ⟨w, .blank hc hw⟩
  | none st c cs hc hn =>
    intro st' h
    obtain ⟨f, hf, -⟩ := Progress.run_none name hn
    rw [hf] at h
    cases h
  | comment st c cs n hc hn ih =>
    intro st' h
    rw [Progress.run_noted hn] at h
    obtain ⟨w, hw⟩ := ih st' h
    exact ⟨w, .comment hc hn hw⟩
  | token st c cs t n hc hn ht ih =>
    intro st' h
    cases hf : st.feed name (st.tokenOf t ((c :: cs).take n)) with
    | error f =>
      rw [Progress.run_token_error hn ht hf] at h
      cases h
    | ok st₁ =>
      rw [Progress.run_token_ok hn ht hf] at h
      obtain ⟨w, hw⟩ := ih st₁ hf st' h
      exact ⟨_, .token hc hn ht hf hw⟩

/-- **A text is read in one way.** -/
theorem Finds.unique (h : Finds name st cs w st' []) (h' : Finds name st cs v st'' []) : w = v := by
  generalize hnil : ([] : List Char) = rest at h
  induction h generalizing v with
  | refl st =>
    subst hnil
    cases h'
    rfl
  | blank hc _ ih =>
    cases h' with
    | blank _ h' => exact ih h' hnil
    | comment hc' => rw [hc] at hc'; cases hc'
    | token hc' => rw [hc] at hc'; cases hc'
  | comment hc hn _ ih =>
    cases h' with
    | blank hc' => rw [hc] at hc'; cases hc'
    | comment _ hn' h' =>
      obtain ⟨-, rfl⟩ := Prod.mk.inj (Option.some.inj (hn.symm.trans hn'))
      exact ih h' hnil
    | token _ hn' ht' =>
      obtain ⟨rfl, -⟩ := Prod.mk.inj (Option.some.inj (hn.symm.trans hn'))
      cases ht'
  | token hc hn ht hf _ ih =>
    cases h' with
    | blank hc' => rw [hc] at hc'; cases hc'
    | comment _ hn' =>
      obtain ⟨rfl, -⟩ := Prod.mk.inj (Option.some.inj (hn'.symm.trans hn))
      cases ht
    | token _ hn' _ hf' h' =>
      obtain ⟨rfl, rfl⟩ := Prod.mk.inj (Option.some.inj (hn.symm.trans hn'))
      obtain rfl := Except.ok.inj (hf.symm.trans hf')
      rw [ih h' hnil]

theorem Finds.blanks {b : List Char} (hb : ∀ a ∈ b, isBlankChar a = true)
    (h : Finds name (st.past b) cs w st' cs') : Finds name st (b ++ cs) w st' cs' := by
  induction b generalizing st with
  | nil => exact h
  | cons a b ih =>
    obtain ⟨ha, hb⟩ := List.forall_mem_cons.mp hb
    refine .blank ha (ih hb ?_)
    have hpast : st.past (a :: b) = (st.past [a]).past b :=
      congrArg (fun p => { st with position := p }) (Position.advance_append st.position [a] b)
    rwa [hpast] at h

theorem Finds.found {st₁ : Progress} {x r : List Char} (hc : isBlankChar c = false)
    (hn : st.lexicon.next? (c :: cs) = some (t, n)) (ht : t.isSkipped = false)
    (hx : (c :: cs).take n = x) (hr : (c :: cs).drop n = r)
    (hf : st.feed name (st.tokenOf t x) = .ok st₁) (h : Finds name st₁ r w st' cs') :
    Finds name st (c :: cs) (st.tokenOf t x :: w) st' cs' := by
  subst hx hr
  exact .token hc hn ht hf h

theorem Finds.note {x r : List Char} (hc : isBlankChar c = false)
    (hn : st.lexicon.next? (c :: cs) = some (.comment, n)) (hx : (c :: cs).take n = x)
    (hr : (c :: cs).drop n = r) (h : Finds name (st.noted x) r w st' cs') :
    Finds name st (c :: cs) w st' cs' := by
  subst hx hr
  exact .comment hc hn h

/-- **A reader finds what is scanned.** -/
theorem finds_of_scans {c c' : Context} {p p' : Position} {k : List CommentLine}
    (h : Scans c p cs w k c' p' cs') {st : Progress} {stack : List (Lr.Frame Node)}
    (hp : st.position = p) (hc : Stands c (Lr.top st.stack))
    (hw : feedTokens (machine name) w st.stack = some stack) :
    ∃ st', Finds name st cs w st' cs' ∧ st'.stack = stack ∧ st'.comments = k.reverse ++ st.comments := by
  induction h generalizing st with
  | refl c p cs =>
    obtain rfl : st.stack = stack := Option.some.inj hw
    exact ⟨st, .refl st cs, rfl, rfl⟩
  | @blank _ _ _ _ b _ _ _ _ hb _ ih =>
    obtain ⟨st', h, hst'⟩ := @ih (st.past b) (by rw [← hp]; rfl) hc hw
    exact ⟨st', .blanks hb h, hst'⟩
  | @comment c c' p p' x cs cs' w k hx _ ih =>
    subst hp
    obtain ⟨st', h, hstack, hcom⟩ := @ih (st.noted ('#' :: x)) rfl hc hw
    have hx' : ∀ a ∈ x, (a != '\n') = true := fun a ha => bne_iff_ne.mpr fun h => hx (h ▸ ha)
    have htake : (x ++ '\n' :: cs).takeWhile (· != '\n') = x := by
      rw [List.takeWhile_append_of_pos hx']
      exact List.append_nil x
    have hnext : st.lexicon.next? ('#' :: (x ++ '\n' :: cs)) = some (comment, x.length + 1) := by
      have := next?_comment (x ++ '\n' :: cs) (Lr.top st.stack)
      rwa [htake] at this
    have htext : ('#' :: (x ++ '\n' :: cs)).take (x.length + 1) = '#' :: x := by
      rw [List.take_succ_cons, List.take_left]
    have hrest : ('#' :: (x ++ '\n' :: cs)).drop (x.length + 1) = '\n' :: cs := by
      rw [List.drop_succ_cons, List.drop_left]
    refine ⟨st', .note (by decide) hnext htext hrest h, hstack, ?_⟩
    rw [hcom, List.reverse_cons, List.append_assoc]
    rfl
  | @token c c' p p' t x cs cs' w k hx _ ih =>
    rw [feedTokens] at hw
    split at hw
    · next q below hsettle =>
      subst hp
      have hnext := hx.next? hc (accepts_of_settle hsettle)
      have hfeed : st.feed name (st.tokenOf t x) = _ := Progress.feed_shift hsettle
      obtain ⟨st', h, hst'⟩ := @ih { st with
        stack := ⟨q, ⟨.token (st.tokenOf t x), some (st.tokenOf t x).span⟩⟩ :: below
        position := (st.tokenOf t x).span.stop
        lastStart := (st.tokenOf t x).span.start } rfl (hc.next hsettle) hw
      obtain ⟨a, y, rfl⟩ := List.exists_cons_of_ne_nil hx.nonempty
      have ha : isBlankChar a = false := by
        refine Bool.eq_false_iff.mpr fun ha => ?_
        have hblank := next?_blank ha (y ++ cs) (Lr.top st.stack)
        obtain ⟨rfl, -⟩ := Prod.mk.inj (Option.some.inj (hnext.symm.trans hblank))
        cases hx.kept
      exact ⟨st', .found ha hnext hx.kept List.take_left List.drop_left hfeed h, hst'⟩
    · cases hw
    · cases hw

/-! ## Cuts -/

/-- A text is cut into tokens, with blanks and comments between them. -/
inductive Cuts : List Char → List Token → Prop
  | nil : Cuts [] []
  | blank {c : Char} {cs : List Char} {w : List Token} (hc : isBlankChar c = true) (h : Cuts cs w) :
    Cuts (c :: cs) w
  | comment {x cs : List Char} {w : List Token} (hx : '\n' ∉ x) (h : Cuts cs w) :
    Cuts ('#' :: x ++ cs) w
  | token {k : Token} {cs : List Char} {w : List Token} (hk : k.terminal.Takes k.text.toList)
    (h : Cuts cs w) : Cuts (k.text.toList ++ cs) (k :: w)

theorem Cuts.takes (h : Cuts cs w) : ∀ k ∈ w, k.terminal.Takes k.text.toList := by
  induction h with
  | nil => exact List.forall_mem_nil _
  | blank _ _ ih => exact ih
  | comment _ _ ih => exact ih
  | token hk _ ih => exact List.forall_mem_cons.mpr ⟨hk, ih⟩

theorem Finds.cuts (h : Finds name st cs w st' []) : Cuts cs w := by
  generalize hnil : ([] : List Char) = rest at h
  induction h with
  | refl => exact hnil ▸ .nil
  | blank hc _ ih => exact .blank hc (ih hnil)
  | comment _ hn _ ih =>
    obtain ⟨x, rest, he, rfl, y, rfl, hy⟩ := takes_of_next? hn
    have hw := ih hnil
    rw [he, List.drop_left] at hw
    rw [he]
    exact .comment hy hw
  | @token st _ _ _ _ _ _ t _ _ hn _ _ _ ih =>
    obtain ⟨x, rest, he, rfl, hx⟩ := takes_of_next? hn
    have hw := ih hnil
    rw [he, List.drop_left] at hw
    rw [he, List.take_left]
    have htext : (st.tokenOf t x).text.toList = x := String.toList_ofList
    have hcut := Cuts.token (k := st.tokenOf t x) (htext.symm ▸ hx) hw
    rwa [htext] at hcut

/-- **A text is cut into the tokens that were given to the machine.** -/
theorem run_cuts (h : Progress.run name 0 st cs = .ok st') :
    ∃ w, Cuts cs w ∧ feedTokens (machine name) w st.stack = some st'.stack := by
  obtain ⟨w, hw⟩ := run_finds name st cs st' h
  exact ⟨w, hw.cuts, hw.feedTokens⟩

/-! ## Lines behind a text -/

theorem le_of_next? {lexicon : Lexicon} (h : lexicon.next? cs = some (t, n)) : n ≤ cs.length :=
  (takes_of_next? h).take.2.2

variable {r : List Char}

theorem Progress.step_append_line (name : String) (hr : IsCalm r) (hc : isBlankChar c = false) :
    st.step name (c :: cs ++ '\n' :: r) = st.step name (c :: cs) := by
  have htake : ∀ {lexicon : Lexicon} {t : Terminal} {n : Nat}, lexicon.next? (c :: cs) = some (t, n) →
      (c :: cs ++ '\n' :: r).take n = (c :: cs).take n :=
    fun h => List.take_append_of_le_length (le_of_next? h)
  unfold step
  simp only [next?_append_line _ hr hc]
  cases hn : (lexicons.getD (Lr.top st.stack) Lexicon.full).next? (c :: cs) with
  | some p =>
    obtain ⟨t, n⟩ := p
    simp only [htake hn]
  | none =>
    cases hfull : Lexicon.full.next? (c :: cs) with
    | some p =>
      obtain ⟨t, n⟩ := p
      simp only [htake hfull]
    | none => rfl

/-- A line behind a text changes nothing in it. -/
theorem Finds.append_line (hr : IsCalm r) (h : Finds name st cs w st' cs') :
    Finds name st (cs ++ '\n' :: r) w st' (cs' ++ '\n' :: r) := by
  induction h with
  | refl st cs => exact .refl st _
  | blank hc _ ih => exact .blank hc ih
  | @comment st _ c cs _ _ n hc hn _ ih =>
    have hle := le_of_next? hn
    rw [← next?_append_line _ hr hc] at hn
    exact Finds.note hc hn (List.take_append_of_le_length hle) (List.drop_append_of_le_length hle) ih
  | @token st st₁ _ c cs _ w t n hc hn ht hf _ ih =>
    have hle := le_of_next? hn
    rw [← next?_append_line _ hr hc] at hn
    exact .found hc hn ht (List.take_append_of_le_length hle) (List.drop_append_of_le_length hle) hf ih

/-- **A text before a line is read as by itself.** -/
theorem run_append_line (name : String) (hr : IsCalm r) (st : Progress) (cs : List Char) :
    Progress.run name 0 st (cs ++ '\n' :: r)
      = (Progress.run name 0 st cs).bind fun st' => Progress.run name 0 st' ('\n' :: r) := by
  have hstep : ∀ (st : Progress) (c : Char) (cs : List Char), isBlankChar c = false →
      (∀ st' n, st.step name (c :: cs) = .ok (st', n) → 0 < n ∧ n ≤ (c :: cs).length ∧
        Progress.run name 0 st' ((c :: cs).drop n ++ '\n' :: r)
          = (Progress.run name 0 st' ((c :: cs).drop n)).bind fun st' =>
            Progress.run name 0 st' ('\n' :: r)) →
      Progress.run name 0 st (c :: cs ++ '\n' :: r)
        = (Progress.run name 0 st (c :: cs)).bind fun st' => Progress.run name 0 st' ('\n' :: r) := by
    intro st c cs hc h
    have happend : st.step name (c :: cs ++ '\n' :: r) = st.step name (c :: cs) :=
      Progress.step_append_line name hr hc
    cases hs : st.step name (c :: cs) with
    | error f =>
      rw [hs] at happend
      rw [List.cons_append, Progress.run_cons, Progress.run_cons, hs, ← List.cons_append, happend]
      rfl
    | ok p =>
      obtain ⟨st', n⟩ := p
      rw [hs] at happend
      obtain ⟨hpos, hlen, ih⟩ := h st' n hs
      rw [Progress.run_step (List.cons_ne_nil c cs) hs hpos,
        Progress.run_step (List.append_ne_nil_of_left_ne_nil (List.cons_ne_nil c cs) _) happend hpos,
        List.drop_append_of_le_length hlen, ih]
  induction st, cs using Progress.reading_induction name with
  | nil st => rw [Progress.run_nil, List.nil_append, Except.bind]
  | blank st c cs hc ih => rw [List.cons_append, Progress.run_past hc, Progress.run_past hc, ih]
  | none st c cs hc hn =>
    obtain ⟨f, hf, -⟩ := Progress.step_none name hn
    refine hstep st c cs hc fun st' n hs => ?_
    rw [hf] at hs
    cases hs
  | comment st c cs n hc hn ih =>
    refine hstep st c cs hc fun st' m hs => ?_
    rw [Progress.step_noted name hn] at hs
    obtain ⟨rfl, rfl⟩ := Prod.mk.inj (Except.ok.inj hs)
    exact ⟨pos_of_next? hn, le_of_next? hn, ih⟩
  | token st c cs t n hc hn ht ih =>
    refine hstep st c cs hc fun st' m hs => ?_
    rw [Progress.step_some name hn ht] at hs
    cases hf : st.feed name (st.tokenOf t ((c :: cs).take n)) with
    | error f =>
      rw [hf] at hs
      cases hs
    | ok st₁ =>
      rw [hf] at hs
      obtain ⟨rfl, rfl⟩ := Prod.mk.inj (Except.ok.inj hs)
      exact ⟨pos_of_next? hn, le_of_next? hn, ih st₁ hf⟩

end RbsSynth.Signature
