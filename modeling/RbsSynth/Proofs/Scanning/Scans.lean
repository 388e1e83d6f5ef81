import RbsSynth.Proofs.Scanning.Clear
import RbsSynth.Proofs.Scanning.Names

/-!
# Scanning

`Scans c p cs w k c' p' cs'` says that the text `cs`, at the position `p` and in the context `c`,
starts with the tokens `w` and the comments `k`, with blanks between them, up to `cs'`.
-/

namespace RbsSynth.Signature

open Terminal

inductive Scans : Context → Position → List Char → List Token → List CommentLine →
    Context → Position → List Char → Prop
  | refl (c : Context) (p : Position) (cs : List Char) : Scans c p cs [] [] c p cs
  | blank {c c' : Context} {p p' : Position} {b cs cs' : List Char} {w : List Token}
    {k : List CommentLine} (hb : ∀ a ∈ b, isBlankChar a = true)
    (h : Scans c (p.advance b) cs w k c' p' cs') : Scans c p (b ++ cs) w k c' p' cs'
  | comment {c c' : Context} {p p' : Position} {x cs cs' : List Char} {w : List Token}
    {k : List CommentLine} (hx : '\n' ∉ x)
    (h : Scans c (p.advance ('#' :: x)) ('\n' :: cs) w k c' p' cs') :
    Scans c p ('#' :: x ++ '\n' :: cs) w (⟨'#' :: x, p.line, p.column⟩ :: k) c' p' cs'
  | token {c c' : Context} {p p' : Position} {t : Terminal} {x cs cs' : List Char} {w : List Token}
    {k : List CommentLine} (hx : Clear c t x cs)
    (h : Scans (c.next t) (p.advance x) cs w k c' p' cs') :
    Scans c p (x ++ cs) (⟨t, .ofList x, ⟨p, p.advance x⟩⟩ :: w) k c' p' cs'

theorem Scans.trans {c c' c'' : Context} {p p' p'' : Position} {cs cs' cs'' : List Char}
    {w w' : List Token} {k k' : List CommentLine} (h : Scans c p cs w k c' p' cs')
    (h' : Scans c' p' cs' w' k' c'' p'' cs'') : Scans c p cs (w ++ w') (k ++ k') c'' p'' cs'' := by
  induction h with
  | refl => exact h'
  | blank hb _ ih => exact .blank hb (ih h')
  | comment hx _ ih => exact .comment hx (ih h')
  | token hx _ ih => exact .token hx (ih h')

/-! ## Positions -/

theorem Position.advance_append (p : Position) (x y : List Char) :
    p.advance (x ++ y) = (p.advance x).advance y := by
  induction x generalizing p with
  | nil => rfl
  | cons a x ih =>
    rw [List.cons_append]
    by_cases ha : a = '\n'
    · subst ha
      exact ih _
    · rw [Position.advance.eq_3 p a x (fun h => ha h),
        Position.advance.eq_3 p a (x ++ y) (fun h => ha h)]
      exact ih _

theorem take_length_takeWhile (f : Char → Bool) (cs : List Char) :
    cs.take (cs.takeWhile f).length = cs.takeWhile f :=
  (congrArg (List.take _) List.takeWhile_append_dropWhile.symm).trans List.take_left

theorem drop_length_takeWhile (f : Char → Bool) (cs : List Char) :
    cs.drop (cs.takeWhile f).length = cs.dropWhile f :=
  (congrArg (List.drop _) List.takeWhile_append_dropWhile.symm).trans List.drop_left

/-! ## Steps of a reader -/

namespace Progress

variable (name : String) (st : Progress)

-- The equations of `run`; they are not unfolded with their table.
set_option maxRecDepth 100000 in
theorem run_nil (k : Nat) : run name k st [] = .ok st := by
  delta run
  cases k <;> rfl

set_option maxRecDepth 100000 in
theorem run_skip_cons (k : Nat) (c : Char) (cs : List Char) :
    run name (k + 1) st (c :: cs) = run name k st cs := by
  delta run
  rfl

set_option maxRecDepth 100000 in
theorem run_cons (c : Char) (cs : List Char) : run name 0 st (c :: cs) =
    match st.step name (c :: cs) with
    | .error f => .error f
    | .ok (st, n) => run name (n - 1) st cs := by
  delta run
  rfl

theorem run_skip (k : Nat) (cs : List Char) : run name k st cs = run name 0 st (cs.drop k) := by
  induction k generalizing cs with
  | zero => rw [List.drop_zero]
  | succ k ih =>
    cases cs with
    | nil => rw [List.drop_nil, run_nil, run_nil]
    | cons c cs => rw [run_skip_cons, List.drop_succ_cons, ih]

variable {name st}

/-- A reader goes on behind what it read. -/
theorem run_step {st' : Progress} {cs : List Char} {n : Nat} (hcs : cs ≠ [])
    (h : st.step name cs = .ok (st', n)) (hn : 0 < n) :
    run name 0 st cs = run name 0 st' (cs.drop n) := by
  obtain ⟨c, cs, rfl⟩ := List.exists_cons_of_ne_nil hcs
  obtain ⟨n, rfl⟩ : ∃ m, n = m + 1 := ⟨n - 1, by omega⟩
  rw [run_cons, h]
  simp only [Nat.add_sub_cancel, List.drop_succ_cons]
  exact run_skip name st' n cs

theorem step_blank {cs : List Char} {n : Nat}
    (h : (lexicons.getD (Lr.top st.stack) Lexicon.full).next? cs = some (blank, n)) :
    st.step name cs = .ok ({ st with position := st.position.advance (cs.take n) }, n) := by
  unfold step
  simp only [h]
  rfl

theorem step_comment {cs : List Char} {n : Nat}
    (h : (lexicons.getD (Lr.top st.stack) Lexicon.full).next? cs = some (comment, n)) :
    st.step name cs = .ok ({ st with
      position := st.position.advance (cs.take n)
      comments := ⟨cs.take n, st.position.line, st.position.column⟩ :: st.comments }, n) := by
  unfold step
  simp only [h]
  rfl

theorem feed_shift {t : Token} {q : Nat} {stack : List (Lr.Frame Node)}
    (h : (machine name).settle t.terminal.number st.stack = .shift q stack) :
    st.feed name t = .ok { st with
      stack := ⟨q, ⟨.token t, some t.span⟩⟩ :: stack
      position := t.span.stop
      lastStart := t.span.start } := by
  unfold feed
  simp only [h]

end Progress

/-! ## Blanks and comments -/

theorem lexicons_ofAllowed (q : Nat) :
    ∃ f, lexicons.getD q Lexicon.full = Lexicon.ofAllowed f := by
  rw [lexicons_getD]
  cases row? q with
  | none => exact ⟨fun _ => true, rfl⟩
  | some row => exact ⟨fun t => row.accepts t.number, rfl⟩

/-- What is skipped is found in every state, if nothing else starts as it does. -/
theorem next?_skipped {t : Terminal} {c : Char} {cs : List Char} {n : Nat} (q : Nat)
    (ht : t.isSkipped = true) (hn : t.match? (c :: cs) = some n)
    (honly : ∀ r ∈ Terminal.all, r.number < t.number → r.begins c = false) :
    (lexicons.getD q Lexicon.full).next? (c :: cs) = some (t, n) := by
  obtain ⟨f, hf⟩ := lexicons_ofAllowed q
  have hcov : ∀ t : Terminal, t.isSkipped = true →
      t ≠ endOfText ∧ t.covers = [] ∧ ∀ w ∈ Terminal.all, t ∉ w.covers := by
    intro t
    cases t <;> decide
  obtain ⟨hend, hnone, htop⟩ := hcov t ht
  have htried : t ∈ (Lexicon.ofAllowed f).tried :=
    mem_tried.mpr ⟨mem_allowed.mpr ⟨hend, .inl ht⟩, fun w _ => htop w w.mem_all⟩
  have hfirst := matchFirst?_eq (tried_sorted f) htried hn
    fun r _ hr => match?_eq_none (honly r r.mem_all hr) cs
  rw [hf, Lexicon.next?, hfirst]
  simp only [Option.some.injEq, Prod.mk.injEq, and_true]
  exact resolve_eq_self fun k hk => by rw [hnone] at hk; cases hk

theorem next?_blank {c : Char} (hc : isBlankChar c = true) (cs : List Char) (q : Nat) :
    (lexicons.getD q Lexicon.full).next? (c :: cs)
      = some (blank, ((c :: cs).takeWhile isBlankChar).length) := by
  refine next?_skipped q rfl ?_ ?_
  · show blankAt? (c :: cs) = _
    rw [blankAt?, runLength_eq, List.takeWhile_cons, hc]
    rfl
  · have hcases : c = ' ' ∨ c = '\t' ∨ c = '\x0c' ∨ c = '\r' ∨ c = '\n' := by
      simpa [isBlankChar, or_assoc] using hc
    rcases hcases with rfl | rfl | rfl | rfl | rfl <;> decide

theorem next?_comment (cs : List Char) (q : Nat) :
    (lexicons.getD q Lexicon.full).next? ('#' :: cs)
      = some (comment, (cs.takeWhile (· != '\n')).length + 1) := by
  refine next?_skipped q rfl ?_ (by decide)
  show commentAt? ('#' :: cs) = _
  rw [commentAt?, runLength_eq]

namespace Progress

variable {name : String} {st : Progress}

/-- A reader skips all blanks that come next. -/
theorem run_blanks (name : String) (st : Progress) (cs : List Char) : run name 0 st cs
    = run name 0 { st with position := st.position.advance (cs.takeWhile isBlankChar) }
        (cs.dropWhile isBlankChar) := by
  cases cs with
  | nil => rfl
  | cons c cs =>
    by_cases hc : isBlankChar c = true
    · have hstep : st.step name (c :: cs) = _ := step_blank (next?_blank hc cs (Lr.top st.stack))
      have hpos : 0 < ((c :: cs).takeWhile isBlankChar).length := by
        rw [List.takeWhile_cons, hc]
        exact Nat.succ_pos _
      rw [run_step (List.cons_ne_nil c cs) hstep hpos, take_length_takeWhile, drop_length_takeWhile]
    · rw [List.takeWhile_cons, List.dropWhile_cons, if_neg hc, if_neg hc]
      rfl

theorem run_blank {b : List Char} (hb : ∀ a ∈ b, isBlankChar a = true) (cs : List Char) :
    run name 0 st (b ++ cs)
      = run name 0 { st with position := st.position.advance b } cs := by
  rw [run_blanks, List.takeWhile_append_of_pos hb, List.dropWhile_append_of_pos hb,
    Position.advance_append]
  exact (run_blanks name { st with position := st.position.advance b } cs).symm

end Progress

/-! ## What is shifted -/

theorem accepts_of_settle {name : String} {t : Terminal} {q : Nat}
    {stack stack' : List (Lr.Frame Node)}
    (h : (machine name).settle t.number stack = .shift q stack') : Accepts (Lr.top stack) t := by
  obtain ⟨hfalls, hact⟩ := falls_of_shift h
  rcases hfalls.top with rfl | ⟨hr, _⟩
  · rw [Accepts, hact]
    rfl
  · exact hr.accepts

end RbsSynth.Signature
