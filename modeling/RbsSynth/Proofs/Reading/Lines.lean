import Mathlib.Data.List.DropRight
import RbsSynth.Proofs.Reading.Members
import RbsSynth.Proofs.Reading.Notes

/-!
# Lines and the comments among them

What stands above a declaration or a member belongs to it by the line that it starts on.  Between the
positions `p` and `p'` of two line starts a text has some comments `k`, and what is told of them holds
wherever the text stands among others:

    Noted p p' k P    P holds of the blocks of any commented lines that are k between p and p'
    Noted p p₁ k P,  Noted p₁ p' k' P'  →  Noted p p' (k ++ k') (P ∧ P')                (Noted.append)

Comments one below the other are what ends above the line behind them                   (noted_comment).
-/

namespace RbsSynth.Signature

open Terminal Text

/-! ## Positions -/

theorem Position.line_advance (p : Position) (x : List Char) :
    (p.advance x).line = p.line + x.count '\n' := by
  induction x generalizing p with
  | nil => rfl
  | cons a x ih =>
    by_cases ha : a = '\n'
    · subst ha
      rw [Position.advance, ih, List.count_cons_self, Nat.add_assoc, Nat.add_comm 1]
    · rw [Position.advance.eq_3 p a x (fun h => ha h), ih, List.count_cons_of_ne ha]

theorem Position.line_le (p : Position) (x : List Char) : p.line ≤ (p.advance x).line := by
  rw [line_advance]
  exact Nat.le_add_right _ _

/-- The spaces and tabs that a line starts with. -/
def IsIndent (x : List Char) : Prop := ∀ a ∈ x, a = ' ' ∨ a = '\t'

theorem IsIndent.blank {x : List Char} (h : IsIndent x) : ∀ a ∈ x, isBlankChar a = true := by
  intro a ha
  rcases h a ha with rfl | rfl <;> rfl

theorem IsIndent.line {x : List Char} (h : IsIndent x) (p : Position) : (p.advance x).line = p.line := by
  have hnone : x.count '\n' = 0 := List.count_eq_zero.mpr fun hmem => by
    rcases h _ hmem with he | he <;> exact absurd he (by decide)
  rw [Position.line_advance, hnone, Nat.add_zero]

/-- Some lines, each with its end. -/
def lineText (lines : List String) : List Char := lines.flatMap fun l => l.toList ++ ['\n']

theorem lineText_append (lines lines' : List String) :
    lineText (lines ++ lines') = lineText lines ++ lineText lines' := List.flatMap_append

theorem lineText_cons (l : String) (lines : List String) :
    lineText (l :: lines) = l.toList ++ '\n' :: lineText lines := by
  rw [lineText, List.flatMap_cons, List.append_assoc]
  rfl

theorem lineText_singleton (l : String) : lineText [l] = l.toList ++ ['\n'] := List.flatMap_singleton _ _

/-- The ends of lines may also be told as the starts of the next ones. -/
theorem lineText_behindEach (pre : String) (ss : List String) :
    '\n' :: lineText (ss.map (pre ++ ·)) = behindEach ('\n' :: pre.toList) String.toList ss ++ ['\n'] := by
  induction ss with
  | nil => rfl
  | cons s ss ih =>
    rw [List.map_cons, lineText_cons, ih, behindEach_cons, String.toList_append]
    simp only [List.cons_append, List.append_assoc]

/-- What has a result had the results of its steps. -/
theorem exists_of_bind {ε α β : Type} {x : Except ε α} {f : α → Except ε β} {b : β}
    (h : x >>= f = .ok b) : ∃ a, x = .ok a ∧ f a = .ok b := by
  cases x with
  | error => cases h
  | ok a => exact ⟨a, rfl, h⟩

/-! ## Comments of a part of a text -/

/-- What holds of the comments `k` between two line starts, whatever comments stand above and below; the
last line has none. -/
structure Noted (p p' : Position) (k : List CommentLine) (P : List CommentBlock → Prop) : Prop where
  within : ∀ c ∈ k, p.line ≤ c.line ∧ c.line + 1 < p'.line
  ordered : Ordered k
  holds : ∀ above below, (∀ c ∈ above, c.line + 1 < p.line) → (∀ c ∈ below, p'.line ≤ c.line) →
    Ordered (above ++ (k ++ below)) → P (CommentBlock.ofLines (above ++ (k ++ below)))

section

variable {p p₁ p' : Position} {k k' : List CommentLine} {P P' : List CommentBlock → Prop}

theorem Noted.imp (h : Noted p p' k P) (himp : ∀ bs, P bs → P' bs) : Noted p p' k P' :=
  ⟨h.within, h.ordered, fun above below ha hb ho => himp _ (h.holds above below ha hb ho)⟩

theorem Noted.append (h : Noted p p₁ k P) (h' : Noted p₁ p' k' P') (hle : p.line ≤ p₁.line)
    (hle' : p₁.line ≤ p'.line) : Noted p p' (k ++ k') fun bs => P bs ∧ P' bs where
  within := by
    refine List.forall_mem_append.mpr ⟨fun c hc => ?_, fun c hc => ?_⟩
    · have := h.within c hc
      omega
    · have := h'.within c hc
      omega
  ordered := by
    refine List.pairwise_append.mpr ⟨h.ordered, h'.ordered, fun c hc d hd => ?_⟩
    have := h.within c hc
    have := h'.within d hd
    omega
  holds := by
    intro above below ha hb ho
    constructor
    · have hall := h.holds above (k' ++ below) ha ?_
      · rw [List.append_assoc] at ho ⊢
        exact hall ho
      · refine List.forall_mem_append.mpr ⟨fun c hc => (h'.within c hc).1, fun c hc => ?_⟩
        exact Nat.le_trans hle' (hb c hc)
    · have hall := h'.holds (above ++ k) below ?_ hb
      · rw [List.append_assoc] at ho ⊢
        rw [List.append_assoc] at hall
        exact hall ho
      · refine List.forall_mem_append.mpr ⟨fun c hc => ?_, fun c hc => (h.within c hc).2⟩
        have := ha c hc
        omega

/-- A part without comments may stand before. -/
theorem Noted.before (h : Noted p₁ p' k P) (hle : p.line ≤ p₁.line) : Noted p p' k P where
  within c hc := ⟨Nat.le_trans hle (h.within c hc).1, (h.within c hc).2⟩
  ordered := h.ordered
  holds above below ha hb ho :=
    h.holds above below (fun c hc => Nat.lt_of_lt_of_le (ha c hc) hle) hb ho

theorem Noted.behind (h : Noted p p₁ k P) (hle : p₁.line ≤ p'.line) : Noted p p' k P where
  within c hc := ⟨(h.within c hc).1, Nat.lt_of_lt_of_le (h.within c hc).2 hle⟩
  ordered := h.ordered
  holds above below ha hb ho :=
    h.holds above below ha (fun c hc => Nat.le_trans hle (hb c hc)) ho

/-- Without any comment. -/
theorem noted_nil (h : ∀ bs, P bs) : Noted p p' [] P :=
  ⟨List.forall_mem_nil _, .nil, fun _ _ _ _ _ => h _⟩

/-- **What starts below some comments has them.** -/
theorem noted_comment (name : String) (hrun : IsRun p.line k) (hline : p.line + k.length < p'.line) :
    Noted p p' k fun bs => (CommentBlock.endingAt? name bs (p.line + k.length - 1)).map (·.text)
      = if k.isEmpty then none else some (join "\n" (k.map (·.content))) := by
  have hmem : ∀ c ∈ k, p.line ≤ c.line ∧ c.line < p.line + k.length := by
    intro c hc
    have hc : c.line ∈ k.map (·.line) := List.mem_map_of_mem hc
    rw [show k.map (·.line) = _ from hrun, List.mem_range'_1] at hc
    exact hc
  refine ⟨fun c hc => ?_, ?_, fun above below ha hb ho => ?_⟩
  · have := hmem c hc
    omega
  · have hlt : (k.map (·.line)).Pairwise (· < ·) := by
      rw [show k.map (·.line) = _ from hrun]
      exact List.pairwise_lt_range'
    exact List.pairwise_map.mp hlt
  · cases k with
    | nil =>
      rw [CommentBlock.endingAt?_none name ho]
      · rfl
      · rw [List.nil_append]
        refine List.forall_mem_append.mpr ⟨fun c hc => ?_, fun c hc => ?_⟩
        · have := ha c hc
          omega
        · have := hb c hc
          simp only [List.length_nil] at hline ⊢
          omega
    | cons c cs =>
      have hlast := CommentBlock.endingAt?_run name ho hrun (fun x hx y hy => ?_) fun x hx y hy => ?_
      · rw [List.length_cons, ← Nat.add_assoc, Nat.add_sub_cancel, hlast]
        rfl
      · have := ha x hx
        rcases List.mem_append.mp hy with hy | hy
        · have := hmem y hy
          omega
        · have := hb y hy
          omega
      · have := hmem x hx
        have := hb y hy
        omega

end

/-! ## Comments are read -/

/-- Whether a comment consists of lines that do not end with a blank. -/
def Comment.Fits (c : Comment) : Prop :=
  ∃ ls : List String, ls ≠ [] ∧ c.text = join "\n" ls ∧
    ∀ l ∈ ls, '\n' ∉ l.toList ∧ trimEnd l.toList = l.toList

/-- The line of a comment, without its end. -/
def commentText (pad : String) (l : List Char) : String :=
  .ofList (trimEnd (pad.toList ++ '#' :: ' ' :: l))

theorem commentLines_join (pad : String) {c : Comment} {ls : List String} (hne : ls ≠ [])
    (hc : c.text = join "\n" ls) (hls : ∀ l ∈ ls, '\n' ∉ l.toList) :
    Writer.commentLines pad (some c) = ls.map fun l => commentText pad l.toList := by
  obtain ⟨l, ls, rfl⟩ := List.exists_cons_of_ne_nil hne
  have hsplit : splitOn ['\n'] (join "\n" (l :: ls)).toList = (l :: ls).map String.toList := splitOn_join hls
  rw [Writer.commentLines, hc, hsplit, List.map_map]
  rfl

theorem commentText_eq (pad : String) {l : String} (hl : trimEnd l.toList = l.toList) :
    ∃ y, (commentText pad l.toList).toList = pad.toList ++ '#' :: y ∧ (∀ a ∈ y, a = ' ' ∨ a ∈ l.toList) ∧
      ∀ line column, (CommentLine.mk ('#' :: y) line column).content = l := by
  rw [commentText, String.toList_ofList]
  have htrim : ∀ x, trimEnd x = x.rdropWhile isBlank := fun _ => rfl
  by_cases hnil : l = ""
  · subst hnil
    refine ⟨[], ?_, List.forall_mem_nil _, fun _ _ => rfl⟩
    have hsplit : pad.toList ++ '#' :: ' ' :: "".toList = pad.toList ++ ['#'] ++ [' '] := by simp
    rw [htrim, hsplit, List.rdropWhile_concat_pos _ _ _ (by decide),
      List.rdropWhile_concat_neg _ _ _ (by decide)]
  · have hne : l.toList ≠ [] := fun he => hnil (String.toList_eq_nil_iff.mp he)
    refine ⟨' ' :: l.toList, ?_, List.forall_mem_cons.mpr ⟨.inl rfl, fun a ha => .inr ha⟩,
      fun _ _ => String.ofList_toList⟩
    rw [htrim, List.rdropWhile_eq_self_iff] at hl ⊢
    intro hwhole
    have hlast : (pad.toList ++ '#' :: ' ' :: l.toList).getLast hwhole = l.toList.getLast hne := by
      have hsplit : pad.toList ++ '#' :: ' ' :: l.toList = (pad.toList ++ ['#', ' ']) ++ l.toList := by simp
      simp only [hsplit, List.getLast_append_of_ne_nil _ hne]
    rw [hlast]
    exact hl hne

/-- Comments one below the other. -/
theorem scans_comments {pad : String} (hpad : IsIndent pad.toList) {ls : List String}
    (hls : ∀ l ∈ ls, '\n' ∉ l.toList ∧ trimEnd l.toList = l.toList) (c : Context) (p : Position)
    (rest : List Char) :
    ∃ k, Scans c p (lineText (ls.map fun l => commentText pad l.toList) ++ rest) [] k c
        (p.advance (lineText (ls.map fun l => commentText pad l.toList))) rest ∧
      IsRun p.line k ∧ k.map (·.content) = ls ∧
        (p.advance (lineText (ls.map fun l => commentText pad l.toList))).line = p.line + k.length := by
  induction ls generalizing p with
  | nil => exact ⟨[], .refl c p rest, rfl, rfl, rfl⟩
  | cons l ls ih =>
    obtain ⟨⟨hline, hl⟩, hls⟩ := List.forall_mem_cons.mp hls
    obtain ⟨y, hy, hmem, hcontent⟩ := commentText_eq pad hl
    have hbreak : '\n' ∉ y := fun h => by
      rcases hmem _ h with he | h
      · exact absurd he (by decide)
      · exact hline h
    obtain ⟨k, hscan, hrun, hcontents, hend⟩ := ih hls ((p.advance (pad.toList ++ '#' :: y)).advance ['\n'])
    have htext : lineText ((l :: ls).map fun l => commentText pad l.toList)
        = pad.toList ++ ('#' :: y ++ (['\n'] ++ lineText (ls.map fun l => commentText pad l.toList))) := by
      rw [List.map_cons, lineText, List.flatMap_cons, hy]
      simp [lineText]
    have hnext : ((p.advance (pad.toList ++ '#' :: y)).advance ['\n']).line = p.line + 1 := by
      have hnone : (pad.toList ++ '#' :: y).count '\n' = 0 := List.count_eq_zero.mpr fun h => by
        rcases List.mem_append.mp h with h | h
        · rcases hpad _ h with he | he <;> exact absurd he (by decide)
        · rcases List.mem_cons.mp h with he | h
          · exact absurd he (by decide)
          · exact hbreak h
      rw [Position.line_advance, Position.line_advance, hnone]
      rfl
    rw [hnext] at hrun hend
    refine ⟨⟨'#' :: y, (p.advance pad.toList).line, (p.advance pad.toList).column⟩ :: k, ?_, ?_, ?_, ?_⟩
    · rw [htext, List.append_assoc, List.append_assoc, List.append_assoc, Position.advance_append,
        Position.advance_append, Position.advance_append, ← Position.advance_append p]
      refine .blank hpad.blank (.comment hbreak (.blank (b := ['\n']) (fun a ha => ?_) ?_))
      · rw [List.mem_singleton.mp ha]
        rfl
      · rwa [← Position.advance_append p]
    · rw [CommentBlock.isRun_cons]
      exact ⟨hpad.line p, hrun⟩
    · rw [List.map_cons, hcontent, hcontents]
    · rw [htext, Position.advance_append, Position.advance_append, Position.advance_append,
        ← Position.advance_append p, hend, List.length_cons]
      omega

end RbsSynth.Signature
