import RbsSynth.Proofs.Pieces
import RbsSynth.Signature.Comments

/-!
# Comments above lines

The commented lines of a text in order, `ks`, fall apart where a line between them has no comment, and what
starts on a line has the comment that ends above it:

    ofLines (xs ++ ys) = ofLines xs ++ ofLines ys,  with a line between xs and ys      (ofLines_append)
    endingAt? name (ofLines ks) l = none,  with no comment on the line l               (endingAt?_none)
    the comments of the lines first, …, l  are the comment that ends on l              (endingAt?_run)
-/

namespace RbsSynth.Signature

/-- Commented lines, one below the other. -/
def Ordered (ks : List CommentLine) : Prop := ks.Pairwise fun a b => a.line < b.line

/-- Whether a line without a comment is between them. -/
def Parted (xs ys : List CommentLine) : Prop := ∀ x ∈ xs, ∀ y ∈ ys, x.line + 1 < y.line

/-- Comments on consecutive lines from `first`. -/
def IsRun (first : Nat) (ks : List CommentLine) : Prop :=
  ks.map (·.line) = List.range' first ks.length

namespace CommentBlock

variable {b : CommentBlock} {c d : CommentLine} {cs ds ks xs ys : List CommentLine} {l first : Nat}

theorem sort_eq_self (h : Ordered ks) : CommentLine.sort ks = ks := by
  induction ks with
  | nil => rfl
  | cons c cs ih =>
    obtain ⟨hc, hcs⟩ := List.pairwise_cons.mp h
    rw [CommentLine.sort, ih hcs]
    cases cs with
    | nil => rfl
    | cons d ds =>
      have hbefore : c.before d = true := by
        rw [CommentLine.before, decide_eq_true (hc d List.mem_cons_self), Bool.true_or]
      rw [CommentLine.insertSorted, if_pos hbefore]

/-- Every block ends on a line with a comment. -/
theorem lastLine_of_mem (h : b ∈ ofLines ks) (hk : Ordered ks) : ∃ c ∈ ks, b.lastLine = c.line := by
  have hfrom : ∀ {cs : List CommentLine} {d : CommentBlock}, b ∈ blocksFrom d cs →
      b.lastLine = d.lastLine ∨ ∃ c ∈ cs, b.lastLine = c.line := by
    intro cs
    induction cs with
    | nil => exact fun h => .inl (congrArg lastLine (List.mem_singleton.mp h))
    | cons c cs ih =>
      intro d h
      rw [blocksFrom] at h
      split at h
      · rcases ih h with he | ⟨x, hx, he⟩
        · exact .inr ⟨c, List.mem_cons_self, he⟩
        · exact .inr ⟨x, List.mem_cons_of_mem c hx, he⟩
      · rcases List.mem_cons.mp h with rfl | h
        · exact .inl rfl
        · rcases ih h with he | ⟨x, hx, he⟩
          · exact .inr ⟨c, List.mem_cons_self, he⟩
          · exact .inr ⟨x, List.mem_cons_of_mem c hx, he⟩
  rw [ofLines, sort_eq_self hk] at h
  cases ks with
  | nil => cases h
  | cons c cs =>
    rcases hfrom h with he | ⟨x, hx, he⟩
    · exact ⟨c, List.mem_cons_self, he⟩
    · exact ⟨x, List.mem_cons_of_mem c hx, he⟩

theorem blocksFrom_append (hb : b.lastLine + 1 < d.line) (hcs : ∀ c ∈ cs, c.line + 1 < d.line) :
    blocksFrom b (cs ++ d :: ds) = blocksFrom b cs ++ blocksFrom (single d) ds := by
  induction cs generalizing b with
  | nil =>
    rw [List.nil_append, blocksFrom.eq_2, if_neg (Nat.ne_of_gt hb)]
    rfl
  | cons c cs ih =>
    obtain ⟨hc, hcs⟩ := List.forall_mem_cons.mp hcs
    rw [List.cons_append, blocksFrom, blocksFrom]
    split
    · exact ih hc hcs
    · rw [ih hc hcs]
      rfl

theorem ofLines_append (h : Ordered (xs ++ ys)) (hap : Parted xs ys) :
    ofLines (xs ++ ys) = ofLines xs ++ ofLines ys := by
  obtain ⟨hxs, hys, -⟩ := List.pairwise_append.mp h
  rw [ofLines, ofLines, ofLines, sort_eq_self h, sort_eq_self hxs, sort_eq_self hys]
  cases xs with
  | nil => rfl
  | cons x xs =>
    cases ys with
    | nil => simp only [List.append_nil]
    | cons y ys =>
      refine blocksFrom_append (hap x List.mem_cons_self y List.mem_cons_self) fun c hc => ?_
      exact hap c (List.mem_cons_of_mem x hc) y List.mem_cons_self

theorem find?_none (h : Ordered ks) (hl : ∀ c ∈ ks, c.line ≠ l) :
    (ofLines ks).find? (·.lastLine == l) = none := by
  refine List.find?_eq_none.mpr fun b hb he => ?_
  obtain ⟨c, hc, hline⟩ := lastLine_of_mem hb h
  exact hl c hc (hline.symm.trans (beq_iff_eq.mp he))

theorem endingAt?_none (name : String) (h : Ordered ks) (hl : ∀ c ∈ ks, c.line ≠ l) :
    endingAt? name (ofLines ks) l = none := by
  rw [endingAt?, find?_none h hl]
  rfl

theorem isRun_cons : IsRun first (c :: cs) ↔ c.line = first ∧ IsRun (first + 1) cs := by
  rw [IsRun, IsRun, List.map_cons, List.length_cons, List.range'_succ, List.cons.injEq]

theorem blocksFrom_run (h : IsRun (b.lastLine + 1) cs) :
    blocksFrom b cs = [⟨b.first, b.texts ++ cs.map (·.content), b.lastLine + cs.length⟩] := by
  induction cs generalizing b with
  | nil => simp [blocksFrom]
  | cons c cs ih =>
    obtain ⟨hc, hcs⟩ := isRun_cons.mp h
    have hrest := ih (b := ⟨b.first, b.texts ++ [c.content], c.line⟩) (by rw [hc]; exact hcs)
    rw [blocksFrom, if_pos hc, hrest]
    simp only [hc, List.map_cons, List.length_cons, List.append_assoc, List.singleton_append,
      CommentBlock.mk.injEq, true_and, List.cons.injEq, and_true]
    omega

theorem ofLines_run (h : IsRun first (c :: cs)) (hord : Ordered (c :: cs)) :
    ofLines (c :: cs) = [⟨c, (c :: cs).map (·.content), first + cs.length⟩] := by
  obtain ⟨hc, hcs⟩ := isRun_cons.mp h
  rw [ofLines, sort_eq_self hord]
  show blocksFrom (single c) cs = _
  rw [blocksFrom_run (by rw [single, hc]; exact hcs)]
  simp only [single, hc, List.map_cons, List.singleton_append]

/-- **A comment is all the lines of its run.** -/
theorem endingAt?_run (name : String) (h : Ordered (xs ++ (c :: cs ++ ys))) (hrun : IsRun first (c :: cs))
    (hx : Parted xs (c :: cs ++ ys)) (hy : Parted (c :: cs) ys) :
    endingAt? name (ofLines (xs ++ (c :: cs ++ ys))) (first + cs.length)
      = some (toComment name ⟨c, (c :: cs).map (·.content), first + cs.length⟩) := by
  obtain ⟨hxs, hys, -⟩ := List.pairwise_append.mp h
  have hc : c.line = first := (isRun_cons.mp hrun).1
  have hnone : (ofLines xs).find? (·.lastLine == first + cs.length) = none := by
    refine find?_none hxs fun x hx' => ?_
    have := hx x hx' c List.mem_cons_self
    omega
  rw [endingAt?, ofLines_append h hx, ofLines_append hys hy,
    ofLines_run hrun (List.pairwise_append.mp hys).1, List.find?_append, hnone,
    Option.none_or, List.singleton_append, List.find?_cons, beq_self_eq_true]
  rfl

end CommentBlock

end RbsSynth.Signature
