import Mathlib.Data.List.Sort
import RbsSynth.Proofs.Reading.Notes

/-!
# Comments are maximal runs

The commented lines of a text, given in any order, fall into runs: lines one below the other, with no
comment on the line above the first and on the line below the last (`IsMaximalRun`).  The comments of the
text are these runs, each under its last line:

    endingAt? name (ofLines cs) l ≠ none  ↔  l has a comment, and l + 1 has none
    endingAt? name (ofLines cs) l = some (runComment name c ds),
        for the maximal run c :: ds whose last line is l                     (endingAt?_maximalRuns)

The order does not count since lines are sorted first (`ofLines_sort`), and sorted lines are runs with a
line between any two of them (`exists_runs`).
-/

namespace RbsSynth.Signature

namespace CommentLine

variable {c : CommentLine} {cs ds : List CommentLine}

theorem insertSorted_eq (c : CommentLine) (cs : List CommentLine) :
    insertSorted c cs = cs.orderedInsert (fun a b => a.before b = true) c := by
  induction cs with
  | nil => rfl
  | cons d ds ih => rw [insertSorted, List.orderedInsert, ih]

theorem sort_eq (cs : List CommentLine) :
    sort cs = cs.insertionSort fun a b => a.before b = true := by
  induction cs with
  | nil => rfl
  | cons c cs ih => rw [sort, insertSorted_eq, ih, List.insertionSort_cons]

/-- Sorting keeps all lines. -/
theorem perm_sort (cs : List CommentLine) : (sort cs).Perm cs := by
  rw [sort_eq]
  exact List.perm_insertionSort _ cs

theorem ordered_insertSorted (hcs : Ordered cs) (hc : ∀ d ∈ cs, d.line ≠ c.line) :
    Ordered (insertSorted c cs) := by
  induction cs with
  | nil => exact List.pairwise_singleton _ c
  | cons d ds ih =>
    obtain ⟨hd, hds⟩ := List.pairwise_cons.mp hcs
    obtain ⟨hne, hc⟩ := List.forall_mem_cons.mp hc
    unfold insertSorted
    split
    · next hbefore =>
      have hlt : c.line < d.line := by
        simp [before] at hbefore
        omega
      refine List.pairwise_cons.mpr ⟨?_, hcs⟩
      intro x hx
      rcases List.mem_cons.mp hx with rfl | hx
      · exact hlt
      · exact Nat.lt_trans hlt (hd x hx)
    · next hbefore =>
      have hlt : d.line < c.line := by
        simp [before] at hbefore
        omega
      refine List.pairwise_cons.mpr ⟨?_, ih hds hc⟩
      intro x hx
      rw [insertSorted_eq, List.mem_orderedInsert] at hx
      rcases hx with rfl | hx
      · exact hlt
      · exact hd x hx

/-- Lines with one comment each are sorted one below the other. -/
theorem ordered_sort (h : (cs.map (·.line)).Nodup) : Ordered (sort cs) := by
  induction cs with
  | nil => exact List.Pairwise.nil
  | cons c cs ih =>
    rw [List.map_cons, List.nodup_cons] at h
    refine ordered_insertSorted (ih h.2) ?_
    intro d hd hline
    exact h.1 (List.mem_map.mpr ⟨d, (perm_sort cs).mem_iff.mp hd, hline⟩)

end CommentLine

/-- Comments on all lines from that of `c` to that of the last of `ds`, with none above and below. -/
structure IsMaximalRun (cs : List CommentLine) (c : CommentLine) (ds : List CommentLine) : Prop where
  mem : ∀ x ∈ c :: ds, x ∈ cs
  consecutive : IsRun c.line (c :: ds)
  above : ∀ x ∈ cs, x.line + 1 ≠ c.line
  below : ∀ x ∈ cs, x.line ≠ c.line + ds.length + 1

/-- The comment of a run: its texts, one below the other, from its first place to its last line. -/
def runComment (name : String) (c : CommentLine) (ds : List CommentLine) : Comment :=
  ⟨Text.join "\n" ((c :: ds).map (·.content)), some ⟨name, c.line, c.column, c.line + ds.length, 0⟩⟩

variable {c : CommentLine} {cs ds ks : List CommentLine} {l first : Nat}

theorem IsRun.mem_iff (h : IsRun first ks) : (∃ x ∈ ks, x.line = l) ↔ first ≤ l ∧ l < first + ks.length := by
  rw [← List.mem_map, h, List.mem_range'_1]

theorem IsMaximalRun.of_parted {xs ys : List CommentLine} (hrun : IsRun c.line (c :: ds))
    (hbefore : Parted xs (c :: ds ++ ys)) (hbehind : Parted (c :: ds) ys) :
    IsMaximalRun (xs ++ (c :: ds ++ ys)) c ds := by
  have hlines : ∀ l, (∃ x ∈ c :: ds, x.line = l) ↔ c.line ≤ l ∧ l < c.line + (ds.length + 1) :=
    fun l => IsRun.mem_iff hrun
  have hall : ∀ x ∈ xs ++ (c :: ds ++ ys), x.line + 1 < c.line ∨ x ∈ c :: ds ∨
      c.line + ds.length + 1 < x.line := by
    intro x hx
    rcases List.mem_append.mp hx with hx | hx
    · exact .inl (hbefore x hx c List.mem_cons_self)
    · rcases List.mem_append.mp hx with hx | hx
      · exact .inr (.inl hx)
      · obtain ⟨y, hy, hyl⟩ := (hlines (c.line + ds.length)).mpr (by omega)
        have hgap := hbehind y hy x hx
        omega
  refine ⟨?_, hrun, ?_, ?_⟩
  · intro x hx
    exact List.mem_append_right _ (List.mem_append_left _ hx)
  all_goals
    intro x hx
    rcases hall x hx with hgap | hmem | hgap
    · omega
    · have hbounds := (hlines x.line).mp ⟨x, hmem, rfl⟩
      omega
    · omega

/-! ## Sorted lines -/

namespace CommentBlock

/-- **Sorted lines are runs**, with a line between any two of them. -/
theorem exists_runs (h : Ordered ks) : ∃ runs : List (List CommentLine), ks = runs.flatten ∧
    (∀ run ∈ runs, ∃ c ds, run = c :: ds ∧ IsRun c.line run) ∧ runs.Pairwise Parted := by
  induction ks with
  | nil => exact ⟨[], rfl, List.forall_mem_nil _, List.Pairwise.nil⟩
  | cons k ks ih =>
    obtain ⟨hk, hks⟩ := List.pairwise_cons.mp h
    obtain ⟨runs, rfl, hruns, hparted⟩ := ih hks
    cases runs with
    | nil =>
      refine ⟨[[k]], rfl, ?_, List.pairwise_singleton _ _⟩
      intro run hrun
      exact ⟨k, [], List.mem_singleton.mp hrun, by rw [List.mem_singleton.mp hrun]; rfl⟩
    | cons run runs =>
      obtain ⟨⟨c, ds, rfl, hrun⟩, hruns'⟩ := List.forall_mem_cons.mp hruns
      obtain ⟨hfirst, hrest⟩ := List.pairwise_cons.mp hparted
      have hkc : k.line < c.line := hk c List.mem_cons_self
      -- The line goes on with the first run, or it is one of its own.
      by_cases hnext : c.line = k.line + 1
      · refine ⟨(k :: c :: ds) :: runs, rfl, ?_, List.pairwise_cons.mpr ⟨?_, hrest⟩⟩
        · refine List.forall_mem_cons.mpr ⟨⟨k, c :: ds, rfl, isRun_cons.mpr ⟨rfl, ?_⟩⟩, hruns'⟩
          rwa [← hnext]
        · intro other hother x hx y hy
          have hcy := hfirst other hother c List.mem_cons_self y hy
          rcases List.mem_cons.mp hx with rfl | hx
          · omega
          · exact hfirst other hother x hx y hy
      · refine ⟨[k] :: (c :: ds) :: runs, rfl, ?_, List.pairwise_cons.mpr ⟨?_, hparted⟩⟩
        · exact List.forall_mem_cons.mpr ⟨⟨k, [], rfl, rfl⟩, hruns⟩
        · intro other hother x hx y hy
          obtain rfl := List.mem_singleton.mp hx
          rcases List.mem_cons.mp hother with rfl | hother
          · have hcy := ((IsRun.mem_iff hrun).mp ⟨y, hy, rfl⟩).1
            omega
          · have hcy := hfirst other hother c List.mem_cons_self y hy
            omega

/-- What stands around the run of a line. -/
theorem exists_run (h : Ordered ks) (hc : c ∈ ks) : ∃ xs d ds ys, ks = xs ++ (d :: ds ++ ys) ∧ c ∈ d :: ds ∧
    IsRun d.line (d :: ds) ∧ Parted xs (d :: ds ++ ys) ∧ Parted (d :: ds) ys := by
  obtain ⟨runs, rfl, hruns, hparted⟩ := exists_runs h
  obtain ⟨run, hrun, hmem⟩ := List.mem_flatten.mp hc
  obtain ⟨before, behind, rfl⟩ := List.append_of_mem hrun
  obtain ⟨d, ds, rfl, hd⟩ := hruns run hrun
  obtain ⟨-, hbehind, hbefore⟩ := List.pairwise_append.mp hparted
  refine ⟨before.flatten, d, ds, behind.flatten, by simp, hmem, hd, ?_, ?_⟩
  · intro x hx y hy
    obtain ⟨other, hother, hx⟩ := List.mem_flatten.mp hx
    rcases List.mem_append.mp hy with hy | hy
    · exact hbefore other hother (d :: ds) List.mem_cons_self x hx y hy
    · obtain ⟨last, hlast, hy⟩ := List.mem_flatten.mp hy
      exact hbefore other hother last (List.mem_cons_of_mem _ hlast) x hx y hy
  · intro x hx y hy
    obtain ⟨last, hlast, hy⟩ := List.mem_flatten.mp hy
    exact (List.pairwise_cons.mp hbehind).1 last hlast x hx y hy

/-- Each block is a maximal run. -/
theorem run_of_mem_ofLines {b : CommentBlock} (h : Ordered ks) (hb : b ∈ ofLines ks) :
    ∃ c ds, IsMaximalRun ks c ds ∧ b = ⟨c, (c :: ds).map (·.content), c.line + ds.length⟩ := by
  obtain ⟨x, hx, hlast⟩ := lastLine_of_mem hb h
  obtain ⟨xs, c, ds, ys, rfl, hmem, hrun, hbefore, hbehind⟩ := exists_run h hx
  obtain ⟨hxs, hys, hlt⟩ := List.pairwise_append.mp h
  obtain ⟨hds, hys', hlt'⟩ := List.pairwise_append.mp hys
  refine ⟨c, ds, .of_parted hrun hbefore hbehind, ?_⟩
  rw [ofLines_append h hbefore, ofLines_append hys hbehind, ofLines_run hrun hds] at hb
  -- A block of the lines around would end on one of these, and not on that of `x`.
  rcases List.mem_append.mp hb with hb | hb
  · obtain ⟨y, hy, hyl⟩ := lastLine_of_mem hb hxs
    have hne := hlt y hy x (List.mem_append_left _ hmem)
    omega
  · rcases List.mem_append.mp hb with hb | hb
    · exact List.mem_singleton.mp hb
    · obtain ⟨y, hy, hyl⟩ := lastLine_of_mem hb hys'
      have hne := hlt' x hmem y hy
      omega

/-- A line with a comment, and none below, has that of a maximal run. -/
theorem exists_endingAt (name : String) (h : Ordered ks) (hc : c ∈ ks) (hbelow : ∀ x ∈ ks, x.line ≠ c.line + 1) :
    ∃ d ds, IsMaximalRun ks d ds ∧ c.line = d.line + ds.length ∧
      endingAt? name (ofLines ks) c.line = some (runComment name d ds) := by
  obtain ⟨xs, d, ds, ys, rfl, hmem, hrun, hbefore, hbehind⟩ := exists_run h hc
  have hmax : IsMaximalRun (xs ++ (d :: ds ++ ys)) d ds := .of_parted hrun hbefore hbehind
  have hlast : c.line = d.line + ds.length := by
    have hbounds := (IsRun.mem_iff hrun).mp ⟨c, hmem, rfl⟩
    rw [List.length_cons] at hbounds
    by_contra hne
    obtain ⟨x, hx, hxl⟩ := (IsRun.mem_iff hrun (l := c.line + 1)).mpr (by rw [List.length_cons]; omega)
    exact hbelow x (hmax.mem x hx) hxl
  refine ⟨d, ds, hmax, hlast, ?_⟩
  rw [hlast]
  exact endingAt?_run name h hrun hbefore hbehind

end CommentBlock

/-! ## Lines in any order -/

namespace IsMaximalRun

variable {c c' : CommentLine} {cs ds ds' ks : List CommentLine}

theorem congr (h : IsMaximalRun cs c ds) (hmem : ∀ x, x ∈ cs ↔ x ∈ ks) : IsMaximalRun ks c ds where
  mem x hx := (hmem x).mp (h.mem x hx)
  consecutive := h.consecutive
  above x hx := h.above x ((hmem x).mpr hx)
  below x hx := h.below x ((hmem x).mpr hx)

theorem line_le (h : IsMaximalRun cs c ds) (h' : IsMaximalRun cs c' ds')
    (hlast : c.line + ds.length = c'.line + ds'.length) : c'.line ≤ c.line := by
  by_contra hlt
  have hline : ∃ x ∈ c :: ds, x.line = c'.line - 1 := by
    rw [IsRun.mem_iff h.consecutive, List.length_cons]
    omega
  obtain ⟨x, hx, hxl⟩ := hline
  have hne := h'.above x (h.mem x hx)
  omega

/-- On a line ends at most one maximal run. -/
theorem unique (hcs : (cs.map (·.line)).Nodup) (h : IsMaximalRun cs c ds) (h' : IsMaximalRun cs c' ds')
    (hlast : c.line + ds.length = c'.line + ds'.length) : c = c' ∧ ds = ds' := by
  have hline : c.line = c'.line := Nat.le_antisymm (line_le h' h hlast.symm) (line_le h h' hlast)
  have hlen : ds.length = ds'.length := by omega
  have hlines : (c :: ds).map (·.line) = (c' :: ds').map (·.line) := by
    rw [h.consecutive, h'.consecutive, hline, List.length_cons, List.length_cons, hlen]
  have heq : c :: ds = c' :: ds' := by
    refine List.ext_getElem (by rw [List.length_cons, List.length_cons, hlen]) ?_
    intro i hi hi'
    refine List.inj_on_of_nodup_map hcs (h.mem _ (List.getElem_mem hi)) (h'.mem _ (List.getElem_mem hi')) ?_
    have hget : ((c :: ds).map (·.line))[i]? = ((c' :: ds').map (·.line))[i]? := by rw [hlines]
    rw [List.getElem?_map, List.getElem?_map, List.getElem?_eq_getElem hi, List.getElem?_eq_getElem hi'] at hget
    exact Option.some.inj hget
  exact List.cons.inj heq

end IsMaximalRun

namespace CommentBlock

theorem ofLines_sort {cs : List CommentLine} (h : (cs.map (·.line)).Nodup) :
    ofLines (CommentLine.sort cs) = ofLines cs := by
  rw [ofLines, ofLines, sort_eq_self (CommentLine.ordered_sort h)]

/-- **Comments are the maximal runs.**  Lines have a comment under the last line of each maximal run of them,
and nowhere else, in whatever order they are given. -/
theorem endingAt?_maximalRuns (name : String) {cs : List CommentLine} (h : (cs.map (·.line)).Nodup) (l : Nat) :
    ((endingAt? name (ofLines cs) l).isSome = true
      ↔ (∃ c ∈ cs, c.line = l) ∧ ∀ c ∈ cs, c.line ≠ l + 1) ∧
    ∀ comment, endingAt? name (ofLines cs) l = some comment
      ↔ ∃ c ds, IsMaximalRun cs c ds ∧ c.line + ds.length = l ∧ comment = runComment name c ds := by
  have hord := CommentLine.ordered_sort h
  have hmem : ∀ x, x ∈ CommentLine.sort cs ↔ x ∈ cs := fun x => (CommentLine.perm_sort cs).mem_iff
  rw [← ofLines_sort h]
  have hfound : ∀ comment, endingAt? name (ofLines (CommentLine.sort cs)) l = some comment →
      ∃ c ds, IsMaximalRun cs c ds ∧ c.line + ds.length = l ∧ comment = runComment name c ds := by
    intro comment hcomment
    obtain ⟨b, hb, rfl⟩ := Option.map_eq_some_iff.mp hcomment
    obtain ⟨c, ds, hrun, rfl⟩ := run_of_mem_ofLines hord (List.mem_of_find?_eq_some hb)
    have hlast : c.line + ds.length = l := by simpa using List.find?_some hb
    refine ⟨c, ds, hrun.congr hmem, hlast, rfl⟩
  have hends : ∀ c ds, IsMaximalRun cs c ds → c.line + ds.length = l →
      (∃ x ∈ cs, x.line = l) ∧ ∀ x ∈ cs, x.line ≠ l + 1 := by
    rintro c ds hrun rfl
    have hlast : ∃ x ∈ c :: ds, x.line = c.line + ds.length := by
      rw [IsRun.mem_iff hrun.consecutive, List.length_cons]
      omega
    obtain ⟨x, hx, hxl⟩ := hlast
    exact ⟨⟨x, hrun.mem x hx, hxl⟩, hrun.below⟩
  have hexists : (∃ x ∈ cs, x.line = l) → (∀ x ∈ cs, x.line ≠ l + 1) →
      ∃ c ds, IsMaximalRun cs c ds ∧ c.line + ds.length = l ∧
        endingAt? name (ofLines (CommentLine.sort cs)) l = some (runComment name c ds) := by
    rintro ⟨x, hx, rfl⟩ hbelow
    obtain ⟨c, ds, hrun, hlast, hcomment⟩ := exists_endingAt name hord ((hmem x).mpr hx)
      fun y hy => hbelow y ((hmem y).mp hy)
    exact ⟨c, ds, hrun.congr hmem, hlast.symm, hcomment⟩
  constructor
  · rw [Option.isSome_iff_exists]
    constructor
    · rintro ⟨comment, hcomment⟩
      obtain ⟨c, ds, hrun, hlast, -⟩ := hfound comment hcomment
      exact hends c ds hrun hlast
    · rintro ⟨hx, hbelow⟩
      obtain ⟨c, ds, -, -, hcomment⟩ := hexists hx hbelow
      exact ⟨_, hcomment⟩
  · intro comment
    constructor
    · exact hfound comment
    · rintro ⟨c, ds, hrun, hlast, rfl⟩
      obtain ⟨hx, hbelow⟩ := hends c ds hrun hlast
      obtain ⟨c', ds', hrun', hlast', hcomment⟩ := hexists hx hbelow
      obtain ⟨rfl, rfl⟩ := hrun.unique h hrun' (hlast.trans hlast'.symm)
      exact hcomment

/-- Comments on three lines, the last of them first. -/
def shuffledLines : List CommentLine :=
  [⟨"#apart".toList, 7, 1⟩, ⟨"# below".toList, 3, 3⟩, ⟨"#  above".toList, 2, 1⟩]

theorem endingAt?_maximalRuns_shuffled :
    (shuffledLines.map (·.line)).Nodup ∧
      endingAt? "a.rbs" (ofLines shuffledLines) 3 = some ⟨" above\nbelow", some ⟨"a.rbs", 2, 1, 3, 0⟩⟩ ∧
      (endingAt? "a.rbs" (ofLines shuffledLines) 2).isSome = false := by
  have hlines : (shuffledLines.map (·.line)).Nodup := by decide
  refine ⟨hlines, ?_, ?_⟩
  · have hrun : IsMaximalRun shuffledLines ⟨"#  above".toList, 2, 1⟩ [⟨"# below".toList, 3, 3⟩] :=
      ⟨by decide, rfl, by decide, by decide⟩
    exact ((endingAt?_maximalRuns "a.rbs" hlines 3).2 _).mpr ⟨_, _, hrun, rfl, rfl⟩
  · rw [Bool.eq_false_iff, Ne, (endingAt?_maximalRuns "a.rbs" hlines 2).1]
    decide

end CommentBlock

end RbsSynth.Signature
