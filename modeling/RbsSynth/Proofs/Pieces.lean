import RbsSynth.Text.Split

/-!
# Cutting and joining

A text that was joined is cut into the same pieces again, if the separator starts with a character
that is in no piece.

    splitOn sep (join sep ss) = ss                                                   (splitOn_join)
-/

namespace RbsSynth.Text

/-- Some items, each behind a separator. -/
def behindEach {α : Type} (sep : List Char) (text : α → List Char) (as : List α) : List Char :=
  as.flatMap fun a => sep ++ text a

theorem behindEach_cons {α : Type} (sep : List Char) (text : α → List Char) (a : α) (as : List α) :
    behindEach sep text (a :: as) = sep ++ text a ++ behindEach sep text as := List.flatMap_cons

theorem behindEach_singleton {α : Type} (sep : List Char) (text : α → List Char) (a : α) :
    behindEach sep text [a] = sep ++ text a := List.flatMap_singleton _ _

theorem behindEach_append {α : Type} (sep : List Char) (text : α → List Char) (as bs : List α) :
    behindEach sep text (as ++ bs) = behindEach sep text as ++ behindEach sep text bs :=
  List.flatMap_append

theorem behindEach_map {α β : Type} (sep : List Char) (text : β → List Char) (f : α → β)
    (as : List α) : behindEach sep text (as.map f) = behindEach sep (fun a => text (f a)) as := by
  induction as with
  | nil => rfl
  | cons a as ih => rw [List.map_cons, behindEach_cons, behindEach_cons, ih]

theorem join_cons (sep s : String) (ss : List String) : (join sep (s :: ss)).toList
    = s.toList ++ behindEach sep.toList String.toList ss := by
  induction ss generalizing s with
  | nil =>
    rw [join]
    exact (List.append_nil _).symm
  | cons r rs ih =>
    rw [join, String.toList_append, String.toList_append, ih, behindEach_cons, List.append_assoc,
      List.append_assoc]
    exact fun h => nomatch h

/-- A text that starts with a character which is in no piece. -/
theorem splitFrom_piece {c : Char} {cs x : List Char} (hx : c ∉ x) (piece y : List Char) :
    splitFrom (c :: cs) 0 piece (x ++ y) = splitFrom (c :: cs) 0 (x.reverse ++ piece) y := by
  induction x generalizing piece with
  | nil => rfl
  | cons a x ih =>
    rw [List.mem_cons, not_or] at hx
    rw [List.cons_append, splitFrom, if_neg, ih hx.2, List.reverse_cons, List.append_assoc]
    · rfl
    · rw [List.isPrefixOf_iff_prefix, List.cons_prefix_cons]
      exact fun h => hx.1 h.1

theorem splitFrom_skip (sep x piece y : List Char) :
    splitFrom sep x.length piece (x ++ y) = splitFrom sep 0 piece y := by
  induction x with
  | nil => rfl
  | cons a x ih => rw [List.cons_append, List.length_cons, splitFrom, ih]

theorem splitFrom_sep (c : Char) (cs piece y : List Char) :
    splitFrom (c :: cs) 0 piece (c :: cs ++ y)
      = piece.reverse :: splitFrom (c :: cs) 0 [] y := by
  rw [List.cons_append, splitFrom, if_pos]
  · exact congrArg (piece.reverse :: ·) (splitFrom_skip (c :: cs) cs [] y)
  · exact List.isPrefixOf_iff_prefix.mpr (List.prefix_append (c :: cs) y)

theorem splitOn_behindEach {α : Type} {c : Char} {cs x : List Char} {text : α → List Char}
    {as : List α} (hx : c ∉ x) (has : ∀ a ∈ as, c ∉ text a) :
    splitOn (c :: cs) (x ++ behindEach (c :: cs) text as) = x :: as.map text := by
  induction as generalizing x with
  | nil =>
    rw [splitOn, splitFrom_piece hx, behindEach, List.flatMap_nil, splitFrom, List.reverse_append,
      List.reverse_reverse]
    rfl
  | cons a as ih =>
    have hrest := ih (has a List.mem_cons_self) fun b hb => has b (List.mem_cons_of_mem a hb)
    rw [splitOn] at hrest ⊢
    rw [splitFrom_piece hx, behindEach_cons, List.append_assoc, splitFrom_sep, List.reverse_append,
      List.reverse_reverse, hrest]
    rfl

/-- **What was joined is cut into the same pieces.** -/
theorem splitOn_join {c : Char} {cs : List Char} {s : String} {ss : List String}
    (h : ∀ x ∈ s :: ss, c ∉ x.toList) : splitOn (c :: cs) (join (.ofList (c :: cs)) (s :: ss)).toList
      = (s :: ss).map String.toList := by
  rw [join_cons, String.toList_ofList,
    splitOn_behindEach (h s List.mem_cons_self) fun x hx => h x (List.mem_cons_of_mem s hx)]
  rfl

/-- No piece has a separator of one character in it. -/
theorem not_mem_of_mem_splitOn {c : Char} {x cs : List Char} (h : x ∈ splitOn [c] cs) : c ∉ x := by
  suffices hfrom : ∀ piece, c ∉ piece → x ∈ splitFrom [c] 0 piece cs → c ∉ x from
    hfrom [] List.not_mem_nil h
  clear h
  induction cs with
  | nil =>
    intro piece hpiece h
    rw [List.mem_singleton.mp h]
    exact fun h => hpiece (List.mem_reverse.mp h)
  | cons a cs ih =>
    intro piece hpiece h
    rw [splitFrom] at h
    split at h
    · rcases List.mem_cons.mp h with rfl | h
      · exact fun h => hpiece (List.mem_reverse.mp h)
      · exact ih [] List.not_mem_nil h
    · next hne =>
      refine ih (a :: piece) (fun hmem => ?_) h
      rcases List.mem_cons.mp hmem with rfl | hmem
      · exact hne (List.isPrefixOf_iff_prefix.mpr (List.prefix_append [c] cs))
      · exact hpiece hmem

theorem splitFrom_ne_nil (sep : List Char) (skip : Nat) (piece cs : List Char) :
    splitFrom sep skip piece cs ≠ [] := by
  induction cs generalizing skip piece with
  | nil => cases skip <;> exact List.cons_ne_nil _ _
  | cons a cs ih =>
    cases skip with
    | zero =>
      rw [splitFrom]
      split
      · exact List.cons_ne_nil _ _
      · exact ih _ _
    | succ skip => exact ih _ _

theorem splitOn_ne_nil (sep cs : List Char) : splitOn sep cs ≠ [] := splitFrom_ne_nil sep 0 [] cs

end RbsSynth.Text
