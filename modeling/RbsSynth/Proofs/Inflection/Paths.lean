import RbsSynth.Inflection.Words
import RbsSynth.Proofs.Scanning.Words

/-!
# Paths of classes and of files

The path of a class has names between `::`, and a name consists of words that start with a capital.  The
path of a file has the same words in small letters, with underscores between the words of a name and
slashes between names:

    underscore (classPath names) = filePath (names in small letters)               (underscore_classPath)
    camelize (filePath names) = classPath (names with capitals)                      (camelize_filePath)

So each of the two undoes the other (`paths_inverse`).  Words have at least two characters: behind a single
capital no small letter shows where the next word starts.
-/

namespace RbsSynth.Inflection

open Signature Text

/-! ## Words -/

/-- What words consist of behind their first letter: small letters and digits. -/
def IsPlain (c : Char) : Prop := c.isLower = true ∨ c.isDigit = true

instance : DecidablePred IsPlain := fun _ => inferInstanceAs (Decidable (_ ∨ _))

/-- A word of at least two characters. -/
def IsWord (first : Char → Bool) (w : List Char) : Prop :=
  ∃ c cs, w = c :: cs ∧ first c = true ∧ cs ≠ [] ∧ ∀ a ∈ cs, IsPlain a

instance (first : Char → Bool) : DecidablePred (IsWord first)
  | [] => .isFalse fun ⟨_, _, h, _⟩ => nomatch h
  | c :: cs => decidable_of_iff (first c = true ∧ cs ≠ [] ∧ ∀ a ∈ cs, IsPlain a)
    ⟨fun h => ⟨c, cs, rfl, h⟩, fun ⟨_, _, he, h⟩ => by cases he; exact h⟩

def IsSmallWord (w : List Char) : Prop := IsWord Char.isLower w

instance : DecidablePred IsSmallWord := fun w => inferInstanceAs (Decidable (IsWord _ w))

def IsCapitalWord (w : List Char) : Prop := IsWord Char.isUpper w

instance : DecidablePred IsCapitalWord := fun w => inferInstanceAs (Decidable (IsWord _ w))

/-- The path of a class, from the words of each of its names. -/
def classPath (names : List (List (List Char))) : List Char :=
  [':', ':'].intercalate (names.map List.flatten)

/-- The path of a file, from the words of each of its names. -/
def filePath (names : List (List (List Char))) : List Char :=
  ['/'].intercalate (names.map (['_'].intercalate ·))

/-- Names of at least one word each, and at least one name. -/
def AreNames (P : List Char → Prop) (names : List (List (List Char))) : Prop :=
  names ≠ [] ∧ ∀ ws ∈ names, ws ≠ [] ∧ ∀ w ∈ ws, P w

instance (P : List Char → Prop) [DecidablePred P] : DecidablePred (AreNames P) :=
  fun _ => inferInstanceAs (Decidable (_ ∧ _))

/-! ## Characters -/

/-- What is told of a small letter or a digit. -/
structure PlainFacts (c : Char) : Prop where
  ascii : c.toNat < 0x80
  continues : isLowerOrDigit c = true
  inRun : isPlainOrDigit c = true
  notUpper : c.isUpper = false
  lower : c.toLower = c
  notColon : c ≠ ':'
  notSlash : c ≠ '/'
  notUnderscore : c ≠ '_'
  notDash : c ≠ '-'

theorem IsPlain.facts {c : Char} (h : IsPlain c) : PlainFacts c := by
  have hall : ∀ c ∈ lettersFrom 97 26 ++ lettersFrom 48 10, c.toNat < 0x80 ∧ isLowerOrDigit c = true ∧
      isPlainOrDigit c = true ∧ c.isUpper = false ∧ c.toLower = c ∧ c ≠ ':' ∧ c ≠ '/' ∧ c ≠ '_' ∧
      c ≠ '-' := by decide
  have hmem : c ∈ lettersFrom 97 26 ++ lettersFrom 48 10 :=
    List.mem_append.mpr (h.imp mem_of_isLower mem_of_isDigit)
  obtain ⟨h1, h2, h3, h4, h5, h6, h7, h8, h9⟩ := hall c hmem
  exact ⟨h1, h2, h3, h4, h5, h6, h7, h8, h9⟩

/-- What is told of a capital letter. -/
structure CapitalFacts (c : Char) : Prop where
  ascii : c.toNat < 0x80
  notDigit : isLowerOrDigit c = false
  lower : c.toLower.isLower = true
  title : titleChar c.toLower = [c]
  notColon : c ≠ ':'
  notSlash : c ≠ '/'
  notUnderscore : c ≠ '_'
  notDash : c ≠ '-'

theorem capitalFacts {c : Char} (h : c.isUpper = true) : CapitalFacts c := by
  have hall : ∀ c ∈ lettersFrom 65 26, c.toNat < 0x80 ∧ isLowerOrDigit c = false ∧
      c.toLower.isLower = true ∧ titleChar c.toLower = [c] ∧ c ≠ ':' ∧ c ≠ '/' ∧ c ≠ '_' ∧
      c ≠ '-' := by decide
  obtain ⟨h1, h2, h3, h4, h5, h6, h7, h8⟩ := hall c (mem_of_isUpper h)
  exact ⟨h1, h2, h3, h4, h5, h6, h7, h8⟩

/-- Neither of the signs that words are joined over is in a word. -/
theorem noSign_capital {c : Char} {cs : List Char} (hc : c.isUpper = true) (hcs : ∀ a ∈ cs, IsPlain a) :
    ∀ a ∈ c :: cs, a ≠ '/' ∧ a ≠ '_' :=
  List.forall_mem_cons.mpr ⟨⟨(capitalFacts hc).notSlash, (capitalFacts hc).notUnderscore⟩,
    fun a ha => ⟨(hcs a ha).facts.notSlash, (hcs a ha).facts.notUnderscore⟩⟩

theorem titleChar_of_isLower {c : Char} (h : c.isLower = true) :
    titleChar c = [c.toUpper] ∧ c.toUpper.isUpper = true ∧ c.toUpper.toLower = c := by
  have hall : ∀ c ∈ lettersFrom 97 26,
      titleChar c = [c.toUpper] ∧ c.toUpper.isUpper = true ∧ c.toUpper.toLower = c := by decide
  exact hall c (mem_of_isLower h)

/-! ## Upper and lower case -/

theorem lowerFrom_ascii {cs : List Char} (h : ∀ c ∈ cs, c.toNat < 0x80) (before : List Char) :
    lowerFrom before cs = cs.map Char.toLower := by
  induction cs generalizing before with
  | nil => rfl
  | cons c cs ih =>
    obtain ⟨hc, hcs⟩ := List.forall_mem_cons.mp h
    have hsigma : c ≠ 'Σ' := by
      rintro rfl
      exact absurd hc (by decide)
    rw [lowerFrom, lowerAt, if_neg hsigma, lowerChar, if_pos hc, ih hcs]
    rfl

theorem map_toLower_plain {cs : List Char} (h : ∀ c ∈ cs, IsPlain c) : cs.map Char.toLower = cs := by
  rw [List.map_congr_left fun a ha => (h a ha).facts.lower, List.map_id']

theorem lowerFrom_plain {cs : List Char} (h : ∀ c ∈ cs, IsPlain c) (before : List Char) :
    lowerFrom before cs = cs := by
  rw [lowerFrom_ascii fun c hc => (h c hc).facts.ascii, map_toLower_plain h]

theorem IsSmallWord.capitalize {w : List Char} (h : IsSmallWord w) :
    IsCapitalWord (capitalize w) ∧ (capitalize w).map Char.toLower = w := by
  obtain ⟨c, cs, rfl, hc, hne, hcs⟩ := h
  obtain ⟨htitle, hupper, hlower⟩ := titleChar_of_isLower hc
  have heq : Text.capitalize (c :: cs) = c.toUpper :: cs := by
    rw [Text.capitalize, htitle, lowerFrom_plain hcs]
    rfl
  rw [heq, List.map_cons, hlower, map_toLower_plain hcs]
  exact ⟨⟨c.toUpper, cs, rfl, hupper, hne, hcs⟩, rfl⟩

theorem IsCapitalWord.toLower {w : List Char} (h : IsCapitalWord w) :
    IsSmallWord (w.map Char.toLower) ∧ Text.capitalize (w.map Char.toLower) = w := by
  obtain ⟨c, cs, rfl, hc, hne, hcs⟩ := h
  rw [List.map_cons, map_toLower_plain hcs]
  refine ⟨⟨c.toLower, cs, rfl, (capitalFacts hc).lower, hne, hcs⟩, ?_⟩
  rw [Text.capitalize, (capitalFacts hc).title, lowerFrom_plain hcs]
  rfl

/-! ## Pieces of a text -/

/-- What works on a text piece by piece may change the sign between them. -/
theorem intercalate_pieces {α : Type} {F : List Char → List Char} {f g : α → List Char}
    {sep sep' : List Char} {xs : List α} (hne : xs ≠ []) (hlast : ∀ x ∈ xs, F (f x) = g x)
    (hmore : ∀ x ∈ xs, ∀ rest, F (f x ++ (sep ++ rest)) = g x ++ (sep' ++ F rest)) :
    F (sep.intercalate (xs.map f)) = sep'.intercalate (xs.map g) := by
  induction xs with
  | nil => exact absurd rfl hne
  | cons x xs ih =>
    obtain ⟨hx, hlast⟩ := List.forall_mem_cons.mp hlast
    obtain ⟨hx', hmore⟩ := List.forall_mem_cons.mp hmore
    rw [List.map_cons, List.map_cons]
    by_cases hxs : xs = []
    · rw [hxs, List.map_nil, List.map_nil, List.intercalate_singleton, List.intercalate_singleton, hx]
    · have hmap : ∀ f : α → List Char, xs.map f ≠ [] := fun f h => hxs (List.map_eq_nil_iff.mp h)
      rw [List.intercalate_cons_of_ne_nil (hmap f), List.intercalate_cons_of_ne_nil (hmap g),
        List.append_assoc, hx', ih hxs hlast hmore, List.append_assoc]

/-! ## Splitting words -/

/-- Whether the next character is a capital. -/
def meetsCapital (rest : List Char) : Bool := rest.head?.any Char.isUpper

theorem splitRuns_cons (a : Char) (rest : List Char) : splitRuns (a :: rest)
    = if meetsCapital rest && (isCapitalOrDigit a && (rest.drop 1).head?.any Char.isLower)
      then a :: '_' :: splitRuns rest else a :: splitRuns rest := by
  match rest with
  | [] => rfl
  | [b] => simp [splitRuns]
  | b :: c :: cs =>
    rw [splitRuns]
    congr 1
    simp [meetsCapital, Bool.and_left_comm, Bool.and_assoc]

theorem meetsCapital_splitRuns (cs : List Char) : meetsCapital (splitRuns cs) = meetsCapital cs := by
  cases cs with
  | nil => rfl
  | cons a rest =>
    rw [splitRuns_cons]
    split <;> rfl

theorem splitWords_cons (a : Char) (rest : List Char) : splitWords (a :: rest)
    = if meetsCapital rest && isLowerOrDigit a then a :: '_' :: splitWords rest
      else a :: splitWords rest := by
  cases rest with
  | nil => rfl
  | cons b cs =>
    rw [splitWords]
    congr 1
    simp [meetsCapital, Bool.and_comm]

/-- Before anything but a capital both passes keep a character. -/
theorem split_cons_of_not {a : Char} {rest : List Char} (h : meetsCapital rest = false) :
    splitWords (splitRuns (a :: rest)) = a :: splitWords (splitRuns rest) := by
  rw [splitRuns_cons, h, Bool.false_and, if_neg Bool.false_ne_true, splitWords_cons,
    meetsCapital_splitRuns, h, Bool.false_and, if_neg Bool.false_ne_true]

/-- One of the two passes puts an underscore between a small letter or digit and a capital, and the
other one leaves it there. -/
theorem split_cons_of_plain {a : Char} {rest : List Char} (h : meetsCapital rest = true)
    (ha : isLowerOrDigit a = true) :
    splitWords (splitRuns (a :: rest)) = a :: '_' :: splitWords (splitRuns rest) := by
  rw [splitRuns_cons]
  split
  · rw [splitWords_cons, splitWords_cons, show isLowerOrDigit '_' = false from by decide, Bool.and_false]
    rfl
  · rw [splitWords_cons, meetsCapital_splitRuns, h, ha]
    rfl

theorem split_slash (rest : List Char) :
    splitWords (splitRuns ('/' :: rest)) = '/' :: splitWords (splitRuns rest) := by
  rw [splitRuns_cons, show isCapitalOrDigit '/' = false from by decide, Bool.false_and, Bool.and_false,
    if_neg Bool.false_ne_true, splitWords_cons, show isLowerOrDigit '/' = false from by decide,
    Bool.and_false, if_neg Bool.false_ne_true]

theorem split_plain {cs rest : List Char} (hne : cs ≠ []) (hcs : ∀ a ∈ cs, IsPlain a) :
    splitWords (splitRuns (cs ++ rest))
      = cs ++ (if meetsCapital rest then ['_'] else []) ++ splitWords (splitRuns rest) := by
  induction cs with
  | nil => exact absurd rfl hne
  | cons a cs ih =>
    obtain ⟨ha, hcs⟩ := List.forall_mem_cons.mp hcs
    cases cs with
    | nil =>
      cases hrest : meetsCapital rest with
      | false => exact split_cons_of_not hrest
      | true => exact split_cons_of_plain hrest ha.facts.continues
    | cons b bs =>
      have hb : meetsCapital (b :: bs ++ rest) = false := (hcs b List.mem_cons_self).facts.notUpper
      rw [List.cons_append, split_cons_of_not hb, ih (List.cons_ne_nil b bs) hcs]
      rfl

/-- A word is kept, and an underscore comes between it and a further word. -/
theorem IsCapitalWord.split {w : List Char} (hw : IsCapitalWord w) (rest : List Char) :
    splitWords (splitRuns (w ++ rest))
      = w ++ (if meetsCapital rest then ['_'] else []) ++ splitWords (splitRuns rest) := by
  obtain ⟨c, cs, rfl, -, hne, hcs⟩ := hw
  obtain ⟨b, bs, rfl⟩ := List.exists_cons_of_ne_nil hne
  have hb : meetsCapital (b :: bs ++ rest) = false := (hcs b List.mem_cons_self).facts.notUpper
  rw [List.cons_append, split_cons_of_not hb, split_plain hne hcs]
  rfl

theorem meetsCapital_words {ws : List (List Char)} (hne : ws ≠ []) (h : ∀ w ∈ ws, IsCapitalWord w)
    (rest : List Char) : meetsCapital (ws.flatten ++ rest) = true := by
  obtain ⟨w, ws, rfl⟩ := List.exists_cons_of_ne_nil hne
  obtain ⟨c, cs, rfl, hc, -⟩ := h w List.mem_cons_self
  exact hc

theorem split_name {ws : List (List Char)} (hne : ws ≠ []) (h : ∀ w ∈ ws, IsCapitalWord w)
    {rest : List Char} (hrest : meetsCapital rest = false) :
    splitWords (splitRuns (ws.flatten ++ rest))
      = ['_'].intercalate ws ++ splitWords (splitRuns rest) := by
  induction ws with
  | nil => exact absurd rfl hne
  | cons w ws ih =>
    obtain ⟨hw, hws⟩ := List.forall_mem_cons.mp h
    rw [List.flatten_cons, List.append_assoc, hw.split]
    cases ws with
    | nil =>
      rw [List.flatten_nil, List.nil_append, hrest, List.intercalate_singleton, if_neg Bool.false_ne_true,
        List.append_nil]
    | cons v vs =>
      have hne : v :: vs ≠ [] := List.cons_ne_nil v vs
      rw [meetsCapital_words hne hws, ih hne hws, List.intercalate_cons_of_ne_nil hne, if_pos rfl,
        List.append_assoc, List.append_assoc, List.append_assoc]

theorem split_path {names : List (List (List Char))} (h : AreNames IsCapitalWord names) :
    splitWords (splitRuns (['/'].intercalate (names.map List.flatten))) = filePath names := by
  refine intercalate_pieces (F := fun cs => splitWords (splitRuns cs)) h.1 (fun n hn => ?_)
    fun n hn rest => ?_
  · have hname := split_name (h.2 n hn).1 (h.2 n hn).2 (rfl : meetsCapital [] = false)
    rw [List.append_nil] at hname
    exact hname.trans (List.append_nil _)
  · exact (split_name (h.2 n hn).1 (h.2 n hn).2 (by rfl)).trans (congrArg _ (split_slash rest))

/-! ## From class paths to file paths -/

theorem slashPath_append {x : List Char} (hx : ':' ∉ x) (y : List Char) :
    slashPath (x ++ y) = x ++ slashPath y := by
  induction x with
  | nil => rfl
  | cons c x ih =>
    rw [List.mem_cons, not_or] at hx
    rw [List.cons_append, slashPath.eq_2 c (x ++ y) fun _ hc _ => hx.1 hc.symm, ih hx.2]
    rfl

theorem slashPath_classPath {names : List (List (List Char))} (h : AreNames IsCapitalWord names) :
    slashPath (classPath names) = ['/'].intercalate (names.map List.flatten) := by
  have hword : ∀ w, IsCapitalWord w → ':' ∉ w := by
    rintro _ ⟨c, cs, rfl, hc, -, hcs⟩ hmem
    rcases List.mem_cons.mp hmem with rfl | hmem
    · exact (capitalFacts hc).notColon rfl
    · exact (hcs _ hmem).facts.notColon rfl
  have hname : ∀ n ∈ names, ':' ∉ n.flatten := fun n hn hmem => by
    obtain ⟨w, hw, hmem⟩ := List.mem_flatten.mp hmem
    exact hword w ((h.2 n hn).2 w hw) hmem
  refine intercalate_pieces h.1 (fun n hn => ?_) fun n hn rest => slashPath_append (hname n hn) _
  have hlast := slashPath_append (hname n hn) []
  rwa [List.append_nil, slashPath, List.append_nil] at hlast

theorem map_intercalate (f : Char → Char) (sep : List Char) (xs : List (List Char)) :
    (sep.intercalate xs).map f = (sep.map f).intercalate (xs.map (·.map f)) := by
  induction xs with
  | nil => rfl
  | cons x xs ih =>
    cases xs with
    | nil => simp only [List.intercalate_singleton, List.map_cons, List.map_nil]
    | cons y ys =>
      simp only [List.map_cons, List.intercalate_cons_cons, List.map_append] at ih ⊢
      rw [ih]

theorem forall_mem_intercalate {P : Char → Prop} {sep : List Char} {xs : List (List Char)}
    (hsep : ∀ c ∈ sep, P c) (hxs : ∀ x ∈ xs, ∀ c ∈ x, P c) : ∀ c ∈ sep.intercalate xs, P c := by
  induction xs with
  | nil => exact List.forall_mem_nil _
  | cons x xs ih =>
    obtain ⟨hx, hxs⟩ := List.forall_mem_cons.mp hxs
    cases xs with
    | nil =>
      rw [List.intercalate_singleton]
      exact hx
    | cons y ys =>
      rw [List.intercalate_cons_cons]
      exact List.forall_mem_append.mpr ⟨List.forall_mem_append.mpr ⟨hx, hsep⟩, ih hxs⟩

/-- What is left to do behind the two passes: there are no dashes, and all is ASCII. -/
theorem lower_filePath {names : List (List (List Char))} (h : AreNames IsCapitalWord names) :
    lower (replaceChar '-' '_' (filePath names)) = filePath (names.map (·.map (·.map Char.toLower))) := by
  have hword : ∀ w, IsCapitalWord w → ∀ c ∈ w, c ≠ '-' ∧ c.toNat < 0x80 := by
    rintro _ ⟨c, cs, rfl, hc, -, hcs⟩
    exact List.forall_mem_cons.mpr ⟨⟨(capitalFacts hc).notDash, (capitalFacts hc).ascii⟩,
      fun a ha => ⟨(hcs a ha).facts.notDash, (hcs a ha).facts.ascii⟩⟩
  have hall : ∀ c ∈ filePath names, c ≠ '-' ∧ c.toNat < 0x80 := by
    refine forall_mem_intercalate (by decide) (List.forall_mem_map.mpr fun n hn => ?_)
    exact forall_mem_intercalate (by decide) fun w hw => hword w ((h.2 n hn).2 w hw)
  have hsame : replaceChar '-' '_' (filePath names) = filePath names := by
    rw [replaceChar, List.map_congr_left fun c hc => if_neg (hall c hc).1, List.map_id']
  rw [hsame, lower, lowerFrom_ascii fun c hc => (hall c hc).2]
  simp only [filePath, map_intercalate, List.map_map, Function.comp_def]
  rfl

/-- **The file path of a class path has its words in small letters.** -/
theorem underscore_classPath {names : List (List (List Char))} (h : AreNames IsCapitalWord names) :
    underscore (classPath names) = filePath (names.map (·.map (·.map Char.toLower))) := by
  rw [underscore, slashPath_classPath h, split_path h, lower_filePath h]

/-! ## From file paths to class paths -/

/-- Whether a run of letters ends before a text. -/
def EndsRun (rest : List Char) : Prop := rest = [] ∨ ∃ c cs, rest = c :: cs ∧ (c = '_' ∨ c = '/')

theorem joinWords_run {x : List Char} (hx : ∀ c ∈ x, IsPlain c) (run rest : List Char) :
    joinWords (some run) (x ++ rest) = joinWords (some (x.reverse ++ run)) rest := by
  induction x generalizing run with
  | nil => rfl
  | cons c x ih =>
    obtain ⟨hc, hx⟩ := List.forall_mem_cons.mp hx
    rw [List.cons_append,
      joinWords.eq_5 run c (x ++ rest) hc.facts.notUnderscore hc.facts.notSlash, if_pos hc.facts.inRun, ih hx,
      List.reverse_cons, List.append_assoc]
    rfl

theorem joinWords_none {x : List Char} (hx : ∀ c ∈ x, c ≠ '/' ∧ c ≠ '_') (rest : List Char) :
    joinWords none (x ++ rest) = x ++ joinWords none rest := by
  induction x with
  | nil => rfl
  | cons c x ih =>
    obtain ⟨hc, hx⟩ := List.forall_mem_cons.mp hx
    rw [List.cons_append, joinWords.eq_4 c (x ++ rest) hc.2 hc.1, ih hx]
    rfl

theorem EndsRun.joinWords {rest : List Char} (h : EndsRun rest) (run : List Char) :
    joinWords (some run) rest = capitalize run.reverse ++ joinWords none rest := by
  obtain rfl | ⟨c, cs, rfl, rfl | rfl⟩ := h
  · exact (List.append_nil _).symm
  · rfl
  · rfl

theorem IsSmallWord.plain {w : List Char} (h : IsSmallWord w) : ∀ c ∈ w, IsPlain c := by
  obtain ⟨c, cs, rfl, hc, -, hcs⟩ := h
  exact List.forall_mem_cons.mpr ⟨.inl hc, hcs⟩

theorem IsSmallWord.join {w : List Char} (hw : IsSmallWord w) {rest : List Char} (hrest : EndsRun rest) :
    joinWords (some []) (w ++ rest) = Text.capitalize w ++ joinWords none rest := by
  rw [joinWords_run hw.plain, hrest.joinWords, List.append_nil, List.reverse_reverse]

theorem join_name {ws : List (List Char)} (hne : ws ≠ []) (h : ∀ w ∈ ws, IsSmallWord w)
    {rest : List Char} (hrest : EndsRun rest) : joinWords (some []) (['_'].intercalate ws ++ rest)
      = (ws.map Text.capitalize).flatten ++ joinWords none rest := by
  induction ws with
  | nil => exact absurd rfl hne
  | cons w ws ih =>
    obtain ⟨hw, hws⟩ := List.forall_mem_cons.mp h
    cases ws with
    | nil =>
      rw [List.intercalate_singleton, hw.join hrest, List.map_singleton, List.flatten_singleton]
    | cons v vs =>
      have hlast := ih (List.cons_ne_nil v vs) hws
      rw [List.intercalate_cons_cons, List.append_assoc, List.append_assoc, List.singleton_append,
        hw.join (.inr ⟨'_', _, rfl, .inl rfl⟩), List.map_cons, List.flatten_cons, List.append_assoc,
        ← hlast]
      rfl

theorem join_path {names : List (List (List Char))} (h : AreNames IsSmallWord names) :
    joinWords (some []) (filePath names) = classPath (names.map (·.map Text.capitalize)) := by
  rw [filePath, classPath, List.map_map]
  refine intercalate_pieces h.1 (fun n hn => ?_) fun n hn rest => ?_
  · have hname := join_name (h.2 n hn).1 (h.2 n hn).2 (.inl rfl)
    rw [List.append_nil] at hname
    exact hname.trans (List.append_nil _)
  · exact join_name (h.2 n hn).1 (h.2 n hn).2 (.inr ⟨'/', rest, rfl, .inr rfl⟩)

theorem filePath_eq_append {names : List (List (List Char))} (h : AreNames IsSmallWord names) :
    ∃ w rest, filePath names = w ++ rest ∧ IsSmallWord w ∧ EndsRun rest := by
  obtain ⟨hne, h⟩ := h
  obtain ⟨n, ns, rfl⟩ := List.exists_cons_of_ne_nil hne
  obtain ⟨hn, hwords⟩ := h n List.mem_cons_self
  obtain ⟨w, ws, rfl⟩ := List.exists_cons_of_ne_nil hn
  have hfirst : ∃ rest, ['_'].intercalate (w :: ws) = w ++ rest ∧ EndsRun rest := by
    cases ws with
    | nil => exact ⟨[], by rw [List.intercalate_singleton, List.append_nil], .inl rfl⟩
    | cons v vs =>
      refine ⟨'_' :: ['_'].intercalate (v :: vs), ?_, .inr ⟨'_', _, rfl, .inl rfl⟩⟩
      rw [List.intercalate_cons_cons, List.append_assoc, List.singleton_append]
  obtain ⟨rest, heq, hrest⟩ := hfirst
  rw [filePath]
  cases ns with
  | nil =>
    refine ⟨w, rest, ?_, hwords w List.mem_cons_self, hrest⟩
    rw [List.map_singleton, List.intercalate_singleton, heq]
  | cons m ms =>
    refine ⟨w, rest ++ (['/'] ++ ['/'].intercalate ((m :: ms).map (['_'].intercalate ·))), ?_,
      hwords w List.mem_cons_self, ?_⟩
    · rw [List.map_cons, List.map_cons, List.intercalate_cons_cons, heq, List.append_assoc,
        List.append_assoc]
    · obtain rfl | ⟨c, cs, rfl, hc⟩ := hrest
      · exact .inr ⟨'/', _, rfl, .inr rfl⟩
      · exact .inr ⟨c, _, rfl, hc⟩

/-- The first word is treated as one behind a sign. -/
theorem camelize_eq {w rest : List Char} (hw : IsSmallWord w) (hrest : EndsRun rest) :
    camelize (w ++ rest) = joinWords (some []) (w ++ rest) := by
  have hlower : ∀ c ∈ w, isLowerOrDigit c = true := fun c hc => (hw.plain c hc).facts.continues
  have hstop : ∀ c ∈ rest.head?, isLowerOrDigit c = false := by
    obtain rfl | ⟨c, cs, rfl, rfl | rfl⟩ := hrest
    · exact fun _ h => nomatch h
    · exact fun _ h => Option.some.inj h ▸ by decide
    · exact fun _ h => Option.some.inj h ▸ by decide
  have htake : (w ++ rest).takeWhile isLowerOrDigit = w := by
    rw [List.takeWhile_append_of_pos hlower]
    cases rest with
    | nil => exact List.append_nil w
    | cons c cs => rw [List.takeWhile_cons_of_neg (by simp [hstop c rfl]), List.append_nil]
  have hdrop : (w ++ rest).dropWhile isLowerOrDigit = rest := by
    rw [List.dropWhile_append_of_pos hlower]
    cases rest with
    | nil => rfl
    | cons c cs => exact List.dropWhile_cons_of_neg (by simp [hstop c rfl])
  have hsigns : ∀ c ∈ Text.capitalize w, c ≠ '/' ∧ c ≠ '_' := by
    obtain ⟨c, cs, hcap, hc, -, hcs⟩ := hw.capitalize.1
    rw [hcap]
    exact noSign_capital hc hcs
  rw [camelize, htake, hdrop, joinWords_none hsigns, hw.join hrest]

/-- **The class path of a file path has its words with capitals.** -/
theorem camelize_filePath {names : List (List (List Char))} (h : AreNames IsSmallWord names) :
    camelize (filePath names) = classPath (names.map (·.map Text.capitalize)) := by
  obtain ⟨w, rest, heq, hw, hrest⟩ := filePath_eq_append h
  rw [← join_path h, heq, camelize_eq hw hrest]

/-! ## Top theorem -/

theorem AreNames.map {P Q : List Char → Prop} {f g : List Char → List Char}
    (hf : ∀ w, P w → Q (f w) ∧ g (f w) = w) {names : List (List (List Char))} (h : AreNames P names) :
    AreNames Q (names.map (·.map f)) ∧ (names.map (·.map f)).map (·.map g) = names := by
  obtain ⟨hne, h⟩ := h
  refine ⟨⟨fun he => hne (List.map_eq_nil_iff.mp he), List.forall_mem_map.mpr fun n hn => ?_⟩, ?_⟩
  · exact ⟨fun he => (h n hn).1 (List.map_eq_nil_iff.mp he),
      List.forall_mem_map.mpr fun w hw => (hf w ((h n hn).2 w hw)).1⟩
  · rw [List.map_map]
    refine (List.map_congr_left fun n hn => ?_).trans (List.map_id names)
    rw [Function.comp_apply, List.map_map]
    exact (List.map_congr_left fun w hw => (hf w ((h n hn).2 w hw)).2).trans (List.map_id n)

/-- **Between paths of classes and paths of files each way undoes the other.** -/
theorem paths_inverse (names : List (List (List Char))) :
    (AreNames IsCapitalWord names → camelize (underscore (classPath names)) = classPath names) ∧
    (AreNames IsSmallWord names → underscore (camelize (filePath names)) = filePath names) := by
  constructor
  · intro h
    obtain ⟨hsmall, hsame⟩ := h.map fun w hw => hw.toLower
    rw [underscore_classPath h, camelize_filePath hsmall, hsame]
  · intro h
    obtain ⟨hcapital, hsame⟩ := h.map fun w hw => hw.capitalize
    rw [camelize_filePath h, underscore_classPath hcapital, hsame]

/-- A digit before a capital ends a word, whether or not a small letter follows the capital. -/
theorem paths_inverse_digits :
    camelize (underscore "ActiveModel::V2X1Errors".toList) = "ActiveModel::V2X1Errors".toList ∧
    underscore (camelize "active_model/v2_x1_errors".toList) = "active_model/v2_x1_errors".toList :=
  ⟨(paths_inverse [["Active".toList, "Model".toList], ["V2".toList, "X1".toList, "Errors".toList]]).1
      (by decide),
    (paths_inverse [["active".toList, "model".toList], ["v2".toList, "x1".toList, "errors".toList]]).2
      (by decide)⟩

end RbsSynth.Inflection
