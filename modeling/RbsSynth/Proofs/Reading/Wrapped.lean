import RbsSynth.Proofs.Reading.Header
import RbsSynth.Proofs.Scanning.Runs

/-!
# A text in the body of a class

A text is read by itself and once more behind the header of a class.  If the second reading goes
through, the first goes through as well or stops where a class could have started and no method could.
-/

namespace RbsSynth.Signature

open Terminal

variable {cs : List Char} {n n' : Nat} {t t' : Terminal}

/-! ## The first token -/

/-- What a lexer finds is a match of its terminal. -/
theorem match?_of_next? {lexicon : Lexicon} (h : lexicon.next? cs = some (t, n)) :
    t.match? cs = some n := by
  rw [Lexicon.next?] at h
  split at h
  · next w m hw =>
    obtain ⟨rfl, rfl⟩ := Prod.mk.inj (Option.some.inj h)
    have hm := (matchFirst?_some hw).2
    rcases resolve_cases lexicon w (cs.take m) with he | ⟨_, _, s, hs, hx⟩
    · rw [he, hm]
    · obtain ⟨-, hlen, -⟩ := (takes_of_match? hm).take
      have hpre : s.toList <+: cs := hx ▸ List.take_prefix m cs
      rw [match?_of_spelling hs, spelledAt?, if_pos (List.isPrefixOf_iff_prefix.mpr hpre), hx, hlen]
  · cases h

/-- What a lexer finds is what its state has a move for. -/
theorem accepts_of_lexicon {q : Nat} {row : Lr.Row} (hrow : row? q = some row)
    (h : (lexicons.getD q Lexicon.full).next? cs = some (t, n)) (ht : t.isSkipped = false) :
    Accepts q t := by
  rw [lexicons_getD, hrow, Option.map_some, Option.getD_some, Lexicon.next?] at h
  have hallowed : t ∈ (Lexicon.ofRow row).allowed := by
    split at h
    · next w m hw =>
      obtain ⟨rfl, rfl⟩ := Prod.mk.inj (Option.some.inj h)
      have hmem := (mem_tried.mp (matchFirst?_some hw).1).1
      rcases resolve_cases (Lexicon.ofRow row) w (cs.take m) with he | ⟨_, ha, _⟩
      · rwa [he]
      · exact ha
    · cases h
  obtain ⟨-, hs | ha⟩ := mem_allowed.mp hallowed
  · rw [ht] at hs
    cases hs
  · rw [Accepts, action?, hrow]
    exact ha

/-- A path is found before anything else. -/
theorem next?_of_path {q : Nat} (hq : Accepts q namespacePath)
    (h : namespacePath.match? cs = some n) :
    (lexicons.getD q Lexicon.full).next? cs = some (namespacePath, n) := by
  obtain ⟨row, hrow, hm⟩ := accepts_iff.mp hq
  rw [mem_acceptSet] at hm
  have htried : namespacePath ∈ (Lexicon.ofRow row).tried :=
    mem_tried.mpr ⟨mem_allowed.mpr ⟨by decide, .inr hm⟩,
      fun w _ => (by decide : ∀ w ∈ Terminal.all, namespacePath ∉ w.covers) w w.mem_all⟩
  have hnone : ∀ r : Terminal, ¬ r.number < namespacePath.number := fun r => Nat.not_lt_zero _
  have hfirst : Lexicon.matchFirst? cs (Lexicon.ofRow row).tried = some (namespacePath, n) :=
    matchFirst?_eq (tried_sorted _) htried h fun r _ hr => absurd hr (hnone r)
  rw [lexicons_getD, hrow, Option.map_some, Option.getD_some, Lexicon.next?, hfirst]
  simp only [Option.some.injEq, Prod.mk.injEq, and_true]
  exact resolve_eq_self fun k hk => by cases hk

/-- The terminals, but for a path, that a text may start with at its top and in a body. -/
def startsOf (q : Nat) : List Terminal :=
  Terminal.all.filter fun t => (action? q t).isSome && t != namespacePath && t != endOfText

/-- The words that a token of one of some texts may be. -/
def textsOf (t : Terminal) : List String :=
  match t.spelling? with
  | some s => [s]
  | none => wordsOf t

/-- The characters that a declaration starts with. -/
def firstsOf (t : Terminal) : List Char :=
  match t with
  | annotation => ['%']
  | globalName => ['$']
  | upperName => lettersFrom 65 26
  | t => (textsOf t).flatMap (·.toList.take 1)

def sameFirst (c : Char) (t t' : Terminal) : Bool :=
  !t'.begins c || t == t' || (!(textsOf t).isEmpty && !(textsOf t').isEmpty &&
    (textsOf t).all fun x => (textsOf t').all fun y =>
      !x.toList.isPrefixOf y.toList && !y.toList.isPrefixOf x.toList)

theorem sameFirst_table : ((startsOf 0).all fun t => (firstsOf t).all fun c =>
    (startsOf bodyState).all fun t' => sameFirst c t t') = true := by
  decide +kernel

theorem prefix_of_match? (h : t.match? cs = some n) (ht : textsOf t ≠ []) :
    ∃ x ∈ textsOf t, x.toList ≠ [] ∧ x.toList <+: cs := by
  obtain ⟨x, rest, rfl, -, hx⟩ := takes_of_match? h
  have hne := hx.ne_nil
  obtain ⟨s, hs, rfl⟩ : ∃ s ∈ textsOf t, x = s.toList := by
    cases t <;> first
      | exact absurd rfl ht
      | (obtain ⟨s, hs, he⟩ := hx; exact ⟨s, hs, he⟩)
      | (obtain ⟨s, hs, he⟩ := hx; exact ⟨s, by rw [textsOf, hs]; exact List.mem_singleton_self s, he⟩)
  exact ⟨s, hs, hne, List.prefix_append _ rest⟩

theorem mem_firstsOf {c : Char} (ht : t ∈ startsOf 0) (h : t.match? (c :: cs) = some n) :
    c ∈ firstsOf t := by
  have hstarts : startsOf 0
      = [ annotation, globalName, upperName, interfaceWord, moduleWord, classWord, typeWord] := by
    decide +kernel
  have hwords : textsOf t ≠ [] → c ∈ (textsOf t).flatMap (·.toList.take 1) := by
    intro hne
    obtain ⟨x, hx, hnil, hpre⟩ := prefix_of_match? h hne
    obtain ⟨d, y, hy⟩ := List.exists_cons_of_ne_nil hnil
    rw [hy, List.cons_prefix_cons] at hpre
    refine List.mem_flatMap.mpr ⟨x, hx, ?_⟩
    rw [hy, ← hpre.1]
    exact List.mem_singleton_self d
  have hbegins := begins_of_match? h
  rw [hstarts] at ht
  simp only [List.mem_cons, List.not_mem_nil, or_false] at ht
  rcases ht with rfl | rfl | rfl | rfl | rfl | rfl | rfl
  · exact List.mem_singleton.mpr (eq_of_beq hbegins)
  · exact List.mem_singleton.mpr (eq_of_beq hbegins)
  · exact mem_of_isUpper hbegins
  all_goals exact hwords (by decide)

/-- **The first token is the same** at the top and in a body, if both can go on with it. -/
theorem same_first {c : Char} (ht : t ∈ startsOf 0) (ht' : t' ∈ startsOf bodyState)
    (h : t.match? (c :: cs) = some n) (h' : t'.match? (c :: cs) = some n') : t = t' := by
  have hc := mem_firstsOf ht h
  have hall := List.all_eq_true.mp (List.all_eq_true.mp (List.all_eq_true.mp sameFirst_table t ht) c hc)
    t' ht'
  simp only [sameFirst, begins_of_match? h', Bool.not_true, Bool.false_or, Bool.or_eq_true,
    beq_iff_eq, Bool.and_eq_true, Bool.not_eq_true', List.isEmpty_eq_false_iff] at hall
  refine hall.resolve_right fun hwords => ?_
  obtain ⟨⟨hne, hne'⟩, happart⟩ := hwords
  obtain ⟨x, hx, -, hpre⟩ := prefix_of_match? h hne
  obtain ⟨y, hy, -, hpre'⟩ := prefix_of_match? h' hne'
  have hxy := List.all_eq_true.mp (List.all_eq_true.mp happart x hx) y hy
  rw [Bool.and_eq_true, Bool.not_eq_true', Bool.not_eq_true', ← Bool.not_eq_true, ← Bool.not_eq_true,
    List.isPrefixOf_iff_prefix, List.isPrefixOf_iff_prefix] at hxy
  rcases List.prefix_or_prefix_of_prefix hpre hpre' with hle | hle
  · exact hxy.1 hle
  · exact hxy.2 hle

/-! ## Both readings -/

/-- A fault in front of a class and no method. -/
theorem cannotStart_of_expected {f : Fault} (h : f.expected.contains classWord = true)
    (hd : f.expected.contains defWord = false) : f.cannotStart = true := by
  rw [Fault.cannotStart, h, hd]
  rfl

theorem movesOf_eq (stack : List (Lr.Frame Node)) : movesOf stack
    = match row? (Lr.top stack) with
      | none => []
      | some row => Terminal.all.filter fun t => row.accepts t.number := by
  rw [row?_eq]
  delta movesOf
  generalize table[Lr.top stack]? = row
  cases row <;> rfl

theorem mem_movesOf {stack : List (Lr.Frame Node)} :
    t ∈ movesOf stack ↔ Accepts (Lr.top stack) t := by
  rw [movesOf_eq, Accepts, action?]
  cases row? (Lr.top stack) with
  | none => exact ⟨fun h => absurd h List.not_mem_nil, fun h => by cases h⟩
  | some row =>
    show t ∈ Terminal.all.filter (fun t => row.accepts t.number) ↔ row.accepts t.number = true
    rw [List.mem_filter]
    exact ⟨fun h => h.2, fun h => ⟨t.mem_all, h⟩⟩

/-- A stuck reader expects a class and no method. -/
theorem cannotStart_of_stuck {f : Fault} {stack : List (Lr.Frame Node)}
    (hs : StuckAt (Lr.top stack) t) (hf : f.expected = movesOf stack) : f.cannotStart = true := by
  refine cannotStart_of_expected ?_ ?_
  · rw [hf, List.contains_iff_mem]
    exact mem_movesOf.mpr hs.expectsClass
  · rw [hf, ← Bool.not_eq_true, List.contains_iff_mem]
    exact fun h => hs.expectsNoMethod (mem_movesOf.mp h)

/-- Two readers with the same lexicon, one in the body of a class that is opened by `base`. -/
structure Abreast (base : List (Lr.Frame Node)) (st st' : Progress) : Prop where
  opened : Lr.top base = bodyState
  beside : Beside base st.stack st'.stack
  top : Lr.top st.stack = Lr.top st'.stack
  meant : Chain Meant st.stack

variable {name : String} {base : List (Lr.Frame Node)} {st st' fin' : Progress}

theorem feed_refuse {k : Token} {stack : List (Lr.Frame Node)}
    (h : (machine name).settle k.terminal.number st.stack = .refuse stack) :
    st.feed name k
      = .error ⟨name, k.span.start, .unexpected k.terminal k.text, movesOf stack⟩ := by
  unfold Progress.feed
  simp only [h]

theorem takes_tokenOf (st : Progress) {x : List Char} (h : t.Takes x) :
    (st.tokenOf t x).terminal.Takes (st.tokenOf t x).text.toList := by
  show t.Takes (String.ofList x).toList
  rwa [String.toList_ofList]

/-- Both readers shift a token, or the first is stuck. -/
theorem feed_beside {k k' : Token} (hbase : Lr.top base = bodyState)
    (hbeside : Beside base st.stack st'.stack) (hmeant : Chain Meant st.stack)
    (hk : k.terminal.Takes k.text.toList) (ht : k.terminal = k'.terminal)
    (h : st'.feed name k' = .ok fin') :
    (∃ fin, st.feed name k = .ok fin ∧ Abreast base fin fin') ∨
      ∃ f, st.feed name k = .error f ∧ f.cannotStart = true := by
  obtain ⟨q, ws, hs, hstack⟩ := Progress.settle_of_feed h
  rw [← ht] at hs
  obtain ⟨us, hf, hstuck | ⟨hbeside', ha, htwin⟩⟩ := hbeside.shift hbase hmeant hs
  · have hrefuse := (hf.settle_eq hmeant.plain).trans (settle_none hstuck.none)
    exact .inr ⟨_, feed_refuse hrefuse, cannotStart_of_stuck hstuck (by with_reducible rfl)⟩
  · have hshift := (hf.settle_eq hmeant.plain).trans (settle_shift ha)
    refine .inl ⟨_, Progress.feed_shift hshift, hbase, ?_, ?_, hmeant.shifted hk hshift⟩
    · rw [hstack]
      exact hbeside'.push htwin _ _
    · rw [hstack]
      rfl

/-- **Two readers side by side** read the same text, or the first is stuck. -/
theorem run_beside (name : String) (st : Progress) (cs : List Char) :
    ∀ st' fin', Abreast base st st' → Progress.run name 0 st' cs = .ok fin' →
      (∃ fin, Progress.run name 0 st cs = .ok fin ∧ Abreast base fin fin') ∨
        ∃ f, Progress.run name 0 st cs = .error f ∧ f.cannotStart = true := by
  have hlexicon : ∀ {st st' : Progress}, Abreast base st st' → st'.lexicon = st.lexicon := by
    intro st st' h
    rw [Progress.lexicon, Progress.lexicon, h.top]
  induction st, cs using Progress.reading_induction name with
  | nil st =>
    intro st' fin' h hrun
    rw [Progress.run_nil] at hrun
    cases hrun
    exact .inl ⟨st, Progress.run_nil name st 0, h⟩
  | blank st c cs hc ih =>
    intro st' fin' h hrun
    rw [Progress.run_past hc] at hrun ⊢
    exact ih (st'.past [c]) fin' ⟨h.opened, h.beside, h.top, h.meant⟩ hrun
  | none st c cs hc hn =>
    intro st' fin' h hrun
    rw [← hlexicon h] at hn
    obtain ⟨f, hf, -⟩ := Progress.run_none name hn
    rw [hf] at hrun
    cases hrun
  | comment st c cs n hc hn ih =>
    intro st' fin' h hrun
    have hn' := hn
    rw [← hlexicon h] at hn'
    rw [Progress.run_noted hn'] at hrun
    rw [Progress.run_noted hn]
    exact ih (st'.noted _) fin' ⟨h.opened, h.beside, h.top, h.meant⟩ hrun
  | token st c cs t n hc hn ht ih =>
    intro st' fin' h hrun
    have hn' := hn
    rw [← hlexicon h] at hn'
    cases hf' : st'.feed name (st'.tokenOf t ((c :: cs).take n)) with
    | error f =>
      rw [Progress.run_token_error hn' ht hf'] at hrun
      cases hrun
    | ok next' =>
      rw [Progress.run_token_ok hn' ht hf'] at hrun
      have hk := takes_tokenOf st (takes_of_next? hn).take.1
      have hsame : (st.tokenOf t ((c :: cs).take n)).terminal
          = (st'.tokenOf t ((c :: cs).take n)).terminal := rfl
      rcases feed_beside h.opened h.beside h.meant hk hsame hf' with ⟨next, hf, hnext⟩ | ⟨f, hf, hstart⟩
      · rw [Progress.run_token_ok hn ht hf]
        exact ih next hf next' fin' hnext hrun
      · exact .inr ⟨f, Progress.run_token_error hn ht hf, hstart⟩

/-! ## Behind the header -/

/-- In the first state a lexer expects a class and no method. -/
theorem expected_start : (lexicons.getD 0 Lexicon.full).expected.contains classWord = true ∧
    (lexicons.getD 0 Lexicon.full).expected.contains defWord = false := by
  decide +kernel

theorem row_start : ∃ row, row? 0 = some row :=
  Option.isSome_iff_exists.mp (by decide +kernel)

/-- A comment is found in every state. -/
theorem next?_comment_of {c : Char} (h : st.lexicon.next? (c :: cs) = some (comment, n))
    (st' : Progress) : st'.lexicon.next? (c :: cs) = some (comment, n) := by
  obtain ⟨x, rest, he, -, y, rfl, -⟩ := takes_of_next? h
  obtain ⟨rfl, -⟩ := List.cons.inj he
  rw [Progress.lexicon, next?_comment] at h ⊢
  exact h

/-- Two lexers, one at the top and one behind a header, find the same first token. -/
theorem same_next? {q : Nat} {c : Char} (hq : Accepts q namespacePath)
    (h : (lexicons.getD 0 Lexicon.full).next? (c :: cs) = some (t, n)) (ht : t.isSkipped = false)
    (h' : (lexicons.getD q Lexicon.full).next? (c :: cs) = some (t', n'))
    (ht' : Accepts bodyState t') : t = t' ∧ n = n' := by
  suffices he : t = t' by
    subst he
    exact ⟨rfl, Option.some.inj ((match?_of_next? h).symm.trans (match?_of_next? h'))⟩
  cases hpath : namespacePath.match? (c :: cs) with
  | some m =>
    have h0 : Accepts 0 namespacePath :=
      (by decide +kernel : (action? 0 namespacePath).isSome = true)
    rw [next?_of_path h0 hpath] at h
    rw [next?_of_path hq hpath] at h'
    exact (Prod.mk.inj (Option.some.inj h)).1.symm.trans (Prod.mk.inj (Option.some.inj h')).1
  | none =>
    have hstarts : ∀ {r : Nat} {s : Terminal} {m : Nat}, Accepts r s → s.match? (c :: cs) = some m →
        s ∈ startsOf r := by
      intro r s m hr hm
      refine List.mem_filter.mpr ⟨s.mem_all, ?_⟩
      rw [Accepts] at hr
      rw [hr, Bool.true_and, Bool.and_eq_true, bne_iff_ne, bne_iff_ne]
      refine ⟨?_, ?_⟩ <;> rintro rfl
      · rw [hpath] at hm
        cases hm
      · cases hm
    obtain ⟨row, hrow⟩ := row_start
    exact same_first (hstarts (accepts_of_lexicon hrow h ht) (match?_of_next? h))
      (hstarts ht' (match?_of_next? h')) (match?_of_next? h) (match?_of_next? h')

/-- **A text behind a header is read at its top as well**, or stops where a class could start. -/
theorem run_opened (name : String) (st : Progress) (cs : List Char) :
    ∀ st' fin', st.stack = [] → Opened name st'.stack base → Progress.run name 0 st' cs = .ok fin' →
      (∃ fin, Progress.run name 0 st cs = .ok fin ∧ (fin.stack = [] ∨ Abreast base fin fin')) ∨
        ∃ f, Progress.run name 0 st cs = .error f ∧ f.cannotStart = true := by
  have hlexicon : ∀ {st : Progress}, st.stack = [] → st.lexicon = lexicons.getD 0 Lexicon.full := by
    intro st h
    rw [Progress.lexicon, h]
    rfl
  induction st, cs using Progress.reading_induction name with
  | nil st =>
    intro st' fin' hst _ _
    exact .inl ⟨st, Progress.run_nil name st 0, .inl hst⟩
  | blank st c cs hc ih =>
    intro st' fin' hst h hrun
    rw [Progress.run_past hc] at hrun ⊢
    exact ih (st'.past [c]) fin' hst h hrun
  | none st c cs hc hn =>
    intro st' fin' hst _ _
    obtain ⟨f, hf, he⟩ := Progress.run_none name hn
    rw [hlexicon hst] at he
    refine .inr ⟨f, hf, cannotStart_of_expected ?_ ?_⟩ <;> rw [he]
    · exact expected_start.1
    · exact expected_start.2
  | comment st c cs n hc hn ih =>
    intro st' fin' hst h hrun
    have hn' : st'.lexicon.next? (c :: cs) = some (.comment, n) := next?_comment_of hn st'
    rw [Progress.run_noted hn'] at hrun
    rw [Progress.run_noted hn]
    exact ih (st'.noted _) fin' hst h hrun
  | token st c cs t n hc hn ht ih =>
    intro st' fin' hst h hrun
    cases hn' : st'.lexicon.next? (c :: cs) with
    | none =>
      obtain ⟨f, hf, -⟩ := Progress.run_none name hn'
      rw [hf] at hrun
      cases hrun
    | some r =>
      obtain ⟨t', n'⟩ := r
      have ht' : t'.isSkipped = false := by
        refine Bool.eq_false_iff.mpr fun hskip => ?_
        have hcases : t' = .blank ∨ t' = .comment := by
          revert hskip
          cases t' <;> decide
        rcases hcases with rfl | rfl
        · exact not_blank_of_next? hc hn'
        · rw [next?_comment_of hn' st] at hn
          obtain ⟨rfl, -⟩ := Prod.mk.inj (Option.some.inj hn)
          cases ht
      cases hf' : st'.feed name (st'.tokenOf t' ((c :: cs).take n')) with
      | error f =>
        rw [Progress.run_token_error hn' ht' hf'] at hrun
        cases hrun
      | ok next' =>
        obtain ⟨q, ws, hs, hstack⟩ := Progress.settle_of_feed hf'
        have hbase := h.settle _ q ws hs
        have haccepts := accepts_of_settle hbase
        rw [h.state] at haccepts
        have hn₀ := hn
        rw [hlexicon hst] at hn₀
        obtain ⟨rfl, rfl⟩ := same_next? h.path hn₀ ht hn' haccepts
        rw [Progress.run_token_ok hn' ht' hf'] at hrun
        -- The body's reader goes on as if the name of the class had been reduced already.
        have hf'' : Progress.feed name { st' with stack := base }
            (st'.tokenOf t ((c :: cs).take n)) = .ok next' := by
          rw [Progress.feed_shift hs] at hf'
          have hshift : Progress.feed name { st' with stack := base }
              (st'.tokenOf t ((c :: cs).take n)) = _ := Progress.feed_shift hbase
          rw [hshift, ← Except.ok.inj hf']
        have hbeside : Beside base st.stack base := hst ▸ .base
        have hk := takes_tokenOf st (takes_of_next? hn).take.1
        have hmeant : Chain Meant st.stack := hst ▸ .nil
        have hsame : (st.tokenOf t ((c :: cs).take n)).terminal
            = (st'.tokenOf t ((c :: cs).take n)).terminal := rfl
        rcases feed_beside h.state hbeside hmeant hk hsame hf'' with
          ⟨next, hf, hnext⟩ | ⟨f, hf, hstart⟩
        · rw [Progress.run_token_ok hn ht hf]
          rcases run_beside name next ((c :: cs).drop n) next' fin' hnext hrun with
            ⟨fin, hfin, habreast⟩ | hstuck
          · exact .inl ⟨fin, hfin, .inr habreast⟩
          · exact .inr hstuck
        · exact .inr ⟨f, Progress.run_token_error hn ht hf, hstart⟩

/-! ## The end of the class -/

/-- **A reader of whole declarations finishes.** -/
theorem finish_of_whole {w : List Token} {us : List (Lr.Frame Node)}
    (hw : feedTokens (machine name) w [] = some st.stack)
    (htakes : ∀ k ∈ w, k.terminal.Takes k.text.toList) (hf : Falls name t st.stack us)
    (hus : Lr.top us ∈ wholeStates) : ∃ ds, st.finish name = .ok ds := by
  have hmeant := (Chain.nil.fed htakes hw).fallen hf
  obtain ⟨us', hs⟩ := settle_of_whole name hmeant hus
  have hholds : Holds name st.stack false w := Holds.nil.feedTokens hw
  obtain ⟨b, hfallen, -⟩ := hholds.falls (fun h => by cases h) hf
  obtain ⟨n, b', rfl, hderives⟩ := hfallen.accepted hs
  have haccept := hderives.accepted
  rw [outcome, hw] at haccept
  have hsettle : (machine name).settle endOfText.number st.stack = .accept [⟨fileState, n⟩] :=
    Option.some.inj haccept
  have hmeans := hmeant.fallen (falls_of_accept hs).1
  cases hmeans with
  | @push _ x _ _ _ hq hn =>
    obtain rfl := eq_file_of_next? hq
    obtain ⟨ds, hds⟩ : ∃ ds, n.value = .declarations ds := hn
    obtain ⟨v, sp⟩ := n
    cases hds
    refine ⟨ds.map (Declaration.mapNotes (Notes.attach name (CommentBlock.ofLines st.comments.reverse))),
      ?_⟩
    unfold Progress.finish
    simp only [hsettle]

/-- What a reader that finishes had on its stack. -/
theorem accept_of_finish {ds : List Declaration} (h : st.finish name = .ok ds) :
    ∃ q raw sp, (machine name).settle endOfText.number st.stack
        = .accept [⟨q, ⟨.declarations raw, sp⟩⟩] ∧
      ds = raw.map (Declaration.mapNotes (Notes.attach name (CommentBlock.ofLines st.comments.reverse))) := by
  unfold Progress.finish at h
  split at h
  · next q raw sp hs => exact ⟨q, raw, sp, hs, (Except.ok.inj h).symm⟩
  all_goals cases h

theorem match?_end (h : t.match? "end".toList = some n) : (t = lowerName ∨ t = endWord) ∧ n = 3 := by
  have hall : Terminal.all.all fun t => (t.match? "end".toList).all fun n =>
      (t == lowerName || t == endWord) && n == 3 := by decide
  have ht := List.all_eq_true.mp hall t t.mem_all
  rw [h, Option.all_some, Bool.and_eq_true, Bool.or_eq_true, beq_iff_eq, beq_iff_eq, beq_iff_eq] at ht
  exact ht

/-- The end of a class is read as one token. -/
theorem run_end {last : Progress} (h : Progress.run name 0 st ('\n' :: "end".toList) = .ok last) :
    ∃ k : Token, (k.terminal = lowerName ∨ k.terminal = endWord) ∧
      (st.past ['\n']).feed name k = .ok last ∧ Finds name st ('\n' :: "end".toList) [k] last [] := by
  have hcons : "end".toList = 'e' :: ['n', 'd'] := rfl
  rw [Progress.run_past rfl, hcons] at h
  cases hn : (st.past ['\n']).lexicon.next? "end".toList with
  | none =>
    obtain ⟨f, hf, -⟩ := Progress.run_none name (hcons ▸ hn)
    rw [hf] at h
    cases h
  | some r =>
    obtain ⟨t, n⟩ := r
    obtain ⟨ht, rfl⟩ := match?_end (match?_of_next? hn)
    have hkept : t.isSkipped = false := by rcases ht with rfl | rfl <;> rfl
    rw [hcons] at hn
    cases hf : (st.past ['\n']).feed name ((st.past ['\n']).tokenOf t "end".toList) with
    | error f =>
      rw [Progress.run_token_error hn hkept hf] at h
      cases h
    | ok next =>
      rw [Progress.run_token_ok hn hkept hf] at h
      obtain rfl : next = last := Except.ok.inj ((Progress.run_nil name next 0).symm.trans h)
      exact ⟨_, ht, hf, .blank rfl (.found rfl hn hkept rfl rfl hf (.refl next []))⟩

/-- **A body that ends with the text is whole at the top.** -/
theorem whole_of_end {last : Progress} {ds : List Declaration} (h : Abreast base st st')
    (hrun : Progress.run name 0 st' ('\n' :: "end".toList) = .ok last)
    (hds : last.finish name = .ok ds) :
    ∃ us, Falls name endWord st.stack us ∧ Lr.top us ∈ wholeStates := by
  obtain ⟨k, ht, hf, hfound⟩ := run_end hrun
  have htakes := hfound.cuts.takes k List.mem_cons_self
  obtain ⟨q, ws, hs, hstack⟩ := Progress.settle_of_feed hf
  obtain ⟨us, hfalls, hstuck | ⟨hbeside, ha, htwin⟩⟩ := h.beside.shift h.opened h.meant hs
  · rcases ht with ht | ht
    · exact absurd ht hstuck.notName
    · exact ⟨us, ht ▸ hfalls, hstuck.whole ht⟩
  · -- Where the word is read as a part of the body, the class is not closed.
    exfalso
    have hshift := (hfalls.settle_eq h.meant.plain).trans (settle_shift ha)
    have hmeant := h.meant.shifted htakes hshift
    obtain ⟨_, _, _, haccept, -⟩ := accept_of_finish hds
    rw [hstack] at haccept
    exact (hbeside.push htwin _ _).not_accept h.opened hmeant haccept

/-! ## The whole text -/

theorem parse_eq (text name : String) : parse text name
    = (Progress.run name 0 {} text.toList).bind fun st => st.finish name := by
  delta parse
  cases Progress.run name 0 {} text.toList <;> simp only [Except.bind]

/-- The text of a class with a body. -/
def classText (n : TypeName) (body : List Char) : List Char :=
  "class ".toList ++ n.render.toList ++ '\n' :: (body ++ '\n' :: "end".toList)

/-- A class is read behind its header, then its body, then its end. -/
theorem run_classText (name : String) {n : TypeName} (hn : n.IsClass) (body : List Char) :
    ∃ st w, IsHeader n w ∧
      Finds name {} (classText n body) w st (body ++ '\n' :: "end".toList) ∧
      Progress.run name 0 {} (classText n body)
        = (Progress.run name 0 st body).bind fun st' =>
          Progress.run name 0 st' ('\n' :: "end".toList) := by
  obtain ⟨w, p, hw, hscan⟩ := reads_header name hn (body ++ '\n' :: "end".toList)
  obtain ⟨stack, base, hfeed, -⟩ := feed_header name hw
  have hstart : Stands .start (Lr.top (Progress.stack {})) := rfl
  obtain ⟨st, hfound, -, -⟩ := finds_of_scans hscan rfl hstart hfeed
  have hall : Finds name {} (classText n body) w (st.past ['\n']) (body ++ '\n' :: "end".toList) := by
    have hline := hfound.trans (.blank rfl (.refl (st.past ['\n']) _))
    rwa [List.append_nil] at hline
  have hcalm : IsCalm "end".toList := (by decide : ∀ c ∈ closers, c ∉ "end".toList)
  exact ⟨st.past ['\n'], w, hw, hall,
    hall.run_eq.trans (run_append_line name hcalm (st.past ['\n']) body)⟩

/-- **The tokens of a class with a body** are those of its header, those of the body and one for its end. -/
theorem finds_classText {n : TypeName} (hn : n.IsClass) {body : List Char} {ds : List Declaration}
    (h : parse (.ofList (classText n body)) name = .ok ds) :
    ∃ w v k last, IsHeader n w ∧ Cuts body v ∧
      Finds name {} (classText n body) (w ++ (v ++ [k])) last [] ∧ last.finish name = .ok ds := by
  rw [parse_eq, String.toList_ofList] at h
  obtain ⟨st, w, hw, hheader, hrun⟩ := run_classText name hn body
  rw [hrun] at h
  cases hbody : Progress.run name 0 st body with
  | error f =>
    rw [hbody] at h
    cases h
  | ok st' =>
    rw [hbody] at h
    cases hlast : Progress.run name 0 st' ('\n' :: "end".toList) with
    | error f =>
      simp only [Except.bind, hlast] at h
      cases h
    | ok last =>
      simp only [Except.bind, hlast] at h
      obtain ⟨v, hv⟩ := run_finds name st body st' hbody
      obtain ⟨k, -, -, hk⟩ := run_end hlast
      have hcalm : IsCalm "end".toList := (by decide : ∀ c ∈ closers, c ∉ "end".toList)
      exact ⟨w, v, k, last, hw, hv.cuts, hheader.trans ((hv.append_line hcalm).trans hk), h⟩

/-- **A text that can only be read as the body of a class** stops where a class could have started and no
method could. -/
theorem cannotStart_of_classText {n : TypeName} (hn : n.IsClass) {text : String} {f : Fault}
    {ds : List Declaration} (hf : parse text name = .error f)
    (hds : parse (.ofList (classText n text.toList)) name = .ok ds) : f.cannotStart = true := by
  rw [parse_eq] at hf
  rw [parse_eq, String.toList_ofList] at hds
  obtain ⟨st, w, hw, hheader, hrun⟩ := run_classText name hn text.toList
  obtain ⟨stack, base, hfeed, hopened⟩ := feed_header name hw
  obtain rfl : stack = st.stack := Option.some.inj (hfeed.symm.trans hheader.feedTokens)
  rw [hrun] at hds
  cases hbody : Progress.run name 0 st text.toList with
  | error f' =>
    rw [hbody] at hds
    cases hds
  | ok fin' =>
    rw [hbody] at hds
    rcases run_opened name {} text.toList st fin' rfl hopened hbody with
      ⟨fin, hfin, hend⟩ | ⟨f', hf', hstart⟩
    · -- The text is read to its end by itself; it would be whole.
      exfalso
      rw [hfin] at hf
      obtain ⟨w', hcuts, hfed⟩ := run_cuts hfin
      have hwhole : ∃ ds, fin.finish name = .ok ds := by
        rcases hend with hnil | habreast
        · refine finish_of_whole hfed hcuts.takes (.refl fin.stack) (t := endWord) ?_
          rw [hnil]
          exact List.mem_cons_self
        · cases hlast : Progress.run name 0 fin' ('\n' :: "end".toList) with
          | error f' =>
            simp only [Except.bind, hlast] at hds
            cases hds
          | ok last =>
            simp only [Except.bind, hlast] at hds
            obtain ⟨us, hfalls, hus⟩ := whole_of_end habreast hlast hds
            exact finish_of_whole hfed hcuts.takes hfalls hus
      obtain ⟨ds', hds'⟩ := hwhole
      simp only [Except.bind, hds'] at hf
      cases hf
    · rw [hf'] at hf
      obtain rfl := Except.error.inj hf
      exact hstart

end RbsSynth.Signature
