import RbsSynth.Proofs.Reading.Wrapped

/-!
# What a reader keeps

A property of the nodes on a stack is kept if the tokens that a lexer finds have it, and so does what a
production builds from nodes that have it.  Then the file that a text is read as has it:

    Kept name P,  parse text name = .ok ds
      →  P 0 file ⟨raw, _⟩,  where ds is raw with the comments of the text          (Kept.parsed)
-/

namespace RbsSynth.Signature

variable {name : String} {P : Nat → Symbol → Node → Prop}

theorem Along.imp {Q : Nat → Symbol → Node → Prop} (hPQ : ∀ q x n, P q x n → Q q x n)
    {xs : List Symbol} : ∀ {q : Nat} {ns : List Node}, Along P q xs ns → Along Q q xs ns := by
  induction xs with
  | nil =>
    intro q ns h
    cases ns with
    | nil => exact trivial
    | cons => exact h.elim
  | cons x xs ih =>
    intro q ns h
    cases ns with
    | nil => exact h.elim
    | cons n ns =>
      obtain ⟨hn, q', hq, h⟩ := h
      exact ⟨hPQ q x n hn, q', hq, ih h⟩

theorem Along.forall_mem {R : Node → Prop} (hP : ∀ q x n, P q x n → R n) {xs : List Symbol} :
    ∀ {q : Nat} {ns : List Node}, Along P q xs ns → ∀ n ∈ ns, R n := by
  induction xs with
  | nil =>
    intro q ns h
    cases ns with
    | nil => exact List.forall_mem_nil _
    | cons => exact h.elim
  | cons x xs ih =>
    intro q ns h
    cases ns with
    | nil => exact h.elim
    | cons n ns =>
      obtain ⟨hn, q', _, h⟩ := h
      exact List.forall_mem_cons.mpr ⟨hP q x n hn, ih h⟩

/-- Whether the newest symbol on the stacks of a state is a terminal, if there is any. -/
def behindTerminal (past : List Nat) : Bool := past.head?.all (· < Terminal.all.length)

/-- A token that is found before `stack` falls to `below`, where it is shifted. -/
structure Comes (name : String) (stack below : List (Lr.Frame Node)) (k : Token) : Prop where
  behind : behindTerminal (past (Lr.top stack)) = true
  found : ∃ cs n, (lexicons.getD (Lr.top stack) Lexicon.full).next? cs = some (k.terminal, n) ∧
    k.text = .ofList (cs.take n)
  falls : Falls name k.terminal stack below
  shifts : (next? (Lr.top below) (.terminal k.terminal)).isSome = true

structure Kept (name : String) (P : Nat → Symbol → Node → Prop) : Prop where
  token : ∀ {stack below : List (Lr.Frame Node)} {k : Token}, Comes name stack below k →
    P (Lr.top below) (.terminal k.terminal) ⟨.token k, some k.span⟩
  production : ∀ {i q : Nat} {p : Production} {ns : List Node} {n : Node},
    productions[i]? = some p → Along P q p.body ns →
    (next? q (.nonterminal p.head)).isSome = true → buildNode name i ns = some n →
    P q (.nonterminal p.head) n

/-- The text of a token is one of its terminal. -/
theorem Comes.takes {stack below : List (Lr.Frame Node)} {k : Token} (h : Comes name stack below k) :
    k.terminal.Takes k.text.toList := by
  obtain ⟨cs, n, hn, htext⟩ := h.found
  rw [htext, String.toList_ofList]
  exact (takes_of_next? hn).take.1

namespace Kept

variable {stack stack' : List (Lr.Frame Node)} {st st' : Progress} {cs cs' : List Char}
  {w : List Token} {t : Terminal}

theorem falls (hP : Kept name P) (h : Chain P stack) (hf : Falls name t stack stack') : Chain P stack' :=
  hf.chain h fun _ _ _ _ _ hp halong hq hn => hP.production hp halong hq hn

theorem finds (hP : Kept name P) (hf : Finds name st cs w st' cs')
    (hst : behindTerminal (past (Lr.top st.stack)) = true) (h : Chain P st.stack) :
    Chain P st'.stack := by
  induction hf with
  | refl => exact h
  | blank _ _ ih => exact ih hst h
  | comment _ _ _ ih => exact ih hst h
  | @token st st₁ _ c cs _ _ t n _ hn _ hfeed _ ih =>
    obtain ⟨q, below, hs, hstack⟩ := Progress.settle_of_feed hfeed
    obtain ⟨hfalls, ha⟩ := falls_of_shift hs
    have hq := next?_of_action? ha
    have hcomes : Comes name st.stack below (st.tokenOf t ((c :: cs).take n)) :=
      ⟨hst, ⟨c :: cs, n, hn, rfl⟩, hfalls, by rw [hq]; rfl⟩
    rw [hstack] at ih
    refine ih ?_ (.push (hP.falls h hfalls) hq (hP.token hcomes))
    show behindTerminal (past q) = true
    rw [behindTerminal, head?_past hq, Option.all_some]
    exact decide_eq_true (number_lt_of_terminal _)

/-- **What a text is read as has every kept property.** -/
theorem parsed (hP : Kept name P) {text : String} {ds : List Declaration}
    (h : parse text name = .ok ds) :
    ∃ st raw sp, Progress.run name 0 {} text.toList = .ok st ∧
      P 0 (.nonterminal .file) ⟨.declarations raw, sp⟩ ∧
      ds = raw.map (Declaration.mapNotes (Notes.attach name (CommentBlock.ofLines st.comments.reverse))) := by
  rw [parse_eq] at h
  cases hrun : Progress.run name 0 {} text.toList with
  | error f => rw [hrun] at h; cases h
  | ok st =>
    rw [hrun] at h
    simp only [Except.bind] at h
    obtain ⟨w, hfinds⟩ := run_finds name {} text.toList st hrun
    have hnil : Chain P ({} : Progress).stack := .nil
    have hstart : behindTerminal (past (Lr.top ({} : Progress).stack)) = true := by decide +kernel
    obtain ⟨q, raw, sp, haccept, hds⟩ := accept_of_finish h
    obtain ⟨hfalls, ha⟩ := falls_of_accept haccept
    refine ⟨st, raw, sp, rfl, ?_, hds⟩
    cases hP.falls (hP.finds hfinds hstart hnil) hfalls with
    | @push _ x _ _ _ hq hn =>
      obtain rfl : q = fileState := eq_fileState_of_reduce ha
      obtain rfl := eq_file_of_next? hq
      exact hn

end Kept

end RbsSynth.Signature
