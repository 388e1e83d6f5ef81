import RbsSynth.Proofs.Merge.KeepFirst

/-!
# Merging two declarations at a time

`Declaration.join` is the merge of a group of two, and `joinInto` joins a declaration to the merged
ones before it.  A group is merged by joining its declarations one after the other, so merging is a
fold, and joining is associative:

    merge ds = ds.foldl joinInto []                    (merge_eq_foldl)
    (a.join b).join c = a.join (b.join c)              (Declaration.join_assoc)
-/

namespace RbsSynth.Signature

/-! ## Notes -/

theorem mergeNotes_merged_left (p q : Notes) (ns ms : List Notes) :
    mergeNotes p (mergeNotes q ns :: ms) = mergeNotes p (ns ++ ms) := by
  have ha : uniqueAnnotations (uniqueAnnotations (ns.flatMap (·.annotations))
      ++ ms.flatMap (·.annotations)) = uniqueAnnotations ((ns ++ ms).flatMap (·.annotations)) := by
    simp only [uniqueAnnotations_eq_keepFirst, List.flatMap_append]
    rw [← keepFirst_append_keepFirst, keepFirst_keepFirst, keepFirst_append_keepFirst]
  have hc : (mergeNotes q ns :: ms).findSome? (·.comment) = (ns ++ ms).findSome? (·.comment) := by
    rw [List.findSome?_append, List.findSome?_cons]
    have h : (mergeNotes q ns).comment = ns.findSome? (·.comment) := rfl
    rw [h]
    cases ns.findSome? (·.comment) <;> rfl
  unfold mergeNotes at hc ⊢
  rw [hc, List.flatMap_cons, ha]

theorem mergeNotes_merged_right (p q : Notes) (n : Notes) (ns : List Notes) :
    mergeNotes p [n, mergeNotes q ns] = mergeNotes p (n :: ns) := by
  have ha : uniqueAnnotations (n.annotations ++ uniqueAnnotations (ns.flatMap (·.annotations)))
      = uniqueAnnotations (n.annotations ++ ns.flatMap (·.annotations)) := by
    simp only [uniqueAnnotations_eq_keepFirst]
    rw [← keepFirst_append_keepFirst, keepFirst_keepFirst, keepFirst_append_keepFirst]
  unfold mergeNotes
  simp only [List.flatMap_cons, List.flatMap_nil, List.append_nil, ha, List.findSome?_cons,
    List.findSome?_nil]
  cases n.comment with
  | some c => rfl
  | none => cases ns.findSome? (·.comment) <;> rfl

/-! ## Classes -/

/-- The class that a merged one takes its header from. -/
def primaryClass (first : ClassDecl) (more : List ClassDecl) : ClassDecl :=
  ((first :: more).find? (·.superclass.isSome)).getD first

theorem mergeClasses_eq (first : ClassDecl) (more : List ClassDecl) :
    mergeClasses first more =
      { primaryClass first more with
        members := (first :: more).flatMap (·.members)
        notes := mergeNotes (primaryClass first more).notes ((first :: more).map (·.notes)) } := rfl

/-- The header of a class, which no merging changes but by taking another's. -/
def ClassDecl.header (d : ClassDecl) : TypeName × List TypeParam × Option Application × Option Location :=
  (d.name, d.typeParams, d.superclass, d.notes.location)

theorem header_mergeClasses (first : ClassDecl) (more : List ClassDecl) :
    (mergeClasses first more).header = (primaryClass first more).header := rfl

/-- Two merged classes are the same when headers, members and notes come from the same lists. -/
theorem mergeClasses_congr {a b : ClassDecl} {as bs : List ClassDecl}
    (hh : (primaryClass a as).header = (primaryClass b bs).header)
    (hm : (a :: as).flatMap (·.members) = (b :: bs).flatMap (·.members))
    (hn : ∀ p, mergeNotes p ((a :: as).map (·.notes)) = mergeNotes p ((b :: bs).map (·.notes))) :
    mergeClasses a as = mergeClasses b bs := by
  simp only [ClassDecl.header, Prod.mk.injEq] at hh
  obtain ⟨h1, h2, h3, h4⟩ := hh
  simp only [mergeClasses_eq, hm, hn, h1, h2, h3]
  unfold mergeNotes
  rw [h4]

theorem header_primaryClass_merged_left (a : ClassDecl) (bs cs : List ClassDecl) :
    (primaryClass (mergeClasses a bs) cs).header = (primaryClass a (bs ++ cs)).header := by
  have hs : (mergeClasses a bs).superclass = (primaryClass a bs).superclass := rfl
  unfold primaryClass at hs ⊢
  rw [List.find?_cons, hs, ← List.cons_append, List.find?_append]
  cases h : (a :: bs).find? (·.superclass.isSome) with
  | some p =>
    have hp := List.find?_some h
    simp only [Option.getD_some, hp, Option.some_or]
    rw [header_mergeClasses, primaryClass, h, Option.getD_some]
  | none =>
    have ha : a.superclass.isSome = false := by
      rw [List.find?_eq_none] at h
      simpa using h a (by simp)
    simp only [Option.getD_none, ha, Option.none_or]
    cases cs.find? (·.superclass.isSome) with
    | some p => rfl
    | none => rw [Option.getD_none, Option.getD_none, header_mergeClasses, primaryClass, h, Option.getD_none]

theorem header_primaryClass_merged_right (a b : ClassDecl) (cs : List ClassDecl) :
    (primaryClass a [mergeClasses b cs]).header = (primaryClass a (b :: cs)).header := by
  have hs : (mergeClasses b cs).superclass = (primaryClass b cs).superclass := rfl
  unfold primaryClass at hs ⊢
  rw [List.find?_cons, List.find?_cons (a := a)]
  cases ha : a.superclass.isSome with
  | true => rfl
  | false =>
    rw [List.find?_cons, hs]
    cases h : (b :: cs).find? (·.superclass.isSome) with
    | some p =>
      have hp := List.find?_some h
      simp only [Option.getD_some, hp]
      rw [header_mergeClasses, primaryClass, h, Option.getD_some]
    | none =>
      have hb : b.superclass.isSome = false := by
        rw [List.find?_eq_none] at h
        simpa using h b (by simp)
      simp only [Option.getD_none, hb, List.find?_nil]

theorem mergeClasses_merged_left (a : ClassDecl) (bs cs : List ClassDecl) :
    mergeClasses (mergeClasses a bs) cs = mergeClasses a (bs ++ cs) := by
  refine mergeClasses_congr (header_primaryClass_merged_left a bs cs) ?_ ?_
  · rw [← List.cons_append, List.flatMap_append]
    rfl
  · intro p
    rw [← List.cons_append, List.map_append]
    exact mergeNotes_merged_left p _ _ _

theorem mergeClasses_merged_right (a b : ClassDecl) (cs : List ClassDecl) :
    mergeClasses a [mergeClasses b cs] = mergeClasses a (b :: cs) := by
  refine mergeClasses_congr (header_primaryClass_merged_right a b cs) ?_ ?_
  · show a.members ++ ((b :: cs).flatMap (·.members) ++ []) = _
    rw [List.append_nil]
    rfl
  · intro p
    exact mergeNotes_merged_right p _ _ _

/-! ## Modules -/

def ModuleDecl.header (d : ModuleDecl) : TypeName × List TypeParam × Option Location :=
  (d.name, d.typeParams, d.notes.location)

/-- Two merged modules are the same when headers and parts come from the same lists. -/
theorem mergeModules_congr {a b : ModuleDecl} {as bs : List ModuleDecl} (hh : a.header = b.header)
    (hs : unique ((a :: as).flatMap (·.selfTypes)) = unique ((b :: bs).flatMap (·.selfTypes)))
    (hm : (a :: as).flatMap (·.members) = (b :: bs).flatMap (·.members))
    (hn : ∀ p, mergeNotes p ((a :: as).map (·.notes)) = mergeNotes p ((b :: bs).map (·.notes))) :
    mergeModules a as = mergeModules b bs := by
  unfold mergeModules
  simp only [ModuleDecl.header, Prod.mk.injEq] at hh
  obtain ⟨h1, h2, h3⟩ := hh
  simp only [hs, hm, hn, h1, h2]
  unfold mergeNotes
  rw [h3]

theorem mergeModules_merged_left (a : ModuleDecl) (bs cs : List ModuleDecl) :
    mergeModules (mergeModules a bs) cs = mergeModules a (bs ++ cs) := by
  refine mergeModules_congr rfl ?_ ?_ ?_
  · rw [← List.cons_append, List.flatMap_append]
    show unique (unique ((a :: bs).flatMap (·.selfTypes)) ++ cs.flatMap (·.selfTypes)) = _
    simp only [unique_eq_keepFirst]
    rw [← keepFirst_append_keepFirst, keepFirst_keepFirst, keepFirst_append_keepFirst]
  · rw [← List.cons_append, List.flatMap_append]
    rfl
  · intro p
    rw [← List.cons_append, List.map_append]
    exact mergeNotes_merged_left p _ _ _

theorem mergeModules_merged_right (a b : ModuleDecl) (cs : List ModuleDecl) :
    mergeModules a [mergeModules b cs] = mergeModules a (b :: cs) := by
  refine mergeModules_congr rfl ?_ ?_ ?_
  · show unique (a.selfTypes ++ (unique ((b :: cs).flatMap (·.selfTypes)) ++ [])) = _
    rw [List.append_nil, List.flatMap_cons (x := a)]
    simp only [unique_eq_keepFirst]
    rw [← keepFirst_append_keepFirst, keepFirst_keepFirst, keepFirst_append_keepFirst]
  · show a.members ++ ((b :: cs).flatMap (·.members) ++ []) = _
    rw [List.append_nil]
    rfl
  · intro p
    exact mergeNotes_merged_right p _ _ _

/-! ## Declarations -/

/-- Two declarations of one class or module as one. -/
def Declaration.join : Declaration → Declaration → Declaration
  | .nestable (.classDecl a), .nestable (.classDecl b) =>
    .nestable (.classDecl (mergeClasses a [b]))
  | .nestable (.moduleDecl a), .nestable (.moduleDecl b) =>
    .nestable (.moduleDecl (mergeModules a [b]))
  | d, _ => d

/-- Whether two declarations are of one class or module. -/
def Declaration.sameKey (d e : Declaration) : Bool :=
  e.mergeKey?.isSome && decide (d.mergeKey? = e.mergeKey?)

/-- Two declarations of one key are two classes or two modules, written with one name. -/
theorem Declaration.sameKey_cases {d e : Declaration} (h : d.sameKey e = true) :
    (∃ a b : ClassDecl, d = .nestable (.classDecl a) ∧ e = .nestable (.classDecl b) ∧
      a.name.render = b.name.render) ∨
    (∃ a b : ModuleDecl, d = .nestable (.moduleDecl a) ∧ e = .nestable (.moduleDecl b) ∧
      a.name.render = b.name.render) := by
  unfold Declaration.sameKey at h
  simp only [Bool.and_eq_true, decide_eq_true_eq] at h
  obtain ⟨hs, hk⟩ := h
  match d, e, hs, hk with
  | .nestable (.classDecl a), .nestable (.classDecl b), _, hk =>
    exact .inl ⟨a, b, rfl, rfl, by simpa [Declaration.mergeKey?] using hk⟩
  | .nestable (.moduleDecl a), .nestable (.moduleDecl b), _, hk =>
    exact .inr ⟨a, b, rfl, rfl, by simpa [Declaration.mergeKey?] using hk⟩
  | .nestable (.interfaceDecl _), .nestable (.classDecl _), _, hk
  | .nestable (.aliasDecl _), .nestable (.classDecl _), _, hk
  | .nestable (.constantDecl _), .nestable (.classDecl _), _, hk
  | .nestable (.moduleDecl _), .nestable (.classDecl _), _, hk
  | .globalDecl _, .nestable (.classDecl _), _, hk
  | .nestable (.interfaceDecl _), .nestable (.moduleDecl _), _, hk
  | .nestable (.aliasDecl _), .nestable (.moduleDecl _), _, hk
  | .nestable (.constantDecl _), .nestable (.moduleDecl _), _, hk
  | .nestable (.classDecl _), .nestable (.moduleDecl _), _, hk
  | .globalDecl _, .nestable (.moduleDecl _), _, hk =>
    simp [Declaration.mergeKey?] at hk

theorem name_mergeClasses_of_render {a b : ClassDecl} (h : a.name.render = b.name.render) :
    (mergeClasses a [b]).name.render = a.name.render := by
  show (primaryClass a [b]).name.render = _
  unfold primaryClass
  rw [List.find?_cons, List.find?_cons, List.find?_nil]
  cases a.superclass.isSome with
  | true => rfl
  | false => cases b.superclass.isSome with
    | true => exact h.symm
    | false => rfl

theorem Declaration.mergeKey?_join {d e : Declaration} (h : d.sameKey e = true) :
    (d.join e).mergeKey? = d.mergeKey? := by
  rcases Declaration.sameKey_cases h with ⟨a, b, rfl, rfl, hn⟩ | ⟨a, b, rfl, rfl, _⟩
  · simp only [Declaration.join, Declaration.mergeKey?, name_mergeClasses_of_render hn]
  · rfl

theorem Declaration.join_assoc {a b c : Declaration} (hab : a.sameKey b = true)
    (hbc : b.sameKey c = true) : (a.join b).join c = a.join (b.join c) := by
  rcases Declaration.sameKey_cases hab with ⟨a, b, rfl, rfl, _⟩ | ⟨a, b, rfl, rfl, _⟩
  · rcases Declaration.sameKey_cases hbc with ⟨_, c, _, rfl, _⟩ | ⟨_, _, hb, _, _⟩
    · simp only [Declaration.join, mergeClasses_merged_left, mergeClasses_merged_right]
      rfl
    · cases hb
  · rcases Declaration.sameKey_cases hbc with ⟨_, _, hb, _, _⟩ | ⟨_, c, _, rfl, _⟩
    · cases hb
    · simp only [Declaration.join, mergeModules_merged_left, mergeModules_merged_right]
      rfl

/-! ## Groups -/

/-- A group as it arises: the declarations behind its first one have the first one's key. -/
def Uniform : List Declaration → Prop
  | [] => False
  | d :: ds => ∀ e ∈ ds, d.sameKey e = true

theorem uniform_concat {g : List Declaration} {x : Declaration} (hg : Uniform g)
    (hk : x.mergeKey?.isSome = true) (hx : g.head?.bind Declaration.mergeKey? = x.mergeKey?) :
    Uniform (g ++ [x]) := by
  cases g with
  | nil => exact hg.elim
  | cons d ds =>
    intro e he
    rcases List.mem_append.mp he with he | he
    · exact hg e he
    · have hd : d.mergeKey? = x.mergeKey? := hx
      rw [List.mem_singleton.mp he, Declaration.sameKey, hd, hk]
      simp

/-- A group with one more declaration is the merged group joined with it. -/
theorem mergeGroup_concat {d : Declaration} {ds : List Declaration} {x : Declaration}
    (hd : Uniform (d :: ds)) (hx : d.sameKey x = true) :
    mergeGroup (d :: ds ++ [x]) = (mergeGroup (d :: ds)).map (·.join x) := by
  cases ds with
  | nil =>
    rcases Declaration.sameKey_cases hx with ⟨a, b, rfl, rfl, _⟩ | ⟨a, b, rfl, rfl, _⟩ <;> rfl
  | cons e es =>
    rcases Declaration.sameKey_cases hx with ⟨a, b, rfl, rfl, _⟩ | ⟨a, b, rfl, rfl, _⟩
    · simp only [List.cons_append, mergeGroup, Option.map_some, Declaration.join,
        mergeClasses_merged_left]
      rw [← List.cons_append, List.filterMap_append]
      rfl
    · simp only [List.cons_append, mergeGroup, Option.map_some, Declaration.join,
        mergeModules_merged_left]
      rw [← List.cons_append, List.filterMap_append]
      rfl

/-- A group is merged into one declaration, which has its key. -/
theorem mergeGroup_uniform {g : List Declaration} (hg : Uniform g) :
    ∃ m, mergeGroup g = some m ∧ m.mergeKey? = g.head?.bind Declaration.mergeKey? := by
  induction g using List.reverseRecOn with
  | nil => exact hg.elim
  | append_singleton g x ih =>
    cases g with
    | nil => exact ⟨x, rfl, rfl⟩
    | cons d ds =>
      have hx : d.sameKey x = true := hg x (by simp)
      have hd : Uniform (d :: ds) := fun e he => hg e (by simp [he])
      obtain ⟨m, hm, hk⟩ := ih hd
      have hk' : m.mergeKey? = d.mergeKey? := hk
      have hmx : m.sameKey x = true := by rwa [Declaration.sameKey, hk']
      refine ⟨m.join x, ?_, ?_⟩
      · rw [mergeGroup_concat hd hx, hm]
        rfl
      · rw [Declaration.mergeKey?_join hmx, hk']
        rfl

/-! ## Merging as a fold -/

/-- Joins a declaration to the one of its key, or puts it last. -/
def joinInto : List Declaration → Declaration → List Declaration
  | [], d => [d]
  | e :: es, d => if e.sameKey d then e.join d :: es else e :: joinInto es d

theorem uniform_enterGroup {gs : List (List Declaration)} (x : Declaration)
    (h : ∀ g ∈ gs, Uniform g) : ∀ g ∈ enterGroup Declaration.mergeKey? x gs, Uniform g := by
  induction gs with
  | nil =>
    intro g hg
    rw [enterGroup, List.mem_singleton] at hg
    subst hg
    exact fun e he => by cases he
  | cons g gs ih =>
    have hgs : ∀ g ∈ gs, Uniform g := fun g hg => h g (List.mem_cons_of_mem _ hg)
    intro g' hg'
    rw [enterGroup] at hg'
    split at hg'
    · next hk =>
      simp only [Bool.and_eq_true, decide_eq_true_eq] at hk
      rcases List.mem_cons.mp hg' with rfl | hg'
      · exact uniform_concat (h g List.mem_cons_self) hk.1 hk.2
      · exact hgs g' hg'
    · rcases List.mem_cons.mp hg' with rfl | hg'
      · exact h _ List.mem_cons_self
      · exact ih hgs g' hg'

theorem filterMap_enterGroup {gs : List (List Declaration)} (x : Declaration)
    (h : ∀ g ∈ gs, Uniform g) :
    (enterGroup Declaration.mergeKey? x gs).filterMap mergeGroup
      = joinInto (gs.filterMap mergeGroup) x := by
  induction gs with
  | nil => rfl
  | cons g gs ih =>
    have hg : Uniform g := h g List.mem_cons_self
    obtain ⟨m, hm, hk⟩ := mergeGroup_uniform hg
    have hs : m.sameKey x
        = (x.mergeKey?.isSome && decide (g.head?.bind Declaration.mergeKey? = x.mergeKey?)) := by
      rw [Declaration.sameKey, hk]
    rw [List.filterMap_cons_some hm, enterGroup, joinInto, hs]
    split
    · next hx =>
      have hgx : mergeGroup (g ++ [x]) = some (m.join x) := by
        cases g with
        | nil => exact hg.elim
        | cons d ds =>
          have hd : d.sameKey x = true := hx
          rw [mergeGroup_concat hg hd, hm]
          rfl
      rw [List.filterMap_cons_some hgx]
    · rw [List.filterMap_cons_some hm, ih fun g hg => h g (List.mem_cons_of_mem _ hg)]

theorem merge_eq_foldl (ds : List Declaration) : merge ds = ds.foldl joinInto [] := by
  have key : ∀ (ds : List Declaration) (gs : List (List Declaration)), (∀ g ∈ gs, Uniform g) →
      (ds.foldl (fun gs x => enterGroup Declaration.mergeKey? x gs) gs).filterMap mergeGroup
        = ds.foldl joinInto (gs.filterMap mergeGroup) := by
    intro ds
    induction ds with
    | nil => intro gs _; rfl
    | cons d ds ih =>
      intro gs h
      rw [List.foldl_cons, List.foldl_cons, ih _ (uniform_enterGroup d h), filterMap_enterGroup d h]
  exact key ds [] (by simp)

theorem merge_append_eq_foldl (ds es : List Declaration) :
    merge (ds ++ es) = es.foldl joinInto (merge ds) := by
  rw [merge_eq_foldl, merge_eq_foldl, List.foldl_append]

end RbsSynth.Signature
