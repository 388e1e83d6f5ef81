import RbsSynth.Proofs.Environment.Registered
import RbsSynth.Proofs.Reading.Kept

/-!
# Names that declarations are indexed by

An index name is a qualified name that is not empty and does not start with `::`, and neither does a
name inside of it.  A text declares its classes, modules and interfaces under index names:

    parse text source = .ok ds  →  ds register index names only                        (parse_indexed)

What a rule builds from indexed parts is indexed, so all that a reader has on its stack is.
-/

namespace RbsSynth

open Signature

/-- Neither the name nor what it is put before starts with `::`. -/
def IsIndexName (q : String) : Prop := ¬ colons <+: q.toList ++ colons

instance : DecidablePred IsIndexName := fun _ => inferInstanceAs (Decidable (¬ _))

theorem IsIndexName.not_isPrefixOf {q : String} (h : IsIndexName q) : colons.isPrefixOf q.toList = false := by
  rw [← Bool.not_eq_true, List.isPrefixOf_iff_prefix]
  exact fun hpre => h (hpre.trans (List.prefix_append _ _))

/-- A name inside of an index name is one. -/
theorem IsIndexName.inner {q : String} (h : IsIndexName q) (name : String) : IsIndexName (q ++ "::" ++ name) := by
  have happend : (q ++ "::" ++ name).toList ++ colons = (q.toList ++ colons) ++ (name.toList ++ colons) := by
    rw [String.toList_append, String.toList_append, List.append_assoc]
    rfl
  rw [IsIndexName, happend]
  intro hpre
  refine h (List.prefix_of_prefix_length_le hpre (List.prefix_append _ _) ?_)
  rw [List.length_append]
  exact Nat.le_add_left _ _

theorem IsIndexName.of_cons {q : String} {c : Char} {cs : List Char} (h : q.toList = c :: cs)
    (hc : c ≠ ':') : IsIndexName q := by
  rw [IsIndexName, h, List.cons_append, colons, List.cons_prefix_cons]
  exact fun hpre => hc hpre.1.symm

theorem isIndexName_qualified {n : TypeName} (h : ∀ s ∈ n.path ++ [n.name], IsSegment s) :
    IsIndexName n.qualified := by
  obtain ⟨a, as, has⟩ := List.exists_cons_of_ne_nil
    (List.append_ne_nil_of_right_ne_nil n.path (List.cons_ne_nil n.name []))
  rw [has] at h
  obtain ⟨hne, hcolon⟩ := h a List.mem_cons_self
  obtain ⟨c, x, hx⟩ := List.exists_cons_of_ne_nil hne
  have hq : ∃ cs, n.qualified.toList = c :: cs := by
    rw [TypeName.qualified, has, Text.join_cons, hx, List.cons_append]
    exact ⟨_, rfl⟩
  obtain ⟨cs, hcs⟩ := hq
  refine IsIndexName.of_cons hcs fun he => hcolon ?_
  rw [hx, he]
  exact List.mem_cons_self

theorem isIndexName_qualify {outer : Option String} (ho : ∀ o ∈ outer, IsIndexName o) {n : TypeName}
    (hn : IsIndexName n.qualified) : IsIndexName (qualify outer n) := by
  cases outer with
  | none => exact hn
  | some o =>
    rw [qualify]
    split
    · exact hn
    · exact (ho o rfl).inner _

namespace Signature

/-! ## Declarations -/

/-- A declaration whose name, if it has members, is an index name, and so are those inside of it. -/
inductive Nestable.Indexed : Nestable → Prop
  | mk {d : Nestable} (hn : d.kind?.isSome = true → IsIndexName d.name.qualified)
    (h : ∀ e ∈ d.inside, e.Indexed) : d.Indexed

def Declaration.Indexed (d : Declaration) : Prop := ∀ e, d = .nestable e → e.Indexed

def Member.Indexed (m : Member) : Prop := ∀ e ∈ m.nested?, e.Indexed

/-- Inside of an index name such a declaration registers index names. -/
theorem Nestable.Indexed.registered {d : Nestable} (h : d.Indexed) : ∀ {outer : Option String},
    (∀ o ∈ outer, IsIndexName o) → ∀ r ∈ d.registered outer, IsIndexName r.name := by
  induction h with
  | @mk d hn _ ih =>
    intro outer ho r hr
    cases hk : d.kind? with
    | none =>
      rw [registered_of_none outer hk] at hr
      cases hr
    | some kind =>
      rw [hk] at hn
      have hindex := isIndexName_qualify ho (hn rfl)
      rw [registered_of_some outer hk, List.mem_cons, List.mem_flatMap] at hr
      rcases hr with rfl | ⟨e, he, hr⟩
      · exact hindex
      · exact ih e he (fun o h => Option.some.inj h ▸ hindex) r hr

theorem Declaration.Indexed.registered {d : Declaration} (h : d.Indexed) :
    ∀ r ∈ d.registered, IsIndexName r.name := by
  cases d with
  | nestable e => exact (h e rfl).registered (fun _ h => nomatch h)
  | globalDecl => exact List.forall_mem_nil _

theorem Nestable.indexed_of_members {d : Nestable} (hn : IsIndexName d.name.qualified)
    (h : ∀ m ∈ d.members, m.Indexed) : d.Indexed := by
  refine .mk (fun _ => hn) fun e he => ?_
  obtain ⟨m, hm, hnested⟩ := List.mem_filterMap.mp he
  exact h m hm e hnested

theorem Nestable.indexed_of_none {d : Nestable} (h : d.kind? = none) : d.Indexed := by
  refine .mk (fun hk => ?_) ?_
  · rw [h] at hk
    cases hk
  · rw [inside_of_kind?_eq_none h]
    exact List.forall_mem_nil _

theorem Member.indexed_of_none {m : Member} (h : m.nested? = none) : m.Indexed := by
  intro e he
  rw [h] at he
  cases he

/-! ### Notes do not matter -/

theorem Nestable.Indexed.withNotes {d : Nestable} (h : d.Indexed) (n : Notes) : (d.withNotes n).Indexed := by
  cases h with
  | mk hn h => cases d <;> exact .mk hn h

theorem Declaration.Indexed.withNotes {d : Declaration} (h : d.Indexed) (n : Notes) :
    (d.withNotes n).Indexed := by
  cases d with
  | nestable e =>
    intro e' he
    cases he
    exact (h e rfl).withNotes n
  | globalDecl => exact fun _ he => nomatch he

theorem Member.Indexed.withNotes {m : Member} (h : m.Indexed) (n : Notes) : (m.withNotes n).Indexed := by
  cases m with
  | nested d =>
    intro e he
    cases he
    exact (h d rfl).withNotes n
  | _ => exact fun _ he => nomatch he

theorem Nestable.Indexed.mapNotes {d : Nestable} (h : d.Indexed) (f : Notes → Notes) :
    (d.mapNotes f).Indexed := by
  induction h with
  | @mk d hn _ ih =>
    have hsame : (d.mapNotes f).kind? = d.kind? ∧ (d.mapNotes f).name = d.name := by
      match d with
      | .classDecl ⟨_, _, _, _, _⟩ | .moduleDecl ⟨_, _, _, _, _⟩ | .interfaceDecl ⟨_, _, _, _⟩
      | .aliasDecl _ | .constantDecl _ => exact ⟨rfl, rfl⟩
    refine .mk (fun hk => ?_) fun e he => ?_
    · rw [hsame.2]
      exact hn (hsame.1 ▸ hk)
    · rw [inside_mapNotes] at he
      obtain ⟨e', he', rfl⟩ := List.mem_map.mp he
      exact ih e' he'

theorem Declaration.Indexed.mapNotes {d : Declaration} (h : d.Indexed) (f : Notes → Notes) :
    (d.mapNotes f).Indexed := by
  cases d with
  | nestable e =>
    intro e' he
    cases he
    exact (h e rfl).mapNotes f
  | globalDecl =>
    intro e he
    cases he

/-! ## Values -/

/-- The names that a value declares something by are index names. -/
def Value.Indexed : Value → Prop
  | .name n => IsIndexName n.qualified
  | .nestable d => d.Indexed
  | .declaration d => d.Indexed
  | .declarations ds => ∀ d ∈ ds, d.Indexed
  | .member m => m.Indexed
  | .members ms => ∀ m ∈ ms, m.Indexed
  | _ => True

/-- Whether values of a nonterminal may declare something or be a name. -/
def Nonterminal.declares : Nonterminal → Bool
  | .root | .file | .declarations | .declaration | .declarationBody | .classDeclaration
  | .moduleDeclaration | .interfaceDeclaration | .aliasDeclaration | .constantDeclaration
  | .globalDeclaration | .members | .member | .memberBody | .methodMember | .attributeMember
  | .mixinMember | .variableMember | .aliasMember | .visibilityMember | .className | .interfacePath
  | .aliasName => true
  | _ => false

theorem indexed_of_means {n : Nonterminal} (hn : n.declares = false) {v : Value} (h : n.Means v) :
    v.Indexed := by
  cases n
  all_goals first
    | exact absurd hn (by decide)
    | (obtain ⟨_, rfl⟩ := h; trivial)
    | (obtain ⟨_, _, rfl⟩ := h; trivial)

theorem membersIn_indexed {vs : List Value} (h : ∀ v ∈ vs, v.Indexed) :
    ∀ m ∈ Value.membersIn vs, m.Indexed := by
  induction vs with
  | nil => exact List.forall_mem_nil _
  | cons v vs ih =>
    obtain ⟨hv, hvs⟩ := List.forall_mem_cons.mp h
    cases v with
    | members ms => exact hv
    | _ => exact ih hvs

theorem forall_mem_snoc {α : Type} {P : α → Prop} {as : List α} {a : α} (h : ∀ b ∈ as, P b)
    (ha : P a) : ∀ b ∈ as ++ [a], P b :=
  List.forall_mem_append.mpr ⟨h, List.forall_mem_singleton.mpr ha⟩

/-! ## Rules -/

variable {name : String}

/-- A rule builds indexed values from indexed parts; those of names look at texts. -/
theorem Rule.indexed {sp : Option Span} {r : Rule}
    (hr : r ≠ .className ∧ r ≠ .interfacePath ∧ r ≠ .aliasName) {vs : List Value} {v : Value}
    (hm : r.shape.1.Means v) (hvs : ∀ u ∈ vs, u.Indexed) (hb : r.build name sp vs = some v) :
    v.Indexed := by
  cases hd : r.shape.1.declares with
  | false => exact indexed_of_means hd hm
  | true =>
    have hhead : vs.head? = some v → v.Indexed := fun h => hvs v (List.mem_of_head? h)
    have hsecond : ∀ {a b : Value} {us : List Value}, vs = a :: b :: us → b.Indexed :=
      fun h => hvs _ (h ▸ List.mem_cons_of_mem _ List.mem_cons_self)
    cases r
    all_goals first
      | exact absurd hd (by decide)
      | exact hhead hb
      | exact absurd rfl hr.1
      | exact absurd rfl hr.2.1
      | exact absurd rfl hr.2.2
      | simp only [build, buildMixin] at hb
    -- What is left are the rules that put a declaration or a member together.
    case file =>
      split at hb
      · cases hb
        exact List.forall_mem_nil _
      · cases hb
        exact hvs _ List.mem_cons_self
      · cases hb
    case declarations | members =>
      split at hb
      · cases hb
        exact List.forall_mem_singleton.mpr (hvs _ List.mem_cons_self)
      · cases hb
    case declarationsMore | membersMore =>
      split at hb
      · cases hb
        exact forall_mem_snoc (hvs _ List.mem_cons_self) (hsecond rfl)
      · cases hb
    case declaration =>
      split at hb
      · cases hb
        have hnestable : Nestable.Indexed _ := hsecond rfl
        intro e he
        cases he
        exact hnestable.withNotes _
      · cases hb
        exact Declaration.Indexed.withNotes (hsecond rfl) _
      · cases hb
    case member =>
      split at hb
      · cases hb
        exact Member.Indexed.withNotes (hsecond rfl) _
      · cases hb
        have hnestable : Nestable.Indexed _ := hsecond rfl
        intro e he
        cases he
        exact hnestable.withNotes _
      · cases hb
    case classDeclaration | moduleDeclaration | interfaceDeclaration =>
      split at hb
      · cases hb
        refine Nestable.indexed_of_members (hsecond rfl) (membersIn_indexed fun u hu => hvs u ?_)
        exact List.mem_cons_of_mem _ (List.mem_cons_of_mem _ hu)
      · cases hb
    case aliasDeclaration | constantDeclaration =>
      split at hb
      · cases hb
        exact Nestable.indexed_of_none rfl
      · cases hb
    case globalDeclaration =>
      split at hb
      · cases hb
        intro e he
        cases he
      · cases hb
    case methodMember | variableMember | aliasMember =>
      split at hb
      · cases hb
        exact Member.indexed_of_none rfl
      · cases hb
    case attributeMember | classMixin | interfaceMixin | visibilityMember =>
      split at hb
      · obtain ⟨_, _, rfl⟩ := Option.map_eq_some_iff.mp hb
        exact Member.indexed_of_none rfl
      · cases hb

/-- The names that are read are index names. -/
theorem indexed_of_name {t : Terminal} (hlast : ∀ s : String, t.Takes s.toList → IsSegment s) :
    ∀ body ∈ RulePart.bodies [.maybeToken .namespacePath, .token t],
      Total Value.Indexed (fun vs => (TypeName.parse? (tokensText vs)).map .name) body :=
  total_name (fun _ hs => isIndexName_qualified hs) hlast

/-! ## Stacks -/

/-- A node with an indexed value of its symbol. -/
def MeantIndexed (q : Nat) (x : Symbol) (n : Node) : Prop := Meant q x n ∧ n.value.Indexed

/-- What a production builds is indexed. -/
theorem indexed_of_along {i q : Nat} {p : Production} {ns : List Node} {n : Node}
    (hp : productions[i]? = some p) (h : Along MeantIndexed q p.body ns)
    (hn : buildNode name i ns = some n) : MeantIndexed q (.nonterminal p.head) n := by
  have halong : Along Meant q p.body ns := h.imp fun _ _ _ h => h.1
  have hvs : ∀ u ∈ ns.map (·.value), u.Indexed := by
    intro u hu
    obtain ⟨m, hm, rfl⟩ := List.mem_map.mp hu
    exact h.forall_mem (fun _ _ _ h => h.2) m hm
  have hmeant := meant_of_along name hp halong hn
  obtain ⟨v, hv, rfl⟩ := buildNode_eq_some hp hn
  refine ⟨hmeant, ?_⟩
  obtain ⟨r, -, hr⟩ := List.mem_flatMap.mp (List.mem_of_getElem? hp)
  obtain ⟨body, hbody, rfl⟩ := List.mem_map.mp hr
  have hname : (∀ body ∈ RulePart.bodies r.shape.2, Total Value.Indexed (r.build name (hull ns)) body) →
      v.Indexed := by
    intro htotal
    obtain ⟨u, hu, hindexed⟩ := halong.builds (htotal body hbody)
    have hsame : some v = some u := hv.symm.trans hu
    exact Option.some.inj hsame ▸ hindexed
  by_cases hplain : r ≠ .className ∧ r ≠ .interfacePath ∧ r ≠ .aliasName
  · exact Rule.indexed hplain hmeant hvs hv
  · rw [not_and_or, not_and_or, not_ne_iff, not_ne_iff, not_ne_iff] at hplain
    rcases hplain with rfl | rfl | rfl
    · exact hname (indexed_of_name fun _ h => IsUpperName.segment h)
    · exact hname (indexed_of_name fun _ h => IsInterfaceName.segment h)
    · exact hname (indexed_of_name fun _ h => IsLowerName.segment h)

theorem kept_indexed (name : String) : Kept name MeantIndexed where
  token h := ⟨⟨_, _, rfl, h.takes⟩, trivial⟩
  production hp halong _ hn := indexed_of_along hp halong hn

/-- **A text declares its classes, modules and interfaces under index names.** -/
theorem parse_indexed {text source : String} {ds : List Declaration}
    (h : parse text source = .ok ds) : ∀ d ∈ ds, d.Indexed := by
  obtain ⟨st, raw, sp, -, ⟨-, hraw⟩, rfl⟩ := (kept_indexed source).parsed h
  intro d hd
  obtain ⟨e, he, rfl⟩ := List.mem_map.mp hd
  exact Declaration.Indexed.mapNotes (hraw e he) _

end Signature

end RbsSynth
