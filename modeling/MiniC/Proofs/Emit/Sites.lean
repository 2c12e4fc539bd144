import MiniC.Proofs.Typing.Elaborated
import Mathlib.Data.Prod.Lex
import Mathlib.Data.List.Lex

/-!
# Where variables are declared in a typed block

A site is the place of one declarator: the path of statements that leads to its block, and its
position there. Sites are ordered as they are written, a block before the blocks inside it and these
by their statements. Hoisting goes through all sites of a block in this order, each of them once
(`Block.declares_hoisted`).
-/

namespace MiniC.Typed

def Stmt.body? : Stmt → Option Block
  | .block body => some body
  | _ => none

/-- The block that a path of statements leads to. -/
def Block.inner? (block : Block) : List Nat → Option Block
  | [] => some block
  | i :: path => (block.stmts[i]?.bind Stmt.body?).bind (·.inner? path)

/-- The path to a block and a position among its declarators. -/
abbrev Site := List Nat × Nat

/-- The order in which sites are written. -/
def Site.Before : Site → Site → Prop :=
  Prod.Lex (· < ·) (· < ·)

/-- A site inside the block that is the `i`-th statement. -/
def Site.under (i : Nat) (site : Site) : Site :=
  (i :: site.1, site.2)

/-- The declarator at a site. -/
def Block.declarator? (block : Block) (site : Site) : Option Declarator :=
  (block.inner? site.1).bind fun inner => inner.declarators[site.2]?

/-- The declarators of a block and of all blocks inside it are these, in the order they are written
and each exactly once. -/
def Block.Declares (block : Block) (declarators : List Declarator) : Prop :=
  ∃ sites : List Site, sites.Pairwise Site.Before ∧
    (∀ site, site ∈ sites ↔ ∃ d, block.declarator? site = some d) ∧
    List.Forall₂ (fun site d => block.declarator? site = some d) sites declarators

/-! ## All sites in order -/

mutual

def Block.sites : Block → List Site
  | ⟨declarators, stmts⟩ =>
    (List.range declarators.length).map (fun k => ([], k)) ++ Stmt.sitesAll 0 stmts

/-- The sites inside statements that are numbered from `first` on. -/
def Stmt.sitesAll (first : Nat) : List Stmt → List Site
  | [] => []
  | s :: rest => s.sites.map (Site.under first) ++ Stmt.sitesAll (first + 1) rest

def Stmt.sites : Stmt → List Site
  | .block body => body.sites
  | _ => []

end

lemma Block.sites_eq (block : Block) : block.sites =
    (List.range block.declarators.length).map (fun k => ([], k)) ++
      Stmt.sitesAll 0 block.stmts := by
  cases block
  rfl

lemma Block.declarator?_nil (block : Block) (k : Nat) :
    block.declarator? ([], k) = block.declarators[k]? := rfl

lemma Block.declarator?_under (block : Block) (i : Nat) (site : Site) :
    block.declarator? (site.under i) =
      (block.stmts[i]?.bind Stmt.body?).bind (·.declarator? site) := by
  simp only [declarator?, Site.under, inner?, Option.bind_assoc]

lemma Stmt.mem_sitesAll {stmts : List Stmt} {first : Nat} {site : Site} :
    site ∈ Stmt.sitesAll first stmts ↔
      ∃ (i : Nat) (s : Stmt) (inner : Site), stmts[i]? = some s ∧ inner ∈ s.sites ∧
        site = inner.under (first + i) := by
  induction stmts generalizing first with
  | nil => simp [sitesAll]
  | cons s rest ih =>
    rw [sitesAll, List.mem_append, List.mem_map, ih]
    constructor
    · rintro (⟨inner, member, rfl⟩ | ⟨i, t, inner, found, member, rfl⟩)
      · exact ⟨0, s, inner, rfl, member, rfl⟩
      · exact ⟨i + 1, t, inner, found, member, by rw [Nat.add_assoc, Nat.add_comm 1]⟩
    · rintro ⟨i, t, inner, found, member, rfl⟩
      cases i with
      | zero =>
        obtain rfl : s = t := Option.some.inj found
        exact .inl ⟨inner, member, rfl⟩
      | succ i =>
        exact .inr ⟨i, t, inner, found, member, by rw [Nat.add_assoc, Nat.add_comm 1]⟩

/-- A site inside the statements of a block is a site of one of its inner blocks. -/
lemma Block.mem_sites_under {block : Block} {i : Nat} {site : Site} :
    site.under i ∈ block.sites ↔ ∃ s, block.stmts[i]? = some s ∧ site ∈ s.sites := by
  obtain ⟨path, k⟩ := site
  rw [sites_eq, List.mem_append, Stmt.mem_sitesAll]
  constructor
  · rintro (own | ⟨j, s, ⟨_, _⟩, found, member, same⟩)
    · obtain ⟨_, _, same⟩ := List.mem_map.mp own
      cases same
    · cases same
      exact ⟨s, by rwa [Nat.zero_add], member⟩
  · rintro ⟨s, found, member⟩
    exact .inr ⟨i, s, (path, k), found, member, by rw [Nat.zero_add]⟩

lemma Block.mem_sites_nil {block : Block} {k : Nat} :
    ([], k) ∈ block.sites ↔ k < block.declarators.length := by
  rw [sites_eq, List.mem_append, Stmt.mem_sitesAll]
  constructor
  · rintro (own | ⟨j, s, inner, found, member, same⟩)
    · simpa using own
    · cases same
  · intro bound
    exact .inl (by simpa using bound)

/-- The sites of a block are the places where it has a declarator. The induction is on the path. -/
lemma Block.mem_sites_iff {block : Block} {site : Site} :
    site ∈ block.sites ↔ ∃ d, block.declarator? site = some d := by
  obtain ⟨path, k⟩ := site
  induction path generalizing block with
  | nil =>
    rw [mem_sites_nil, declarator?_nil, ← Option.isSome_iff_exists, isSome_getElem?]
  | cons i path ih =>
    have opened : ((i :: path, k) : Site) = Site.under i (path, k) := rfl
    rw [opened, mem_sites_under, declarator?_under]
    constructor
    · rintro ⟨s, found, member⟩
      cases s with
      | block body =>
        obtain ⟨d, hd⟩ := ih.mp member
        exact ⟨d, by simpa [found, Stmt.body?] using hd⟩
      | expr _ => cases member
      | ret _ => cases member
    · rintro ⟨d, hd⟩
      obtain ⟨body, inner, there⟩ := Option.bind_eq_some_iff.mp hd
      obtain ⟨s, found, isBody⟩ := Option.bind_eq_some_iff.mp inner
      cases s with
      | block b =>
        cases isBody
        exact ⟨_, found, ih.mpr ⟨d, there⟩⟩
      | expr _ => cases isBody
      | ret _ => cases isBody

/-! ## Order -/

lemma Site.Before.under {a b : Site} (h : a.Before b) (i : Nat) :
    (a.under i).Before (b.under i) := by
  cases h with
  | left _ _ path => exact .left _ _ (List.Lex.cons path)
  | right _ position => exact .right _ position

lemma Site.under_before_of_lt {i j : Nat} (h : i < j) (a b : Site) :
    (a.under i).Before (b.under j) :=
  .left _ _ (List.Lex.rel h)

lemma Site.nil_before_under (k i : Nat) (site : Site) : Site.Before ([], k) (site.under i) :=
  .left _ _ List.Lex.nil

mutual

theorem Block.sites_sorted : ∀ block : Block, block.sites.Pairwise Site.Before
  | ⟨declarators, stmts⟩ => by
    refine List.pairwise_append.mpr ⟨?_, Stmt.sitesAll_sorted 0 stmts, ?_⟩
    · refine List.pairwise_map.mpr (List.pairwise_lt_range.imp ?_)
      intro k l less
      exact .right _ less
    · intro own member site later
      obtain ⟨k, _, rfl⟩ := List.mem_map.mp member
      obtain ⟨i, _, inner, _, _, rfl⟩ := Stmt.mem_sitesAll.mp later
      exact Site.nil_before_under k _ inner

theorem Stmt.sitesAll_sorted : ∀ (first : Nat) (stmts : List Stmt),
    (Stmt.sitesAll first stmts).Pairwise Site.Before
  | _, [] => .nil
  | first, s :: rest => by
    refine List.pairwise_append.mpr ⟨?_, Stmt.sitesAll_sorted (first + 1) rest, ?_⟩
    · exact List.pairwise_map.mpr ((Stmt.sites_sorted s).imp fun before => before.under first)
    · intro here member site later
      obtain ⟨inner, _, rfl⟩ := List.mem_map.mp member
      obtain ⟨i, _, other, _, _, rfl⟩ := Stmt.mem_sitesAll.mp later
      exact Site.under_before_of_lt (by omega) inner other

theorem Stmt.sites_sorted : ∀ s : Stmt, s.sites.Pairwise Site.Before
  | .block body => Block.sites_sorted body
  | .expr _ => .nil
  | .ret _ => .nil

end

/-! ## Hoisting -/

mutual

/-- Hoisting meets the sites of a block in order. -/
theorem Block.hoisted_sites : ∀ block : Block,
    List.Forall₂ (fun site d => block.declarator? site = some d) block.sites block.hoisted
  | ⟨declarators, stmts⟩ => by
    refine List.rel_append ?_ (Stmt.hoistedAll_sites stmts 0 fun i s found => by simpa using found)
    rw [List.forall₂_map_left_iff, List.forall₂_iff_get]
    refine ⟨by simp, ?_⟩
    intro k _ bound
    simp [Block.declarator?_nil, bound]

/-- The statements may stand behind others in their block, from position `first` on. -/
theorem Stmt.hoistedAll_sites : ∀ (stmts : List Stmt) (first : Nat) {block : Block},
    (∀ i s, stmts[i]? = some s → block.stmts[first + i]? = some s) →
      List.Forall₂ (fun site d => block.declarator? site = some d)
        (Stmt.sitesAll first stmts) (Stmt.hoistedAll stmts)
  | [], _, _, _ => .nil
  | s :: rest, first, block, placed => by
    refine List.rel_append ?_ (Stmt.hoistedAll_sites rest (first + 1) ?_)
    · rw [List.forall₂_map_left_iff]
      refine (Stmt.hoisted_sites s).imp ?_
      rintro site d ⟨body, isBody, there⟩
      have here : block.stmts[first]? = some s := placed 0 s rfl
      rw [Block.declarator?_under, here, Option.bind_some, isBody, Option.bind_some, there]
    · intro i t found
      have behind := placed (i + 1) t found
      rwa [Nat.add_assoc, Nat.add_comm 1]

theorem Stmt.hoisted_sites : ∀ s : Stmt, List.Forall₂
    (fun site d => ∃ body, s.body? = some body ∧ body.declarator? site = some d) s.sites s.hoisted
  | .block body => (Block.hoisted_sites body).imp fun _ _ found => ⟨body, rfl, found⟩
  | .expr _ => .nil
  | .ret _ => .nil

end

/-- Hoisting lists the declarators of all blocks, in the order they are written and each once. -/
theorem Block.declares_hoisted (block : Block) : block.Declares block.hoisted :=
  ⟨block.sites, block.sites_sorted, fun _ => block.mem_sites_iff, block.hoisted_sites⟩

/-- Nothing is hoisted exactly where no block declares anything. -/
lemma Block.hoisted_ne_nil_iff (block : Block) :
    block.hoisted ≠ [] ↔ ∃ site d, block.declarator? site = some d := by
  have count := block.hoisted_sites.length_eq
  constructor
  · intro some
    have sites : block.sites ≠ [] := by
      intro none
      rw [none] at count
      exact some (List.length_eq_zero_iff.mp count.symm)
    obtain ⟨site, member⟩ := List.exists_mem_of_ne_nil _ sites
    exact ⟨site, block.mem_sites_iff.mp member⟩
  · rintro ⟨site, found⟩ none
    have member := block.mem_sites_iff.mpr found
    rw [none, List.length_nil] at count
    rw [List.length_eq_zero_iff.mp count] at member
    cases member

end MiniC.Typed
