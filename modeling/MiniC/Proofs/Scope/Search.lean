import MiniC.Proofs.Check.Run
import Mathlib.Data.Finset.Card
import Mathlib.Order.Bounds.Basic

/-!
# The search for an emitted name

The choices for an emitted name are tried in order until one is free. `Search` is this loop with
nothing to bound it. It ends all the same: the choices are pairwise different, and each pass meets
another name that is taken or visible. The number of passes is the least number whose choice is
free, and the name that a declaration takes is this choice.
-/

namespace MiniC

namespace Scope

variable {scope : Scope} {taken : List String} {name : String}

/-- The names that stand for something in a scope. -/
def visible (scope : Scope) : Finset String :=
  scope.names.toFinset

lemma binding?_isSome_of_mem_names {x : String} (member : x ∈ scope.names) :
    (scope.binding? x).isSome = true := by
  obtain ⟨b, inside, rfl⟩ := List.mem_map.mp member
  obtain ⟨frame, listed, bound⟩ := List.mem_flatten.mp inside
  rw [binding?, List.findSome?_isSome_iff]
  refine ⟨frame, listed, ?_⟩
  rw [Frame.find?, List.find?_isSome]
  exact ⟨b, bound, by simp⟩

lemma mem_visible {x : String} : x ∈ scope.visible ↔ (scope.binding? x).isSome = true := by
  rw [visible, List.mem_toFinset]
  refine ⟨binding?_isSome_of_mem_names, fun found => ?_⟩
  obtain ⟨b, hb⟩ := Option.isSome_iff_exists.mp found
  exact mem_names_of_binding? hb

lemma isOccupied_eq_false_iff {x : String} :
    scope.isOccupied taken x = false ↔ x ∉ taken ∧ scope.binding? x = none := by
  simp [isOccupied]

lemma mem_union_of_isOccupied {x : String} (occupied : scope.isOccupied taken x = true) :
    x ∈ taken.toFinset ∪ scope.visible := by
  rw [isOccupied, Bool.or_eq_true, List.contains_iff_mem] at occupied
  rw [Finset.mem_union, List.mem_toFinset, mem_visible]
  exact occupied

/-- The loop from the choice with number `suffix` on: after how many passes it stops, and at which
name. A choice that is occupied makes room for the next number. -/
inductive Search (scope : Scope) (taken : List String) (name : String) :
    (suffix : Nat) → (choice : String) → (passes : Nat) → (chosen : String) → Prop
  | stop {suffix : Nat} {choice : String} (free : scope.isOccupied taken choice = false) :
      Search scope taken name suffix choice 0 choice
  | pass {suffix passes : Nat} {choice chosen : String}
      (occupied : scope.isOccupied taken choice = true)
      (rest : Search scope taken name (suffix + 1) (name ++ "$" ++ Decimal.ofNat (suffix + 1))
        passes chosen) :
      Search scope taken name suffix choice (passes + 1) chosen

/-- The loop passes over occupied choices and stops at a free one. -/
lemma search_of_occupied {suffix passes : Nat}
    (occupied : ∀ j < passes, scope.isOccupied taken (candidate name (suffix + j)) = true)
    (free : scope.isOccupied taken (candidate name (suffix + passes)) = false) :
    scope.Search taken name suffix (candidate name suffix) passes
      (candidate name (suffix + passes)) := by
  induction passes generalizing suffix with
  | zero => exact .stop free
  | succ passes ih =>
    have shift : ∀ j, suffix + (j + 1) = suffix + 1 + j := by omega
    rw [shift] at free ⊢
    -- The loop goes on from the candidate with the next number, by the definition of both.
    exact .pass (occupied 0 (Nat.succ_pos passes))
      (ih (fun j small => shift j ▸ occupied (j + 1) (Nat.succ_lt_succ small)) free)

/-- The loop has one run from each choice. -/
lemma Search.unique {suffix passes passes' : Nat} {choice chosen chosen' : String}
    (run : scope.Search taken name suffix choice passes chosen)
    (run' : scope.Search taken name suffix choice passes' chosen') :
    passes' = passes ∧ chosen' = chosen := by
  induction run generalizing passes' with
  | stop free =>
    cases run' with
    | stop _ => exact ⟨rfl, rfl⟩
    | pass occupied _ => exact absurd (occupied.symm.trans free) (by decide)
  | pass occupied _ ih =>
    cases run' with
    | stop free => exact absurd (occupied.symm.trans free) (by decide)
    | pass _ rest =>
      obtain ⟨same, there⟩ := ih rest
      exact ⟨congrArg (· + 1) same, there⟩

/-- Occupied choices are pairwise different names, all of them taken or visible. -/
lemma le_card_of_occupied {m : Nat}
    (occupied : ∀ j < m, scope.isOccupied taken (candidate name j) = true) :
    m ≤ taken.toFinset.card + scope.visible.card := by
  have inside : ∀ j ∈ Finset.range m, candidate name j ∈ taken.toFinset ∪ scope.visible :=
    fun j small => mem_union_of_isOccupied (occupied j (Finset.mem_range.mp small))
  calc m = (Finset.range m).card := (Finset.card_range m).symm
    _ ≤ (taken.toFinset ∪ scope.visible).card :=
      Finset.card_le_card_of_injOn (candidate name) inside (candidate_injective name).injOn
    _ ≤ taken.toFinset.card + scope.visible.card := Finset.card_union_le _ _

/-- The numbers whose choices are free. -/
def freeNumbers (scope : Scope) (taken : List String) (name : String) : Set Nat :=
  {k | candidate name k ∉ taken ∧ scope.binding? (candidate name k) = none}

/-- The fresh name is the choice at which the loop stops. There is one such choice, the loop gets to
it in no more passes than there are names in its way, and its number is the least free one. -/
theorem freshName_search (scope : Scope) (taken : List String) (name : String) :
    ∃ m, m ≤ taken.toFinset.card + scope.visible.card ∧
      (∀ passes chosen, scope.Search taken name 0 name passes chosen ↔
        passes = m ∧ chosen = candidate name m) ∧
      IsLeast (scope.freeNumbers taken name) m ∧
      scope.freshName taken name = candidate name m := by
  obtain ⟨m, chosen, free, before⟩ := freshName_first scope taken name
  have least : IsLeast (scope.freeNumbers taken name) m := by
    refine ⟨isOccupied_eq_false_iff.mp free, fun k hk => Nat.le_of_not_lt fun smaller => ?_⟩
    have unoccupied := isOccupied_eq_false_iff.mpr hk
    rw [before k smaller] at unoccupied
    cases unoccupied
  have run : scope.Search taken name 0 (candidate name 0) m (candidate name (0 + m)) :=
    search_of_occupied (by simpa using before) (by simpa using free)
  rw [Nat.zero_add] at run
  refine ⟨m, le_card_of_occupied before, fun passes other => ⟨run.unique, ?_⟩, least, chosen⟩
  rintro ⟨rfl, rfl⟩
  exact run

end Scope

namespace Check

variable {s : State} {name : String} {ty : Ty} {place : Location}

/-- The state after a name has been declared under its choice with number `m`: the binding, the name
that it takes, and a report where the name is another one. -/
def State.chose (s : State) (name : String) (ty : Ty) (place : Location) (m : Nat) : State :=
  let emitted := Scope.candidate name m
  { scope := s.scope.bind ⟨name, emitted, ty, place⟩
    taken := emitted :: s.taken
    log := if m = 0 then s.log else s.log.push (.renamed name emitted) }

lemma declare_of_new {m : Nat} (new : s.scope.local? name = none)
    (chosen : s.scope.freshName s.taken name = Scope.candidate name m) :
    declare name ty place s = .ok (Scope.candidate name m) (s.chose name ty place m) := by
  refine declare_ok_iff.mpr ⟨new, chosen, ?_⟩
  cases m with
  | zero =>
    have kept : s.scope.freshName s.taken name = name := chosen
    simp [State.declared, State.fresh, State.bound, State.chose, kept, Scope.candidate]
  | succ k =>
    have other : Scope.candidate name (k + 1) ≠ name :=
      fun same => Nat.succ_ne_zero k (Scope.candidate_injective name same)
    simp [State.declared, State.fresh, State.bound, State.logged, State.chose, chosen, other]

end Check

end MiniC
