import MiniC.Scope
import Mathlib.Data.List.Perm.Subperm
import Mathlib.Data.List.Nodup
import Mathlib.Tactic.Common

/-!
# Fresh emitted names

The choices for an emitted name are pairwise different, and fewer names are occupied than there are
choices looked at. So the chosen name is neither emitted yet nor the source name of a visible
binding. It is the first choice of that kind, so a free source name stays as it is.
-/

namespace MiniC

lemma Decimal.ofNat_injective {m n : Nat} (h : Decimal.ofNat m = Decimal.ofNat n) : m = n := by
  have digits : Nat.toDigits 10 m = Nat.toDigits 10 n := String.ofList_injective h
  have back := congrArg (fun cs => Nat.ofDigitChars 10 cs 0) digits
  simpa only [Nat.ofDigitChars_ten_toDigits] using back

namespace Scope

lemma candidate_injective (name : String) : Function.Injective (candidate name) := by
  intro j k h
  have lists := congrArg String.toList h
  cases j with
  | zero =>
    cases k with
    | zero => rfl
    | succ k => simp [candidate] at lists
  | succ j =>
    cases k with
    | zero => simp [candidate] at lists
    | succ k =>
      simp only [candidate, String.toList_append, List.append_cancel_left_eq,
        String.toList_inj] at lists
      exact Decimal.ofNat_injective lists

lemma occupied_of_lt_firstFree (occupied : Nat → Bool) (bound k j : Nat) (low : k ≤ j)
    (high : j < firstFree occupied bound k) : occupied j = true := by
  induction bound generalizing k with
  | zero => simp only [firstFree] at high; omega
  | succ bound ih =>
    by_cases hk : occupied k = true
    · rw [firstFree, if_pos hk] at high
      by_cases same : j = k
      · exact same ▸ hk
      · exact ih (k + 1) (by omega) high
    · rw [firstFree, if_neg hk] at high
      omega

lemma firstFree_free_or (occupied : Nat → Bool) (bound k : Nat) :
    occupied (firstFree occupied bound k) = false ∨ firstFree occupied bound k = k + bound := by
  induction bound generalizing k with
  | zero => exact Or.inr rfl
  | succ bound ih =>
    by_cases hk : occupied k = true
    · rw [firstFree, if_pos hk]
      rcases ih (k + 1) with free | last
      · exact Or.inl free
      · exact Or.inr (by omega)
    · rw [firstFree, if_neg hk]
      exact Or.inl (Bool.eq_false_iff.mpr hk)

/-- The names of all bindings, hidden ones included. -/
def names (scope : Scope) : List String :=
  (scope.frame :: scope.outer).flatten.map (·.name)

lemma mem_names_of_binding? {scope : Scope} {name : String} {b : Binding}
    (h : scope.binding? name = some b) : name ∈ scope.names := by
  obtain ⟨frame, hframe, hb⟩ := List.exists_of_findSome?_eq_some h
  have found := List.find?_some hb
  have member := List.mem_of_find?_eq_some hb
  simp only [decide_eq_true_eq] at found
  exact List.mem_map.mpr ⟨b, List.mem_flatten.mpr ⟨frame, hframe, member⟩, found⟩

lemma mem_of_isOccupied {scope : Scope} {taken : List String} {name : String}
    (h : scope.isOccupied taken name = true) : name ∈ taken ++ scope.names := by
  rw [isOccupied, Bool.or_eq_true] at h
  rcases h with emitted | visible
  · exact List.mem_append_left _ (by simpa using emitted)
  · obtain ⟨b, hb⟩ := Option.isSome_iff_exists.mp visible
    exact List.mem_append_right _ (mem_names_of_binding? hb)

/-- The choice that is made is free: were all choices up to the bound occupied, there would be more
of them than occupied names. -/
lemma isOccupied_freshName (scope : Scope) (taken : List String) (name : String) :
    scope.isOccupied taken (scope.freshName taken name) = false := by
  let occupied := fun k => scope.isOccupied taken (candidate name k)
  let bound := taken.length + scope.size
  change occupied (firstFree occupied bound 0) = false
  rcases firstFree_free_or occupied bound 0 with free | last
  · exact free
  rw [Nat.zero_add] at last
  by_contra full
  have all : ∀ j ∈ List.range (bound + 1), occupied j = true := by
    intro j hj
    rw [List.mem_range] at hj
    by_cases here : j = bound
    · rw [here, ← last]
      simpa using full
    · exact occupied_of_lt_firstFree occupied bound 0 j (Nat.zero_le j) (by omega)
  have distinct : ((List.range (bound + 1)).map (candidate name)).Nodup :=
    List.nodup_range.map (candidate_injective name)
  have inside : (List.range (bound + 1)).map (candidate name) ⊆ taken ++ scope.names := by
    intro x hx
    obtain ⟨j, hj, rfl⟩ := List.mem_map.mp hx
    exact mem_of_isOccupied (all j hj)
  have count := (distinct.subperm inside).length_le
  simp only [List.length_map, List.length_range, List.length_append, names, bound, size] at count
  omega

lemma freshName_notMem (scope : Scope) (taken : List String) (name : String) :
    scope.freshName taken name ∉ taken := by
  have free := isOccupied_freshName scope taken name
  rw [isOccupied, Bool.or_eq_false_iff] at free
  simpa using free.1

lemma binding?_freshName (scope : Scope) (taken : List String) (name : String) :
    scope.binding? (scope.freshName taken name) = none := by
  have free := isOccupied_freshName scope taken name
  rw [isOccupied, Bool.or_eq_false_iff] at free
  simpa using free.2

/-- The chosen name is the first of the choices that is free. -/
lemma freshName_first (scope : Scope) (taken : List String) (name : String) :
    ∃ k, scope.freshName taken name = candidate name k ∧
      scope.isOccupied taken (candidate name k) = false ∧
      ∀ j < k, scope.isOccupied taken (candidate name j) = true :=
  ⟨_, rfl, isOccupied_freshName scope taken name,
    fun j small => occupied_of_lt_firstFree _ _ 0 j (Nat.zero_le j) small⟩

/-- Where the same names are occupied, the same name is chosen. -/
lemma freshName_congr {scope other : Scope} {taken : List String}
    (same : ∀ x, scope.isOccupied taken x = other.isOccupied taken x) (name : String) :
    scope.freshName taken name = other.freshName taken name := by
  obtain ⟨j, chosen, free, before⟩ := freshName_first scope taken name
  obtain ⟨k, chosen', free', before'⟩ := freshName_first other taken name
  rcases Nat.lt_trichotomy j k with less | equal | greater
  · have occupied := before' j less
    rw [← same, free] at occupied
    cases occupied
  · rw [chosen, chosen', equal]
  · have occupied := before k greater
    rw [same, free'] at occupied
    cases occupied

/-- A name that is free itself is emitted as it is. -/
lemma freshName_eq_self {scope : Scope} {taken : List String} {name : String}
    (free : scope.isOccupied taken name = false) : scope.freshName taken name = name := by
  have stop : ∀ bound,
      firstFree (fun k => scope.isOccupied taken (candidate name k)) bound 0 = 0 := by
    intro bound
    cases bound with
    | zero => rfl
    | succ bound => simp [firstFree, candidate, free]
  rw [freshName, stop]
  rfl

end Scope

end MiniC
