import MiniC.Proofs.Scope.Steps

/-!
# Visible bindings with one emitted name

A fresh name is not taken in its function, and it is not the source name of a visible binding. That
rules out the emitted names of visible bindings as long as each of them is taken in the function or
is a source name itself (`Scope.Covered`). A function starts with no names taken, so it must be
opened where every visible binding is emitted as it is; opened anywhere else, its first declaration
can hide a visible binding.
-/

namespace MiniC

namespace Scope

/-- Different names that are visible have different emitted names. -/
def Apart (scope : Scope) : Prop :=
  ∀ a b p q, scope.binding? a = some p → scope.binding? b = some q → a ≠ b → p.emitted ≠ q.emitted

/-- Every visible binding is emitted as it is or under a taken name. -/
def Covered (scope : Scope) (taken : List String) : Prop :=
  ∀ name b, scope.binding? name = some b → b.emitted = name ∨ b.emitted ∈ taken

/-- Every visible binding is emitted under one of the choices for its name. -/
def Chosen (scope : Scope) : Prop :=
  ∀ name b, scope.binding? name = some b → ∃ k, b.emitted = candidate name k

lemma OwnNames.apart {scope : Scope} (own : scope.OwnNames) : scope.Apart := by
  intro a b p q hp hq different
  rw [own a p hp, own b q hq]
  exact different

lemma Covered.mono {scope : Scope} {taken larger : List String} (h : scope.Covered taken)
    (le : ∀ x ∈ taken, x ∈ larger) : scope.Covered larger := by
  intro name b found
  exact (h name b found).imp_right (le _)

/-- A binding under a fresh name is apart from all that is visible. -/
lemma Covered.bind {scope : Scope} {taken : List String} {b : Binding}
    (covered : scope.Covered taken) (apart : scope.Apart)
    (fresh : b.emitted = scope.freshName taken b.name) :
    (scope.bind b).Covered (b.emitted :: taken) ∧ (scope.bind b).Apart := by
  have unlike : ∀ name q, scope.binding? name = some q → q.emitted ≠ b.emitted := by
    intro name q found same
    rcases covered name q found with own | old
    · have hidden := binding?_freshName scope taken b.name
      rw [← fresh, ← same, own, found] at hidden
      cases hidden
    · exact freshName_notMem scope taken b.name (by rwa [← fresh, ← same])
  refine ⟨?_, ?_⟩
  · intro name q found
    rw [binding?_bind] at found
    split at found
    · cases found
      exact .inr List.mem_cons_self
    · exact (covered name q found).imp_right (List.mem_cons_of_mem _)
  · intro x y p q hp hq different
    rw [binding?_bind] at hp hq
    split at hp
    · next here =>
      cases hp
      rw [if_neg (here ▸ different)] at hq
      exact (unlike y q hq).symm
    · split at hq
      · cases hq
        exact unlike x p hp
      · exact apart x y p q hp hq different

lemma Chosen.bind {scope : Scope} {taken : List String} {b : Binding} (chosen : scope.Chosen)
    (fresh : b.emitted = scope.freshName taken b.name) : (scope.bind b).Chosen := by
  intro name q found
  rw [binding?_bind] at found
  split at found
  · next here =>
    cases found
    obtain ⟨k, same, _⟩ := freshName_first scope taken b.name
    exact ⟨k, by rw [fresh, same, here]⟩
  · exact chosen name q found

lemma length_candidate {name : String} {k : Nat} (renamed : candidate name k ≠ name) :
    name.length < (candidate name k).length := by
  cases k with
  | zero => exact absurd rfl renamed
  | succ k =>
    have mark : "$".length = 1 := rfl
    rw [candidate, String.length_append, String.length_append, mark]
    omega

/-- A scope that shows a renamed binding, but no two bindings with one emitted name, shows a renamed
binding whose emitted name is no visible source name. Otherwise the emitted name of each renamed
binding would lead to another one with a longer name. -/
lemma Apart.exists_hidden {scope : Scope} (apart : scope.Apart) (chosen : scope.Chosen)
    (renamed : ¬ scope.OwnNames) :
    ∃ name b, scope.binding? name = some b ∧ b.emitted ≠ name ∧ scope.binding? b.emitted = none := by
  by_contra none
  have longer : ∀ n, ∃ name b, scope.binding? name = some b ∧ b.emitted ≠ name ∧
      n ≤ name.length := by
    intro n
    induction n with
    | zero =>
      simp only [OwnNames, not_forall] at renamed
      obtain ⟨name, b, found, other⟩ := renamed
      exact ⟨name, b, found, other, Nat.zero_le _⟩
    | succ n ih =>
      obtain ⟨name, b, found, other, long⟩ := ih
      cases next : scope.binding? b.emitted with
      | none => exact absurd ⟨name, b, found, other, next⟩ none
      | some c =>
        obtain ⟨k, same⟩ := chosen name b found
        have grown : name.length < b.emitted.length := by
          rw [same] at other ⊢
          exact length_candidate other
        exact ⟨b.emitted, c, next, (apart _ _ _ _ found next other.symm).symm, by omega⟩
  -- No visible name is longer than all of them written one after the other.
  obtain ⟨name, b, found, _, long⟩ := longer ((scope.names.map String.toList).flatten.length + 1)
  have listed := List.mem_map_of_mem (f := String.toList) (mem_names_of_binding? found)
  have bound := (List.sublist_flatten_of_mem listed).length_le
  rw [String.length_toList] at bound
  omega

end Scope

namespace Pool

/-- A step that opens a function does so where every visible binding is emitted as it is. -/
def Action.Plain (pool : Pool) : Action → Prop
  | .forFunction i _ => ∀ m, pool.members[i]? = some m → m.scope.OwnNames
  | _ => True

/-- A run in which functions are opened in scopes without renamed bindings only. -/
inductive PlainRun : Trace → Pool → Prop
  | start : PlainRun [] .initial
  | step {trace : Trace} {pool after : Pool} {action : Action} {answer : Answer}
      (before : PlainRun trace pool) (plain : action.Plain pool)
      (taken : pool.step? action = some (answer, after)) :
      PlainRun ((action, answer) :: trace) after

/-- No scope shows two bindings with one emitted name, and no fresh name of a scope can be the
emitted name of what it shows. -/
def Unmixed (pool : Pool) : Prop :=
  ∀ m ∈ pool.members, m.scope.Covered (pool.taken m.set) ∧ m.scope.Apart

lemma isolate_unmixed {pool : Pool} (h : pool.Unmixed) {scope : Scope} (own : scope.OwnNames) :
    (pool.isolate scope).Unmixed := by
  intro m member
  rw [taken_isolate]
  rcases List.mem_append.mp member with old | new
  · exact h m old
  · cases List.mem_singleton.mp new
    exact ⟨fun name b found => .inl (own name b found), own.apart⟩

lemma share_unmixed {pool : Pool} (h : pool.Unmixed) {scope : Scope} {source : Member}
    (inside : source ∈ pool.members)
    (shown : ∀ name, scope.binding? name = source.scope.binding? name) :
    (pool.share scope source.set).Unmixed := by
  obtain ⟨covered, apart⟩ := h source inside
  refine List.forall_mem_append.mpr ⟨h, List.forall_mem_singleton.mpr ⟨?_, ?_⟩⟩
  · intro name b found
    rw [shown] at found
    exact covered name b found
  · intro a b p q hp hq
    rw [shown] at hp hq
    exact apart a b p q hp hq

lemma bound_unmixed {pool : Pool} (h : pool.Unmixed) {i : Nat} {source : Member}
    (found : pool.members[i]? = some source) (bound : source.set < pool.sets.length)
    (name : String) (ty : Ty) (place : Location) :
    (pool.bound i source (pool.fresh source name ty place)).Unmixed := by
  intro m member
  have inside := List.mem_of_getElem? found
  rw [taken_bound _ bound]
  rcases List.mem_or_eq_of_mem_set member with old | rfl
  · obtain ⟨covered, apart⟩ := h m old
    refine ⟨?_, apart⟩
    split
    · exact covered.mono fun x inside => List.mem_cons_of_mem _ inside
    · exact covered
  · obtain ⟨covered, apart⟩ := h source inside
    rw [if_pos rfl]
    exact covered.bind apart rfl

lemma Step.unmixed {pool after : Pool} {action : Action} {answer : Answer}
    (h : Step pool action answer after) (plain : action.Plain pool) (numbered : pool.Numbered)
    (unmixed : pool.Unmixed) : after.Unmixed := by
  cases h with
  | new => exact isolate_unmixed unmixed fun name b found => by cases found
  | fork found =>
    exact share_unmixed unmixed (List.mem_of_getElem? found) (Scope.binding?_fork _)
  | copy found => exact share_unmixed unmixed (List.mem_of_getElem? found) fun _ => rfl
  | forFunction found => exact isolate_unmixed unmixed (plain _ found)
  | declared found _ =>
    exact bound_unmixed unmixed found (numbered _ (List.mem_of_getElem? found)) _ _ _
  | refused _ _ => exact unmixed

lemma PlainRun.run {trace : Trace} {pool : Pool} (h : PlainRun trace pool) : Run trace pool := by
  induction h with
  | start => exact .start
  | step _ _ taken ih => exact .step ih taken

theorem PlainRun.unmixed {trace : Trace} {pool : Pool} (h : PlainRun trace pool) :
    pool.Unmixed := by
  induction h with
  | start =>
    intro m member
    cases List.mem_singleton.mp member
    have own : Scope.empty.OwnNames := fun name b found => by cases found
    exact ⟨fun name b found => .inl (own name b found), own.apart⟩
  | step before plain taken ih =>
    exact (step?_eq_some_iff.mp taken).unmixed plain before.run.recorded.numbered ih

/-- Emitted names come from source names also where functions are opened anywhere. -/
theorem Run.chosen {trace : Trace} {pool : Pool} (run : Run trace pool) :
    ∀ m ∈ pool.members, m.scope.Chosen := by
  induction run with
  | start =>
    intro m member
    cases List.mem_singleton.mp member
    exact fun name b found => by cases found
  | @step trace pool after action answer before taken ih =>
    have added : ∀ scope set, scope.Chosen → ∀ m ∈ pool.members ++ [⟨scope, set⟩],
        m.scope.Chosen := by
      intro scope set chosen
      exact List.forall_mem_append.mpr ⟨ih, List.forall_mem_singleton.mpr chosen⟩
    cases step?_eq_some_iff.mp taken with
    | new => exact added _ _ fun name b found => by cases found
    | fork found => exact added _ _ (ih _ (List.mem_of_getElem? found))
    | copy found => exact added _ _ (ih _ (List.mem_of_getElem? found))
    | forFunction found => exact added _ _ (ih _ (List.mem_of_getElem? found))
    | declared found _ =>
      intro m member
      rcases List.mem_or_eq_of_mem_set member with old | rfl
      · exact ih m old
      · exact (ih _ (List.mem_of_getElem? found)).bind rfl
    | refused _ _ => exact ih

/-- Where a renamed binding is visible, a function can be opened in which two visible names have one
emitted name, after one declaration at most. -/
theorem Run.clash_of_renamed {trace : Trace} {pool : Pool} (run : Run trace pool) {i : Nat}
    {m : Member} (found : pool.members[i]? = some m) (renamed : ¬ m.scope.OwnNames) (result : Ty) :
    ∃ later after inner,
      Run (later ++ (.forFunction i result, .added pool.members.length) :: trace) after ∧
      later.length ≤ 1 ∧ after.members[pool.members.length]? = some inner ∧
      ¬ inner.scope.Apart := by
  have opened : Run ((.forFunction i result, _) :: trace) _ :=
    .step run (step?_eq_some_iff.mpr (.forFunction found))
  have inside := isolate_members_last pool (m.scope.forFunction result)
  by_cases apart : m.scope.Apart
  · obtain ⟨name, b, shown, other, hidden⟩ :=
      apart.exists_hidden (run.chosen m (List.mem_of_getElem? found)) renamed
    have declared : Run ((.declare _ b.emitted .int .unknown, _) :: _) _ :=
      .step opened (step?_eq_some_iff.mpr (.declared inside (Scope.local?_forFunction _ _ _)))
    refine ⟨[_], _, _, declared, Nat.le_refl 1, bound_members_self _ inside, ?_⟩
    intro distinct
    -- In the new function nothing is taken, so the hidden name is emitted as it is.
    have kept : (m.scope.forFunction result).freshName [] b.emitted = b.emitted := by
      apply Scope.freshName_eq_self
      rw [Scope.isOccupied, Scope.binding?_forFunction, hidden]
      rfl
    have taken : (pool.isolate (m.scope.forFunction result)).taken pool.sets.length = [] := by
      rw [taken_isolate]
      simp [Pool.taken]
    refine distinct name b.emitted b _ ?_ ((Scope.binding?_bind _ _ _).trans (if_pos rfl))
      other.symm ?_
    · exact (Scope.binding?_bind _ _ _).trans ((if_neg other).trans shown)
    · rw [fresh, taken, kept]
  · refine ⟨[], _, _, opened, Nat.zero_le 1, inside, ?_⟩
    intro distinct
    apply apart
    intro a b p q hp hq
    exact distinct a b p q hp hq

/-- Different names that are visible in a scope have different emitted names, if functions are opened
only where no renamed binding is visible. Nothing less will do: wherever a renamed binding is visible,
opening a function and at most one declaration in it lead to two visible names with one emitted
name. -/
theorem apart_exactly_where_plain (trace : Trace) (pool : Pool) :
    (PlainRun trace pool → ∀ m ∈ pool.members, m.scope.Apart) ∧
    (Run trace pool → ∀ i m, pool.members[i]? = some m → ¬ m.scope.OwnNames →
      ∀ result, ∃ later after inner,
        Run (later ++ (.forFunction i result, .added pool.members.length) :: trace) after ∧
        later.length ≤ 1 ∧ after.members[pool.members.length]? = some inner ∧
        ¬ inner.scope.Apart) :=
  ⟨fun run m member => (run.unmixed m member).2,
    fun run _ _ found renamed => run.clash_of_renamed found renamed⟩

/-- `x` is declared in a scope and in a fork of it, where it is renamed; a function inside the fork
declares the name that `x` got. -/
def Trace.hiding : Trace :=
  [(.declare 2 "x$1" .int .unknown, .declared "x$1"),
    (.forFunction 1 .int, .added 2),
    (.declare 1 "x" .int .unknown, .declared "x$1"),
    (.fork 0, .added 1),
    (.declare 0 "x" .int .unknown, .declared "x")]

/-- Two names are visible in the function under one emitted name. -/
theorem Run.hiding_not_apart :
    ∃ pool m p q, Run Trace.hiding pool ∧ m ∈ pool.members ∧
      m.scope.binding? "x" = some p ∧ m.scope.binding? "x$1" = some q ∧
      p.emitted = "x$1" ∧ q.emitted = "x$1" := by
  have run : Run Trace.hiding _ := .step (.step (.step (.step (.step .start rfl) rfl) rfl) rfl) rfl
  exact ⟨_, _, _, _, run, List.mem_of_getElem? (i := 2) rfl, rfl, rfl, rfl, rfl⟩

end Pool

end MiniC
