import MiniC.Proofs.Scope.Fresh

/-!
# Runs of declarations

`Declares` relates a scope and the names taken before a run of declarations to those after it. It
says all that such a run can do: each name is new in its frame, and its emitted name is fresh at
that moment. What holds of parameters, variables and functions alike is derived from it.
-/

namespace MiniC.Scope

/-- A scope with one more binding in its innermost frame. -/
def bind (scope : Scope) (b : Binding) : Scope :=
  { scope with frame := b :: scope.frame }

@[simp]
lemma bind_result (scope : Scope) (b : Binding) : (scope.bind b).result = scope.result := rfl

lemma local?_bind (scope : Scope) (b : Binding) (name : String) :
    (scope.bind b).local? name = if b.name = name then some b else scope.local? name := by
  by_cases same : b.name = name
  · simp [local?, bind, Frame.find?, same]
  · simp [local?, bind, Frame.find?, same]

lemma binding?_eq (scope : Scope) (name : String) :
    scope.binding? name = (scope.local? name).or (scope.outer.findSome? (·.find? name)) := by
  simp only [binding?, local?, List.findSome?_cons]
  cases scope.frame.find? name <;> rfl

lemma binding?_bind (scope : Scope) (b : Binding) (name : String) :
    (scope.bind b).binding? name = if b.name = name then some b else scope.binding? name := by
  rw [binding?_eq, binding?_eq, local?_bind]
  by_cases same : b.name = name
  · simp [same]
  · simp only [same, if_false, bind]

lemma binding?_fork (scope : Scope) (name : String) :
    scope.fork.binding? name = scope.binding? name := rfl

@[simp]
lemma fork_result (scope : Scope) : scope.fork.result = scope.result := rfl

lemma local?_fork (scope : Scope) (name : String) : scope.fork.local? name = none := rfl

lemma binding?_forFunction (scope : Scope) (result : Ty) (name : String) :
    (scope.forFunction result).binding? name = scope.binding? name :=
  binding?_fork scope name

lemma local?_forFunction (scope : Scope) (result : Ty) (name : String) :
    (scope.forFunction result).local? name = none := rfl

/-- Names that may be declared one after the other in the innermost frame. -/
def Free (scope : Scope) (names : List String) : Prop :=
  names.Nodup ∧ ∀ name ∈ names, scope.local? name = none

lemma free_nil (scope : Scope) : scope.Free [] := ⟨List.nodup_nil, by simp⟩

lemma free_cons_iff {scope : Scope} (b : Binding) {rest : List String} :
    scope.Free (b.name :: rest) ↔ scope.local? b.name = none ∧ (scope.bind b).Free rest := by
  simp only [Free, List.nodup_cons, List.forall_mem_cons, local?_bind]
  constructor
  · rintro ⟨⟨new, distinct⟩, here, later⟩
    refine ⟨here, distinct, ?_⟩
    intro name member
    have different : b.name ≠ name := by
      intro same
      exact new (same ▸ member)
    simpa [different] using later name member
  · rintro ⟨here, distinct, later⟩
    have apart : ∀ name ∈ rest, b.name ≠ name ∧ scope.local? name = none := by
      intro name member
      have free := later name member
      by_cases same : b.name = name
      · simp [same] at free
      · exact ⟨same, by simpa [same] using free⟩
    exact ⟨⟨fun member => (apart _ member).1 rfl, distinct⟩, here,
      fun name member => (apart name member).2⟩

lemma free_fork_iff {scope : Scope} {names : List String} :
    scope.fork.Free names ↔ names.Nodup := by
  simp [Free, local?_fork]

lemma free_forFunction_iff {scope : Scope} {result : Ty} {names : List String} :
    (scope.forFunction result).Free names ↔ names.Nodup := by
  simp [Free, local?_forFunction]

lemma free_append_iff {scope after : Scope} {first second : List String}
    (visible : ∀ name, after.local? name = none ↔ scope.local? name = none ∧ name ∉ first) :
    scope.Free (first ++ second) ↔ scope.Free first ∧ after.Free second := by
  simp only [Free, List.nodup_append, List.forall_mem_append, visible]
  constructor
  · rintro ⟨⟨d1, d2, apart⟩, f1, f2⟩
    exact ⟨⟨d1, f1⟩, d2, fun name h => ⟨f2 name h, fun h' => apart name h' name h rfl⟩⟩
  · rintro ⟨⟨d1, f1⟩, d2, f2⟩
    refine ⟨⟨d1, d2, ?_⟩, f1, fun name h => (f2 name h).1⟩
    intro a ha b hb same
    exact (f2 b hb).2 (same ▸ ha)

/-- Names that are pairwise different, not taken, and not the source name of a visible binding. -/
def Unused (scope : Scope) (taken names : List String) : Prop :=
  names.Nodup ∧ ∀ x ∈ names, x ∉ taken ∧ scope.binding? x = none

lemma unused_nil (scope : Scope) (taken : List String) : scope.Unused taken [] :=
  ⟨List.nodup_nil, by simp⟩

/-- Later names may be chosen in a scope where more is visible, after the first ones are taken. -/
lemma Unused.append {scope later : Scope} {taken first second : List String}
    (before : scope.Unused taken first) (after : later.Unused (first.reverse ++ taken) second)
    (visible : ∀ x, later.binding? x = none → scope.binding? x = none) :
    scope.Unused taken (first ++ second) := by
  refine ⟨List.nodup_append.mpr ⟨before.1, after.1, ?_⟩, ?_⟩
  · intro a ha b hb same
    have out := (after.2 b hb).1
    simp only [List.mem_append, List.mem_reverse, not_or] at out
    exact out.1 (same ▸ ha)
  · intro x hx
    rcases List.mem_append.mp hx with hx | hx
    · exact before.2 x hx
    · have out := (after.2 x hx).1
      simp only [List.mem_append, not_or] at out
      exact ⟨out.2, visible x (after.2 x hx).2⟩

lemma Unused.free {scope : Scope} {taken names : List String} (h : scope.Unused taken names) :
    scope.Free names := by
  refine ⟨h.1, fun name member => ?_⟩
  have hidden := (h.2 name member).2
  rw [binding?_eq, Option.or_eq_none_iff] at hidden
  exact hidden.1

lemma Unused.freshName_eq {scope : Scope} {taken rest : List String} {name : String}
    (h : scope.Unused taken (name :: rest)) : scope.freshName taken name = name := by
  obtain ⟨untaken, hidden⟩ := h.2 name List.mem_cons_self
  apply freshName_eq_self
  simp [isOccupied, untaken, hidden]

/-- After the first name is bound as it is, the others are still unused. -/
lemma Unused.bind {scope : Scope} {taken rest : List String} {b : Binding}
    (h : scope.Unused taken (b.name :: rest)) (kept : b.emitted = b.name) :
    (scope.bind b).Unused (b.emitted :: taken) rest := by
  obtain ⟨new, distinct⟩ := List.nodup_cons.mp h.1
  refine ⟨distinct, ?_⟩
  intro x member
  have other : b.name ≠ x := fun same => new (same ▸ member)
  obtain ⟨untaken, hidden⟩ := h.2 x (List.mem_cons_of_mem _ member)
  refine ⟨?_, ?_⟩
  · rw [kept, List.mem_cons, not_or]
    exact ⟨Ne.symm other, untaken⟩
  · rw [binding?_bind, if_neg other, hidden]

/-- Every visible name is emitted as it is. -/
def OwnNames (scope : Scope) : Prop :=
  ∀ name b, scope.binding? name = some b → b.emitted = name

/-- A run of declarations, with the bindings it makes in order. -/
inductive Declares : Scope → List String → List Binding → Scope → List String → Prop
  | nil {scope : Scope} {taken : List String} : Declares scope taken [] scope taken
  | cons {scope after : Scope} {taken takenAfter : List String} {b : Binding}
      {rest : List Binding} (new : scope.local? b.name = none)
      (fresh : scope.freshName taken b.name = b.emitted)
      (others : Declares (scope.bind b) (b.emitted :: taken) rest after takenAfter) :
      Declares scope taken (b :: rest) after takenAfter

namespace Declares

variable {scope middle after : Scope} {taken takenMiddle takenAfter : List String}
variable {first second bindings : List Binding}

lemma append (h : Declares scope taken first middle takenMiddle)
    (h' : Declares middle takenMiddle second after takenAfter) :
    Declares scope taken (first ++ second) after takenAfter := by
  induction h with
  | nil => exact h'
  | cons new fresh _ ih => exact .cons new fresh (ih h')

lemma result (h : Declares scope taken bindings after takenAfter) :
    after.result = scope.result := by
  induction h with
  | nil => rfl
  | cons _ _ _ ih => exact ih

lemma taken_eq (h : Declares scope taken bindings after takenAfter) :
    takenAfter = (bindings.map (·.emitted)).reverse ++ taken := by
  induction h with
  | nil => rfl
  | cons _ _ _ ih => simp [ih]

lemma free (h : Declares scope taken bindings after takenAfter) :
    scope.Free (bindings.map (·.name)) := by
  induction h with
  | nil => exact free_nil _
  | cons new _ _ ih => exact (free_cons_iff _).mpr ⟨new, ih⟩

/-- Nothing that was visible by name stops to be so. -/
lemma visible (h : Declares scope taken bindings after takenAfter) (name : String)
    (hidden : after.binding? name = none) : scope.binding? name = none := by
  induction h with
  | nil => exact hidden
  | cons _ _ _ ih =>
    have step := ih hidden
    rw [binding?_bind] at step
    split at step
    · cases step
    · exact step

lemma unused (h : Declares scope taken bindings after takenAfter) :
    scope.Unused taken (bindings.map (·.emitted)) := by
  induction h with
  | nil => exact unused_nil _ _
  | @cons scope after taken takenAfter b rest new fresh others ih =>
    have here : scope.Unused taken [b.emitted] := by
      refine ⟨List.nodup_singleton _, ?_⟩
      intro x hx
      rw [List.mem_singleton.mp hx, ← fresh]
      exact ⟨freshName_notMem scope taken b.name, binding?_freshName scope taken b.name⟩
    refine here.append ih ?_
    intro x hidden
    rw [binding?_bind] at hidden
    split at hidden
    · cases hidden
    · exact hidden

lemma local?_eq_none_iff (h : Declares scope taken bindings after takenAfter) (name : String) :
    after.local? name = none ↔ scope.local? name = none ∧ name ∉ bindings.map (·.name) := by
  induction h with
  | nil => simp
  | @cons scope after taken takenAfter b rest _ _ _ ih =>
    rw [ih, local?_bind]
    by_cases same : b.name = name
    · simp [same]
    · simp [same, Ne.symm same]

/-- The bindings of the run hide what was visible before. -/
lemma binding?_eq (h : Declares scope taken bindings after takenAfter) (name : String) :
    after.binding? name = (Frame.find? bindings.reverse name).or (scope.binding? name) := by
  induction h with
  | nil => rfl
  | @cons scope after taken takenAfter b rest _ _ _ ih =>
    rw [ih, binding?_bind, Frame.find?, Frame.find?, List.reverse_cons, List.find?_append,
      Option.or_assoc]
    by_cases same : b.name = name
    · simp [same]
    · simp [same]

lemma ownNames (h : Declares scope taken bindings after takenAfter) (own : scope.OwnNames)
    (kept : ∀ b ∈ bindings, b.emitted = b.name) : after.OwnNames := by
  intro name b found
  rw [h.binding?_eq, Option.or_eq_some_iff] at found
  rcases found with here | ⟨_, before⟩
  · have member := List.mem_reverse.mp (List.mem_of_find?_eq_some here)
    have same : b.name = name := by simpa using List.find?_some here
    exact (kept b member).trans same
  · exact own name b before

/-- Names that are unused before the run are emitted as they are, and what else was unused is so
after it. -/
lemma kept_of_unused (h : Declares scope taken bindings after takenAfter) {rest : List String}
    (unused : scope.Unused taken (bindings.map (·.name) ++ rest)) :
    (∀ b ∈ bindings, b.emitted = b.name) ∧ after.Unused takenAfter rest := by
  induction h with
  | nil => exact ⟨by simp, unused⟩
  | @cons scope after taken takenAfter b others new fresh _ ih =>
    have kept : b.emitted = b.name := fresh.symm.trans unused.freshName_eq
    obtain ⟨later, left⟩ := ih (unused.bind kept)
    exact ⟨List.forall_mem_cons.mpr ⟨kept, later⟩, left⟩

/-- Where all taken names are those of the only frame, names are emitted as they are. -/
lemma emitted_eq_name (h : Declares scope taken bindings after takenAfter)
    (single : scope.outer = []) (own : ∀ x ∈ taken, scope.local? x ≠ none) :
    ∀ b ∈ bindings, b.emitted = b.name := by
  obtain ⟨distinct, new⟩ := h.free
  have unused : scope.Unused taken (bindings.map (·.name)) := by
    refine ⟨distinct, fun x member => ⟨fun older => own x older (new x member), ?_⟩⟩
    rw [Scope.binding?_eq, new x member, single]
    rfl
  exact (h.kept_of_unused (by rwa [List.append_nil])).1

end Declares

end MiniC.Scope
