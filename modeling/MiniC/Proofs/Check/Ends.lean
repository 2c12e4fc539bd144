import MiniC.Proofs.Check.Run

/-!
# How a check ends

`Check.Ends` says of a run that it ends well in a state with some property, or with a fault that has
another one. A chain of steps keeps what its steps keep, so that the faults of a whole check are
found from those of its steps; the only step that looks at the scope is a declaration.
-/

namespace MiniC

/-- Every fault of a computation has a property. -/
def FailsWith {α : Type} (x : Except Fault α) (fails : Fault → Prop) : Prop :=
  ∀ fault, x = .error fault → fails fault

namespace FailsWith

variable {α β : Type} {fails : Fault → Prop}

lemma ok (a : α) : FailsWith (.ok a) fails := nofun

lemma error {fault : Fault} (h : fails fault) :
    FailsWith (.error fault : Except Fault α) fails := by
  rintro _ ⟨⟩
  exact h

lemma bind {x : Except Fault α} {f : α → Except Fault β} (first : FailsWith x fails)
    (next : ∀ a, FailsWith (f a) fails) : FailsWith (x >>= f) fails := by
  intro fault h
  obtain failed | ⟨a, _, failed⟩ := except_bind_error_iff.mp h
  · exact first fault failed
  · exact next a fault failed

/-- A step that throws under a condition and goes on otherwise. -/
lemma refuse {refused : Prop} [Decidable refused] {fault : Fault} {next : PUnit → Except Fault α}
    (h : fails fault) (go : FailsWith (next ⟨⟩) fails) :
    FailsWith (if refused then throw fault >>= next else next ⟨⟩) fails := by
  split
  · exact .error h
  · exact go

end FailsWith

namespace Check

/-- A run that ends well with a value and a state of some kind, or with a fault of another kind. -/
def Ends {α : Type} (x : Check α) (s : State) (after : α → State → Prop) (fails : Fault → Prop) :
    Prop :=
  match x s with
  | .ok a t => after a t
  | .error fault _ => fails fault

namespace Ends

variable {α β : Type} {s : State} {after : α → State → Prop} {fails : Fault → Prop}

lemma bind {x : Check α} {f : α → Check β} {after' : β → State → Prop}
    (first : Ends x s after fails)
    (next : ∀ a t, after a t → Ends (f a) t after' fails) : Ends (x >>= f) s after' fails := by
  simp only [Ends, Bind.bind, EStateM.bind] at first ⊢
  cases run : x s with
  | ok a t =>
    rw [run] at first
    exact next a t first
  | error fault t =>
    rw [run] at first
    exact first

lemma pure {a : α} (h : after a s) : Ends (pure a) s after fails := h

lemma throw {fault : Fault} (h : fails fault) : Ends (throw fault) s after fails := h

/-- The run that ended well is known, besides how. -/
lemma ran {x : Check α} (h : Ends x s after fails) :
    Ends x s (fun a t => x s = .ok a t ∧ after a t) fails := by
  unfold Ends at h ⊢
  cases run : x s with
  | ok a t =>
    rw [run] at h
    exact ⟨rfl, h⟩
  | error fault t =>
    rw [run] at h
    exact h

section Steps

variable {f : β → Check α}

lemma scope_bind {f : Scope → Check α} (next : Ends (f s.scope) s after fails) :
    Ends (Check.scope >>= f) s after fails :=
  next

lemma report_bind {event : Event} {f : Unit → Check α}
    (next : Ends (f ()) (s.logged event) after fails) :
    Ends (Check.report event >>= f) s after fails :=
  next

lemma ofExcept_bind {x : Except Fault β} (failed : FailsWith x fails)
    (next : ∀ b, x = .ok b → Ends (f b) s after fails) :
    Ends (Check.ofExcept x >>= f) s after fails := by
  cases x with
  | ok b => exact next b rfl
  | error fault => exact failed fault rfl

lemma declare_bind {name : String} {ty : Ty} {place : Location} {f : String → Check α}
    (new : s.scope.local? name = none → ∀ emitted, Ends (f emitted) (s.declared name ty place)
      after fails)
    (old : ∀ previous, s.scope.local? name = some previous →
      fails (.redefined name previous.place place)) :
    Ends (Check.declare name ty place >>= f) s after fails := by
  have first : Ends (Check.declare name ty place) s
      (fun _ t => s.scope.local? name = none ∧ t = s.declared name ty place) fails := by
    unfold Ends
    cases found : s.scope.local? name with
    | none =>
      rw [declare_ok_iff.mpr ⟨found, rfl, rfl⟩]
      exact ⟨rfl, rfl⟩
    | some previous =>
      rw [declare_of_local? found]
      exact old previous found
  refine bind first ?_
  rintro emitted _ ⟨found, rfl⟩
  exact new found emitted

end Steps

lemma inScope {inner : Scope} {x : Check α}
    (h : Ends x (s.entered inner) (fun a t => after a { t with scope := s.scope }) fails) :
    Ends (Check.inScope inner x) s after fails := by
  unfold Ends State.entered at h
  unfold Ends Check.inScope
  cases run : x { s with scope := inner, log := s.log.push (.forked inner.depth) } with
  | ok a t =>
    rw [run] at h
    exact h
  | error fault t =>
    rw [run] at h
    exact h

lemma inFork {x : Check α}
    (h : Ends x (s.entered s.scope.fork) (fun a t => after a { t with scope := s.scope }) fails) :
    Ends (Check.inFork x) s after fails := by
  have entered : Ends (Check.inScope s.scope.fork x) s after fails := inScope h
  exact entered

lemma inFunction {result : Ty} {x : Check α}
    (h : Ends x ({ s with taken := [] }.entered (s.scope.forFunction result))
      (fun a t => after a { t with scope := s.scope, taken := s.taken }) fails) :
    Ends (Check.inFunction result x) s after fails := by
  have entered : Ends (Check.inScope (s.scope.forFunction result) x) { s with taken := [] }
      (fun a t => after a { t with taken := s.taken }) fails := inScope h
  unfold Ends at entered
  unfold Ends Check.inFunction
  cases run : Check.inScope (s.scope.forFunction result) x { s with taken := [] } with
  | ok a t =>
    rw [run] at entered
    exact entered
  | error fault t =>
    rw [run] at entered
    exact entered

end Ends

end Check

end MiniC
