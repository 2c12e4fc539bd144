import MiniC.Check.Module
import MiniC.Proofs.Scope.Declares

/-!
# Successful runs of a check

For each step of a check, what it means that the step succeeds: which state it leaves and which
value it gives. The statements are equivalences, so that they serve both to take a run apart and to
put one together. Events are part of the state and are carried along; nothing depends on them.
-/

namespace MiniC

lemma except_bind_ok_iff {ε α β : Type} {x : Except ε α} {f : α → Except ε β} {b : β} :
    (x >>= f) = .ok b ↔ ∃ a, x = .ok a ∧ f a = .ok b := by
  cases x with
  | error fault => simp [bind, Except.bind]
  | ok a => simp [bind, Except.bind]

lemma except_bind_error_iff {ε α β : Type} {x : Except ε α} {f : α → Except ε β} {e : ε} :
    (x >>= f) = .error e ↔ x = .error e ∨ ∃ a, x = .ok a ∧ f a = .error e := by
  cases x with
  | error fault => simp [bind, Except.bind]
  | ok a => simp [bind, Except.bind]

lemma except_map_error_iff {ε α β : Type} {f : α → β} {x : Except ε α} {e : ε} :
    f <$> x = .error e ↔ x = .error e := by
  cases x <;> simp

lemma exists_ok_of_isOk {ε α : Type} {result : Except ε α} (h : result.isOk) :
    ∃ a, result = .ok a := by
  cases result with
  | ok a => exact ⟨a, rfl⟩
  | error e => cases h

namespace Check

variable {α β : Type} {s t : State}

lemma bind_ok_iff {x : Check α} {f : α → Check β} {b : β} :
    (x >>= f) s = .ok b t ↔ ∃ a r, x s = .ok a r ∧ f a r = .ok b t := by
  simp only [bind, EStateM.bind]
  cases x s with
  | ok a r => simp
  | error fault r => simp

lemma pure_ok_iff {a b : α} : (pure a : Check α) s = .ok b t ↔ a = b ∧ s = t := by
  simp [pure, EStateM.pure]

lemma throw_ok_iff {fault : Fault} {a : α} : (throw fault : Check α) s = .ok a t ↔ False := by
  constructor
  · intro h
    cases h
  · exact False.elim

lemma ofExcept_ok_iff {x : Except Fault α} {a : α} :
    ofExcept x s = .ok a t ↔ x = .ok a ∧ s = t := by
  cases x with
  | ok b => simp [ofExcept, pure_ok_iff]
  | error fault => simp [ofExcept, throw_ok_iff]

lemma get_ok_iff {r : State} : (get : Check State) s = .ok r t ↔ s = r ∧ s = t := by
  constructor
  · intro h
    cases h
    exact ⟨rfl, rfl⟩
  · rintro ⟨rfl, rfl⟩
    rfl

lemma set_ok_iff {r : State} {u : PUnit} : (set r : Check PUnit) s = .ok u t ↔ r = t := by
  constructor
  · intro h
    cases h
    rfl
  · rintro rfl
    rfl

lemma scope_ok_iff {scope : Scope} : Check.scope s = .ok scope t ↔ s.scope = scope ∧ s = t := by
  simp only [Check.scope, bind_ok_iff, get_ok_iff, pure_ok_iff]
  constructor
  · rintro ⟨r, r', ⟨rfl, rfl⟩, hr⟩
    exact hr
  · intro h
    exact ⟨s, s, ⟨rfl, rfl⟩, h⟩

/-- The state after an event. -/
def State.logged (s : State) (event : Event) : State :=
  { s with log := s.log.push event }

lemma report_ok_iff {event : Event} {u : Unit} :
    report event s = .ok u t ↔ s.logged event = t := by
  constructor
  · intro h
    cases h
    rfl
  · rintro rfl
    rfl

@[simp]
lemma State.logged_scope (event : Event) : (s.logged event).scope = s.scope := rfl

@[simp]
lemma State.logged_taken (event : Event) : (s.logged event).taken = s.taken := rfl

/-- The binding that a declaration makes. -/
def State.fresh (s : State) (name : String) (ty : Ty) (place : Location) : Binding :=
  ⟨name, s.scope.freshName s.taken name, ty, place⟩

/-- The state after a declaration, its event apart. -/
def State.bound (s : State) (binding : Binding) : State :=
  { s with
    scope := s.scope.bind binding
    taken := binding.emitted :: s.taken }

/-- The state after a declaration. -/
def State.declared (s : State) (name : String) (ty : Ty) (place : Location) : State :=
  let binding := s.fresh name ty place
  if binding.emitted ≠ name then (s.bound binding).logged (.renamed name binding.emitted)
  else s.bound binding

@[simp]
lemma State.declared_scope (name : String) (ty : Ty) (place : Location) :
    (s.declared name ty place).scope = s.scope.bind (s.fresh name ty place) := by
  simp only [declared]
  split <;> rfl

@[simp]
lemma State.declared_taken (name : String) (ty : Ty) (place : Location) :
    (s.declared name ty place).taken = s.scope.freshName s.taken name :: s.taken := by
  simp only [declared]
  split <;> rfl

lemma declare_ok_iff {name emitted : String} {ty : Ty} {place : Location} :
    declare name ty place s = .ok emitted t ↔
      s.scope.local? name = none ∧ s.scope.freshName s.taken name = emitted ∧
        s.declared name ty place = t := by
  have opened : declare name ty place s = .ok emitted t ↔ ∃ bound : Binding × Scope,
      s.scope.declare s.taken name ty place = .ok bound ∧
        (do if bound.1.emitted ≠ name then report (.renamed name bound.1.emitted)
            return bound.1.emitted : Check String)
          { s with scope := bound.2, taken := bound.1.emitted :: s.taken } = .ok emitted t := by
    simp [declare, bind_ok_iff, get_ok_iff, ofExcept_ok_iff, set_ok_iff, -bind_pure_comp]
  rw [opened, Scope.declare]
  cases found : s.scope.local? name with
  | some previous => simp
  | none =>
    by_cases kept : s.scope.freshName s.taken name = name
    · simp [kept, pure_ok_iff, State.declared, State.fresh, State.bound, Scope.bind]
    · simp [kept, bind_ok_iff, report_ok_iff, pure_ok_iff, State.declared, State.fresh,
        State.bound, Scope.bind, -bind_pure_comp]

/-- A name that its frame has already is refused, and nothing changes. -/
lemma declare_of_local? {name : String} {ty : Ty} {place : Location} {previous : Binding}
    (found : s.scope.local? name = some previous) :
    declare name ty place s = .error (.redefined name previous.place place) s := by
  have refused : s.scope.declare s.taken name ty place =
      .error (.redefined name previous.place place) := by
    rw [Scope.declare, found]
  change (ofExcept (s.scope.declare s.taken name ty place) >>= _) s = _
  rw [refused]
  rfl

/-- The state in which a check runs that is moved to another scope. -/
def State.entered (s : State) (inner : Scope) : State :=
  { s with scope := inner, log := s.log.push (.forked inner.depth) }

lemma inScope_ok_iff {inner : Scope} {x : Check α} {a : α} :
    inScope inner x s = .ok a t ↔
      ∃ r, x (s.entered inner) = .ok a r ∧ { r with scope := s.scope } = t := by
  simp only [inScope, State.entered]
  cases x { s with scope := inner, log := s.log.push (.forked inner.depth) } with
  | ok b r => simp
  | error fault r => simp

lemma inFork_ok_iff {x : Check α} {a : α} :
    inFork x s = .ok a t ↔
      ∃ r, x (s.entered s.scope.fork) = .ok a r ∧ { r with scope := s.scope } = t := by
  simp [inFork, bind_ok_iff, scope_ok_iff, inScope_ok_iff]

lemma inFunction_ok_iff {result : Ty} {x : Check α} {a : α} :
    inFunction result x s = .ok a t ↔
      ∃ r, x ({ s with taken := [] }.entered (s.scope.forFunction result)) = .ok a r ∧
        { r with scope := s.scope, taken := s.taken } = t := by
  let inner := s.scope.forFunction result
  simp only [inFunction, inScope, State.entered]
  cases x { scope := inner, taken := [], log := s.log.push (.forked inner.depth) } with
  | ok b r => simp
  | error fault r => simp

end Check

end MiniC
