import MiniC.Event
import MiniC.Scope

/-!
# The state of a check

Checking carries a scope, the names emitted in the current function, and the events so far. The
state survives a fault: what was declared before it stays declared, in the scopes that are still
open, and the names it took stay taken.
-/

namespace MiniC

structure Check.State where
  scope : Scope
  taken : List String
  log : Array Event
  deriving DecidableEq, Repr

/-- A computation that may declare names, report events and stop at a fault. -/
abbrev Check := EStateM Fault Check.State

namespace Check

def State.initial : State := ⟨.empty, [], #[]⟩

def report (event : Event) : Check Unit :=
  modify fun s => { s with log := s.log.push event }

def scope : Check Scope :=
  return (← get).scope

def ofExcept {α : Type} : Except Fault α → Check α
  | .ok a => pure a
  | .error fault => throw fault

/-- Declares a name in the current scope and gives its emitted name. -/
def declare (name : String) (ty : Ty) (place : Location) : Check String := do
  let s ← get
  let (binding, scope) ← ofExcept (s.scope.declare s.taken name ty place)
  set { s with scope := scope, taken := binding.emitted :: s.taken }
  if binding.emitted ≠ name then
    report (.renamed name binding.emitted)
  return binding.emitted

/-- Runs a check in another scope and comes back to the current one afterwards, also from a
fault. -/
def inScope {α : Type} (inner : Scope) (x : Check α) : Check α := fun s =>
  match x { s with scope := inner, log := s.log.push (.forked inner.depth) } with
  | .ok a t => .ok a { t with scope := s.scope }
  | .error fault t => .error fault { t with scope := s.scope }

/-- Runs a check in a fork of the current scope. -/
def inFork {α : Type} (x : Check α) : Check α := do
  inScope (← scope).fork x

/-- Runs a check in a fork for the body of a function, where no name is taken at first. -/
def inFunction {α : Type} (result : Ty) (x : Check α) : Check α := fun s =>
  match inScope (s.scope.forFunction result) x { s with taken := [] } with
  | .ok a t => .ok a { t with taken := s.taken }
  | .error fault t => .error fault { t with taken := s.taken }

end Check

end MiniC
