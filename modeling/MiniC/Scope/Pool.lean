import MiniC.Check.State

/-!
# Pools of scopes

A pool holds scopes by number. Scopes that come from one another by forking or copying share one set
of emitted names; a new scope and the scope of a function body start an empty set of their own. A
step on one scope can be seen in another only through the set they share.
-/

namespace MiniC

/-- A scope and the number of its set of emitted names. -/
structure Pool.Member where
  scope : Scope
  set : Nat
  deriving DecidableEq, Repr

structure Pool where
  members : List Pool.Member
  sets : List (List String)
  deriving DecidableEq, Repr

namespace Pool

/-- One empty scope. -/
def initial : Pool := ⟨[⟨.empty, 0⟩], [[]]⟩

/-- Adds a scope that shares a set. -/
def share (pool : Pool) (scope : Scope) (set : Nat) : Pool :=
  { pool with members := pool.members ++ [⟨scope, set⟩] }

/-- Adds a scope with a set of its own. -/
def isolate (pool : Pool) (scope : Scope) : Pool :=
  ⟨pool.members ++ [⟨scope, pool.sets.length⟩], pool.sets ++ [[]]⟩

def new (pool : Pool) : Pool :=
  pool.isolate .empty

def fork (pool : Pool) (m : Member) : Pool :=
  pool.share m.scope.fork m.set

def copy (pool : Pool) (m : Member) : Pool :=
  pool.share m.scope m.set

def forFunction (pool : Pool) (m : Member) (result : Ty) : Pool :=
  pool.isolate (m.scope.forFunction result)

/-- The names emitted by the scopes that share a set. -/
def taken (pool : Pool) (set : Nat) : List String :=
  pool.sets[set]?.getD []

/-- Puts the state that a check has reached into the place of a member. -/
def put (pool : Pool) (index : Nat) (m : Member) (s : Check.State) : Pool :=
  ⟨pool.members.set index ⟨s.scope, m.set⟩, pool.sets.set m.set s.taken⟩

/-- Runs a check in a member of the pool. What the check declares stays, also after a fault. -/
def run {α : Type} (pool : Pool) (index : Nat) (m : Member) (x : Check α) :
    Except Fault α × Pool :=
  match x ⟨m.scope, pool.taken m.set, #[]⟩ with
  | .ok a s => (.ok a, pool.put index m s)
  | .error fault s => (.error fault, pool.put index m s)

def declare (pool : Pool) (index : Nat) (m : Member) (name : String) (ty : Ty) (place : Location) :
    Except Fault String × Pool :=
  pool.run index m (Check.declare name ty place)

end Pool

end MiniC
