import MiniC.Fault
import MiniC.Ty

/-!
# Scopes

A scope is a chain of frames, the innermost apart, and a value like any other: what is declared in a
fork never reaches the scope it was made from, and what is declared there later never reaches the
fork. Every binding also has an emitted name. The names emitted so far are passed along by the user
of a scope, since several scopes share them.

Main definitions: `Scope.declare` binds a name in the innermost frame, `Scope.freshName` chooses its
emitted name, `Scope.resolve` finds the nearest binding.
-/

namespace MiniC

structure Binding where
  /-- The name in the source. -/
  name : String
  /-- The name in the emitted code. -/
  emitted : String
  ty : Ty
  place : Location
  deriving DecidableEq, Repr

abbrev Frame := List Binding

namespace Frame

def find? (frame : Frame) (name : String) : Option Binding :=
  List.find? (fun b => b.name = name) frame

end Frame

structure Scope where
  frame : Frame
  outer : List Frame
  /-- The type that a return in this scope must have; none outside of functions. -/
  result : Option Ty
  deriving DecidableEq, Repr

namespace Scope

def empty : Scope := ⟨[], [], none⟩

/-- A scope with one more frame, as yet without bindings. -/
def fork (scope : Scope) : Scope :=
  { scope with frame := [], outer := scope.frame :: scope.outer }

/-- A fork for the body of a function. -/
def forFunction (scope : Scope) (result : Ty) : Scope :=
  { scope.fork with result := some result }

/-- The number of frames. -/
def depth (scope : Scope) : Nat :=
  scope.outer.length + 1

/-- The binding of a name in the innermost frame. -/
def local? (scope : Scope) (name : String) : Option Binding :=
  scope.frame.find? name

/-- The nearest binding of a name. -/
def binding? (scope : Scope) (name : String) : Option Binding :=
  (scope.frame :: scope.outer).findSome? (·.find? name)

def resolve (scope : Scope) (name : String) (place : Location) : Except Fault Binding :=
  match scope.binding? name with
  | some b => .ok b
  | none => .error (.undefined name place)

/-- The number of bindings in all frames. -/
def size (scope : Scope) : Nat :=
  (scope.frame :: scope.outer).flatten.length

/-- The `k`-th choice for an emitted name: the name itself, then the name with a number. -/
def candidate (name : String) : Nat → String
  | 0 => name
  | k + 1 => name ++ "$" ++ Decimal.ofNat (k + 1)

/-- The first number from `k` on that is not occupied, looking at no more than `bound` of them. -/
def firstFree (occupied : Nat → Bool) : Nat → Nat → Nat
  | 0, k => k
  | bound + 1, k => if occupied k then firstFree occupied bound (k + 1) else k

/-- Whether a name is emitted already or would hide a visible binding. -/
def isOccupied (scope : Scope) (taken : List String) (name : String) : Bool :=
  taken.contains name || (scope.binding? name).isSome

/-- The first choice for an emitted name that is not occupied. There are at most as many occupied
names as there are names taken and bindings. -/
def freshName (scope : Scope) (taken : List String) (name : String) : String :=
  candidate name (firstFree (fun k => scope.isOccupied taken (candidate name k))
    (taken.length + scope.size) 0)

/-- Binds a name in the innermost frame, which must not have it yet; other frames may. -/
def declare (scope : Scope) (taken : List String) (name : String) (ty : Ty) (place : Location) :
    Except Fault (Binding × Scope) :=
  match scope.local? name with
  | some previous => .error (.redefined name previous.place place)
  | none =>
    let binding := ⟨name, scope.freshName taken name, ty, place⟩
    .ok (binding, { scope with frame := binding :: scope.frame })

end Scope

end MiniC
