import MiniC.Json.Value
import Mathlib.Tactic.Common

/-!
# Paths into a value

A path leads from a value to one of its parts, step by step. A part can be changed in place or
replaced by another value; whatever is not on the path stays as it was.
-/

namespace MiniC.Json

/-- A step from a value to the last field with a key, or to an item. -/
inductive Step where
  | field (key : String)
  | item (index : Nat)
  deriving DecidableEq, Repr

abbrev Path := List Step

/-- Changes the last field with a key. -/
def updateField (key : String) (f : Json → Json) : List (String × Json) → List (String × Json)
  | [] => []
  | (k, v) :: rest =>
    if (lookup key rest).isSome then (k, v) :: updateField key f rest
    else if k = key then (k, f v) :: rest
    else (k, v) :: rest

/-- Changes the part that a step leads to, if there is one. -/
def update : Step → (Json → Json) → Json → Json
  | .field key, f, .obj fields => .obj (updateField key f fields)
  | .item index, f, .arr items => .arr (items.modify index f)
  | _, _, v => v

/-- Changes the part at the end of a path. -/
def updateAt : Path → (Json → Json) → Json → Json
  | [], f => f
  | step :: rest, f => update step (updateAt rest f)

/-- The value with `new` at the end of a path. -/
def replace (v : Json) (path : Path) (new : Json) : Json :=
  updateAt path (fun _ => new) v

variable {key : String} {f : Json → Json} {fields : List (String × Json)}

lemma lookup_updateField_self :
    lookup key (updateField key f fields) = (lookup key fields).map f := by
  induction fields with
  | nil => rfl
  | cons field rest ih =>
    obtain ⟨k, v⟩ := field
    rw [updateField, lookup]
    cases found : lookup key rest with
    | some w => simp [lookup, ih, found]
    | none => by_cases same : k = key <;> simp [lookup, found, same]

lemma lookup_updateField_of_ne {other : String} (different : other ≠ key) :
    lookup other (updateField key f fields) = lookup other fields := by
  induction fields with
  | nil => rfl
  | cons field rest ih =>
    obtain ⟨k, v⟩ := field
    rw [updateField]
    split
    · rw [lookup, lookup, ih]
    · split
      · next same =>
        subst same
        simp [lookup, different.symm]
      · rfl

lemma updateAt_append (first rest : Path) (f : Json → Json) (v : Json) :
    updateAt (first ++ rest) f v = updateAt first (updateAt rest f) v := by
  induction first generalizing v with
  | nil => rfl
  | cons step first ih =>
    have same : updateAt (first ++ rest) f = updateAt first (updateAt rest f) := funext ih
    rw [List.cons_append, updateAt, updateAt, same]

lemma update_ne_null {v : Json} (present : v ≠ .null) (step : Step) (f : Json → Json) :
    update step f v ≠ .null := by
  cases step <;> cases v <;> simp_all [update]

lemma replace_ne_null {v new : Json} (present : v ≠ .null) (path : Path) (new_ne : new ≠ .null) :
    v.replace path new ≠ .null := by
  cases path with
  | nil => exact new_ne
  | cons step rest => exact update_ne_null present step _

end MiniC.Json
