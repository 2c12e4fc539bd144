import MiniC.Json.Value

/-!
# Parts of a JSON value

Items and fields of a value are smaller than the value. Readers of trees that go from a value to a
chosen field or item take it with this fact, and so end.
-/

namespace MiniC.Json

theorem sizeOf_fields_lt (fields : List (String × Json)) : sizeOf fields < sizeOf (obj fields) := by
  simp only [obj.sizeOf_spec]
  omega

theorem sizeOf_items_lt (items : List Json) : sizeOf items < sizeOf (arr items) := by
  simp only [arr.sizeOf_spec]
  omega

theorem sizeOf_tail_lt (v : Json) (items : List Json) :
    sizeOf items < sizeOf (arr (v :: items)) := by
  simp only [arr.sizeOf_spec, List.cons.sizeOf_spec]
  omega

/-- A value smaller than `whole`. -/
abbrev Part (whole : Json) := { v : Json // sizeOf v < sizeOf whole }

/-- Items that are together smaller than `whole`. -/
abbrev Items (whole : Json) := { items : List Json // sizeOf items < sizeOf whole }

variable {whole : Json}

/-- The last field with a key. -/
def fieldPart? (key : String) : (fields : List (String × Json)) → sizeOf fields < sizeOf whole →
    Option (Part whole)
  | [], _ => none
  | (k, v) :: rest, smaller =>
    match fieldPart? key rest (by simp only [List.cons.sizeOf_spec] at smaller; omega) with
    | some found => some found
    | none =>
      if k = key then
        some ⟨v, by simp only [List.cons.sizeOf_spec, Prod.mk.sizeOf_spec] at smaller; omega⟩
      else none

/-- The item at a position. -/
def itemPart? : (items : List Json) → sizeOf items < sizeOf whole → Nat → Option (Part whole)
  | [], _, _ => none
  | v :: _, smaller, 0 => some ⟨v, by simp only [List.cons.sizeOf_spec] at smaller; omega⟩
  | _ :: rest, smaller, n + 1 =>
    itemPart? rest (by simp only [List.cons.sizeOf_spec] at smaller; omega) n

/-- All items. -/
def itemParts : (items : List Json) → sizeOf items < sizeOf whole → List (Part whole)
  | [], _ => []
  | v :: rest, smaller =>
    ⟨v, by simp only [List.cons.sizeOf_spec] at smaller; omega⟩ ::
      itemParts rest (by simp only [List.cons.sizeOf_spec] at smaller; omega)

/-- The items of a part that is an array. -/
def Part.items? : Part whole → Option (Items whole)
  | ⟨.arr items, smaller⟩ => some ⟨items, Nat.lt_trans (sizeOf_items_lt items) smaller⟩
  | _ => none

theorem fieldPart?_eq_lookup (key : String) (fields : List (String × Json))
    (smaller : sizeOf fields < sizeOf whole) :
    (fieldPart? key fields smaller).map (·.1) = lookup key fields := by
  induction fields with
  | nil => rfl
  | cons field rest ih =>
    obtain ⟨k, v⟩ := field
    have below : sizeOf rest < sizeOf whole := by
      simp only [List.cons.sizeOf_spec] at smaller
      omega
    simp only [fieldPart?, lookup, ← ih below]
    cases fieldPart? key rest below with
    | none => by_cases same : k = key <;> simp [same]
    | some part => rfl

theorem itemPart?_eq_getElem? (items : List Json) (smaller : sizeOf items < sizeOf whole)
    (n : Nat) : (itemPart? items smaller n).map (·.1) = items[n]? := by
  induction items generalizing n with
  | nil => rfl
  | cons v rest ih =>
    cases n with
    | zero => rfl
    | succ n => exact ih _ n

theorem itemParts_eq (items : List Json) (smaller : sizeOf items < sizeOf whole) :
    (itemParts items smaller).map (·.1) = items := by
  induction items with
  | nil => rfl
  | cons v rest ih => exact congrArg (v :: ·) (ih _)

end MiniC.Json
