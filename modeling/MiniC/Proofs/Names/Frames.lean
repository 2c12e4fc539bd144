import MiniC.Proofs.Scope.Declares

/-!
# Stacks of frames

What an identifier of the source stands for is decided by the blocks around it: the innermost one
that declares the name counts. A stack holds one frame for each open block, the innermost first, and
within a frame the latest declaration first. The same stacks carry types, places of declaration and
values, so resolution by nearest block is said once, and without scopes or emitted names.
-/

namespace MiniC

/-- Frames of named entries, the innermost first. -/
abbrev Frames (α : Type) := List (List (String × α))

namespace Frames

variable {α : Type}

/-- The entry of a name in the innermost frame that has one. -/
def nearest (frames : Frames α) (name : String) : Option α :=
  frames.findSome? (·.lookup name)

lemma nearest_cons (frame : List (String × α)) (frames : Frames α) (name : String) :
    nearest (frame :: frames) name = (frame.lookup name).or (nearest frames name) := by
  simp only [nearest, List.findSome?_cons]
  cases frame.lookup name <;> rfl

lemma nearest_singleton (frame : List (String × α)) (name : String) :
    nearest [frame] name = frame.lookup name := by
  rw [nearest_cons]
  exact Option.or_none

@[simp]
lemma nearest_nil_cons (frames : Frames α) (name : String) :
    nearest ([] :: frames) name = nearest frames name := by
  rw [nearest_cons]
  rfl

lemma lookup_cons_eq (key name : String) (value : α) (frame : List (String × α)) :
    ((key, value) :: frame).lookup name = if key = name then some value else frame.lookup name := by
  by_cases same : key = name
  · simp [same]
  · simp [List.lookup_cons, same, beq_eq_false_iff_ne.mpr (Ne.symm same)]

lemma nearest_push (key name : String) (value : α) (frame : List (String × α))
    (frames : Frames α) :
    nearest (((key, value) :: frame) :: frames) name =
      if key = name then some value else nearest (frame :: frames) name := by
  rw [nearest_cons, nearest_cons, lookup_cons_eq]
  by_cases same : key = name
  · simp [same]
  · simp [same]

/-- The entries of all frames, hidden ones included. -/
def entries (frames : Frames α) : List α :=
  frames.flatten.map (·.2)

lemma entries_cons (frame : List (String × α)) (frames : Frames α) :
    entries (frame :: frames) = frame.map (·.2) ++ entries frames := by
  simp [entries]

lemma mem_entries_of_nearest {frames : Frames α} {name : String} {value : α}
    (h : nearest frames name = some value) : value ∈ entries frames := by
  obtain ⟨frame, hframe, found⟩ := List.exists_of_findSome?_eq_some h
  obtain ⟨before, after, rfl, _⟩ := List.lookup_eq_some_iff.mp found
  exact List.mem_map.mpr ⟨(name, value), List.mem_flatten.mpr ⟨_, hframe, by simp⟩, rfl⟩

end Frames

end MiniC
