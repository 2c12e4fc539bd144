import MiniC.Proofs.Meaning.Blocks
import MiniC.Proofs.Meaning.Flat
import MiniC.Proofs.Names.Hoisting

/-!
# Frames and environments that hold the same numbers

A run of a source function has a stack of frames, the run of its emitted form one environment. They
hold the same numbers when the variable of each visible site is congruent to the word in the frame:
sums are exact in one run and wrap around in the other. Sites that are declared further on still
hold the values they start with, because a block is entered at most once in a call.
-/

namespace MiniC

open Estree (Env)

variable {names : Nat → String} {env env' : Env}

/-- The variable of a site holds an integer that is congruent to a word. -/
def Stores (names : Nat → String) (env : Env) (site : Nat) (w : Int32) : Prop :=
  ∃ t, env (names site) = some t ∧ Int32.ofInt t = w

/-- The variables of the sites of a frame hold the words of the frame. -/
abbrev FrameStores (names : Nat → String) (env : Env) :
    List (String × Nat) → List (String × Int32) → Prop :=
  List.Forall₂ fun site entry => site.1 = entry.1 ∧ Stores names env site.2 entry.2

/-! ## Reading -/

lemma FrameStores.lookup {sites : List (String × Nat)} {frame : List (String × Int32)}
    (h : FrameStores names env sites frame) (name : String) :
    Option.Rel (Stores names env) (sites.lookup name) (frame.lookup name) := by
  induction h with
  | nil => exact .none
  | @cons site entry _ _ first _ ih =>
    obtain ⟨key, stored⟩ := first
    rw [Frames.lookup_cons_eq site.1, Frames.lookup_cons_eq entry.1, ← key]
    by_cases same : site.1 = name
    · rw [if_pos same, if_pos same]
      exact .some stored
    · rw [if_neg same, if_neg same]
      exact ih

lemma nearest_stores {sites : Frames Nat} {frames : Frames Int32}
    (h : List.Forall₂ (FrameStores names env) sites frames) (name : String) :
    Option.Rel (Stores names env) (sites.nearest name) (frames.nearest name) := by
  induction h with
  | nil => exact .none
  | @cons site frame _ _ first _ ih =>
    rw [Frames.nearest_cons, Frames.nearest_cons]
    have here := FrameStores.lookup first name
    generalize site.lookup name = visible, frame.lookup name = entry at here
    cases here with
    | some stored => exact .some stored
    | none => exact ih

/-! ## Writing -/

lemma mem_of_lookup {sites : List (String × Nat)} {name : String} {site : Nat}
    (found : sites.lookup name = some site) : site ∈ sites.map (·.2) := by
  obtain ⟨before, after, rfl, _⟩ := List.lookup_eq_some_iff.mp found
  simp

lemma FrameStores.keep {sites : List (String × Nat)} {frame : List (String × Int32)}
    (h : FrameStores names env sites frame)
    (keeps : ∀ site ∈ sites.map (·.2), ∀ w, Stores names env site w → Stores names env' site w) :
    FrameStores names env' sites frame := by
  induction h with
  | nil => exact .nil
  | cons first _ ih =>
    rw [List.map_cons, List.forall_mem_cons] at keeps
    exact .cons ⟨first.1, keeps.1 _ first.2⟩ (ih keeps.2)

lemma forall₂_frameStores_keep {sites : Frames Nat} {frames : Frames Int32}
    (h : List.Forall₂ (FrameStores names env) sites frames)
    (keeps : ∀ site ∈ sites.entries, ∀ w, Stores names env site w → Stores names env' site w) :
    List.Forall₂ (FrameStores names env') sites frames := by
  induction h with
  | nil => exact .nil
  | cons first _ ih =>
    rw [Frames.entries_cons, List.forall_mem_append] at keeps
    exact .cons (FrameStores.keep first keeps.1) (ih keeps.2)

lemma FrameStores.writeFrame_none {sites : List (String × Nat)} {frame : List (String × Int32)}
    (h : FrameStores names env sites frame) {name : String} (w : Int32)
    (absent : sites.lookup name = none) : writeFrame name w frame = none := by
  induction h with
  | nil => rfl
  | @cons site entry _ _ first _ ih =>
    rw [Frames.lookup_cons_eq site.1] at absent
    have differs : site.1 ≠ name := by
      intro same
      simp [same] at absent
    rw [if_neg differs] at absent
    have key : entry.1 ≠ name := first.1 ▸ differs
    simp [writeFrame, key, ih absent]

/-- Writing to the entry of a site, when all other sites keep what they store. -/
lemma FrameStores.writeFrame {sites : List (String × Nat)} {frame : List (String × Int32)}
    (h : FrameStores names env sites frame) {name : String} {target : Nat} {w : Int32}
    (found : sites.lookup name = some target) (unshared : (sites.map (·.2)).Nodup)
    (keeps : ∀ site ∈ sites.map (·.2), site ≠ target →
      ∀ v, Stores names env site v → Stores names env' site v)
    (stored : Stores names env' target w) :
    ∃ written, writeFrame name w frame = some written ∧ FrameStores names env' sites written := by
  induction h with
  | nil => cases found
  | @cons site entry sites frame first others ih =>
    rw [List.map_cons, List.nodup_cons] at unshared
    rw [List.map_cons, List.forall_mem_cons] at keeps
    rw [Frames.lookup_cons_eq site.1] at found
    by_cases same : site.1 = name
    · rw [if_pos same] at found
      cases found
      refine ⟨(entry.1, w) :: frame, by simp [MiniC.writeFrame, ← first.1, same], ?_⟩
      refine .cons ⟨first.1, stored⟩ (FrameStores.keep others fun other member => ?_)
      exact keeps.2 other member fun equal => unshared.1 (equal ▸ member)
    · rw [if_neg same] at found
      obtain ⟨written, wrote, rest⟩ := ih found unshared.2 keeps.2
      have key : entry.1 ≠ name := first.1 ▸ same
      have differs : site.2 ≠ target := by
        rintro rfl
        exact unshared.1 (mem_of_lookup found)
      exact ⟨entry :: written, by simp [MiniC.writeFrame, key, wrote],
        .cons ⟨first.1, keeps.1 differs _ first.2⟩ rest⟩

lemma Frames.write_none {sites : Frames Nat} {frames : Frames Int32}
    (h : List.Forall₂ (FrameStores names env) sites frames) {name : String} (w : Int32)
    (absent : sites.nearest name = none) : frames.write name w = none := by
  induction h with
  | nil => rfl
  | cons first _ ih =>
    rw [Frames.nearest_cons, Option.or_eq_none_iff] at absent
    simp [Frames.write, FrameStores.writeFrame_none first w absent.1, ih absent.2]

lemma Frames.write_some {sites : Frames Nat} {frames : Frames Int32}
    (h : List.Forall₂ (FrameStores names env) sites frames) {name : String} {target : Nat}
    {w : Int32} (found : sites.nearest name = some target) (unshared : sites.entries.Nodup)
    (keeps : ∀ site ∈ sites.entries, site ≠ target →
      ∀ v, Stores names env site v → Stores names env' site v)
    (stored : Stores names env' target w) :
    ∃ written, frames.write name w = some written ∧
      List.Forall₂ (FrameStores names env') sites written := by
  induction h with
  | nil => cases found
  | @cons site frame sites frames first others ih =>
    rw [Frames.entries_cons, List.nodup_append] at unshared
    rw [Frames.entries_cons, List.forall_mem_append] at keeps
    rw [Frames.nearest_cons] at found
    cases here : site.lookup name with
    | some index =>
      rw [here] at found
      cases found
      obtain ⟨written, wrote, top⟩ :=
        FrameStores.writeFrame first here unshared.1 keeps.1 stored
      refine ⟨written :: frames, by simp [Frames.write, wrote], .cons top ?_⟩
      refine forall₂_frameStores_keep others fun other member => keeps.2 other member ?_
      have inside : target ∈ site.map (·.2) := mem_of_lookup here
      exact fun equal => unshared.2.2 target inside other member equal.symm
    | none =>
      rw [here] at found
      obtain ⟨written, wrote, rest⟩ := ih found unshared.2.1 keeps.2
      have outside : target ∈ Frames.entries sites := Frames.mem_entries_of_nearest found
      refine ⟨frame :: written, by simp [Frames.write,
        FrameStores.writeFrame_none first w here, wrote], .cons ?_ rest⟩
      exact FrameStores.keep first fun other member =>
        keeps.1 other member (unshared.2.2 other member target outside)

/-! ## The invariant of a call -/

/-- Names for the sites of a function: different, and no names of functions of the module. -/
structure NamesApart (functionNames : List String) (names : Nat → String) (count : Nat) :
    Prop where
  distinct : ∀ i j, i < count → j < count → names i = names j → i = j
  apart : ∀ i, i < count → names i ∉ functionNames

/-- A stack of frames and an environment that belong together, while the given sites are visible and
those from `next` on are not entered yet. -/
structure Holds (functionNames : List String) (names : Nat → String) (count : Nat)
    (starts : Nat → Int) (sites : Frames Nat) (next : Nat) (frames : Frames Int32) (env : Env) :
    Prop where
  stored : List.Forall₂ (FrameStores names env) sites frames
  pending : ∀ i, next ≤ i → i < count → env (names i) = some (starts i)
  hidden : ∀ g ∈ functionNames, env g = none
  within : sites.Within next
  unshared : sites.entries.Nodup
  room : next ≤ count

namespace Holds

variable {functionNames : List String} {count : Nat} {starts : Nat → Int} {sites : Frames Nat}
  {next : Nat} {frames : Frames Int32}

/-- The nearest entry of a name is congruent to the variable of its site. -/
lemma read (h : Holds functionNames names count starts sites next frames env) {name : String}
    {site : Nat} (found : sites.nearest name = some site) :
    ∃ w t, frames.nearest name = some w ∧ env (names site) = some t ∧ Int32.ofInt t = w := by
  have related := nearest_stores h.stored name
  rw [found] at related
  generalize frames.nearest name = entry at related
  obtain ⟨t, stored, congruent⟩ := related
  exact ⟨_, t, rfl, stored, congruent⟩

lemma read_none (h : Holds functionNames names count starts sites next frames env) {name : String}
    (absent : sites.nearest name = none) : frames.nearest name = none := by
  have related := nearest_stores h.stored name
  rw [absent] at related
  generalize frames.nearest name = entry at related
  cases related
  rfl

/-- Writing a number to a visible site on both sides keeps the invariant. -/
lemma write (h : Holds functionNames names count starts sites next frames env)
    (layout : NamesApart functionNames names count) {name : String} {target : Nat} {w : Int32}
    {t : Int} (found : sites.nearest name = some target) (congruent : Int32.ofInt t = w) :
    ∃ written, frames.write name w = some written ∧
      Holds functionNames names count starts sites next written (env.put (names target) t) := by
  have visible : target < next := h.within target (Frames.mem_entries_of_nearest found)
  have inside : target < count := Nat.lt_of_lt_of_le visible h.room
  have keeps : ∀ site < count, site ≠ target →
      env.put (names target) t (names site) = env (names site) := by
    intro site bound differs
    exact env.put_of_ne t fun same => differs (layout.distinct _ _ bound inside same)
  obtain ⟨written, wrote, stored⟩ := Frames.write_some h.stored found h.unshared
    (fun site member differs v => by
      have bound := Nat.lt_of_lt_of_le (h.within site member) h.room
      simp only [Stores, keeps site bound differs, imp_self])
    (⟨t, env.put_self _ _, congruent⟩ : Stores names (env.put (names target) t) target w)
  refine ⟨written, wrote, stored, ?_, ?_, h.within, h.unshared, h.room⟩
  · intro i later bound
    rw [keeps i bound (by omega)]
    exact h.pending i later bound
  · intro g member
    have differs : g ≠ names target := fun same => layout.apart target inside (same ▸ member)
    rw [env.put_of_ne t differs]
    exact h.hidden g member

end Holds

end MiniC
