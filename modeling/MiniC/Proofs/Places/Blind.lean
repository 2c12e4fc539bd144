import MiniC.Proofs.Places.Erasure

/-!
# Translation is blind to places

Two modules that differ in places only are translated alike. Either both give one and the same
program, or both fail, at the same check and with faults that say the same but for where they
happened. What is reported on the way is the same too.
-/

namespace MiniC

/-- Faults of one kind with the same names and texts; only their places may differ. -/
inductive Fault.SameElsewhere : Fault → Fault → Prop
  | undefined {name : String} {p q : Location} :
      SameElsewhere (.undefined name p) (.undefined name q)
  | mismatch {expected found : String} {p q : Location} :
      SameElsewhere (.mismatch expected found p) (.mismatch expected found q)
  | notAssignable {p q : Location} : SameElsewhere (.notAssignable p) (.notAssignable q)
  | unsupported {construct : String} {p q : Location} :
      SameElsewhere (.unsupported construct p) (.unsupported construct q)
  | redefined {name : String} {p p' q q' : Location} :
      SameElsewhere (.redefined name p q) (.redefined name p' q')

lemma Fault.sameElsewhere_of_erase_eq {fault other : Fault} (same : fault.erase = other.erase) :
    fault.SameElsewhere other := by
  cases fault <;> cases other <;> cases same <;> constructor

/-- Results that are equal once their errors are mapped: one value, or two errors. -/
lemma results_of_mapError_eq {ε ε' α : Type} {g : ε → ε'} {x y : Except ε α}
    (same : x.mapError g = y.mapError g) :
    (∃ a, x = .ok a ∧ y = .ok a) ∨ ∃ e e', x = .error e ∧ y = .error e' ∧ g e = g e' := by
  cases x with
  | ok a =>
    cases y with
    | ok b =>
      cases same
      exact .inl ⟨a, rfl, rfl⟩
    | error e => cases same
  | error e =>
    cases y with
    | ok b => cases same
    | error e' => exact .inr ⟨e, e', rfl, rfl, Except.error.inj same⟩

namespace Source

lemma Module.checkEvents_erase (m : Module) : m.erase.checkEvents = m.checkEvents := by
  have checked : m.erase.check .initial = Check.eraseResult id (m.check .initial) :=
    m.check_erased .initial
  unfold Module.checkEvents
  rw [checked]
  cases m.check .initial <;> rfl

lemma Module.compileEvents_erase (m : Module) (options : Options) :
    m.erase.compileEvents options = m.compileEvents options := by
  have analyzed : m.erase.analyze = _ := m.analyze_erased
  unfold Module.compileEvents
  rw [analyzed, Module.checkEvents_erase]
  cases m.analyze <;> rfl

/-- Places never influence the translation. Modules that are equal once their places are erased give
the same program, or fail with faults that are equal but for their places; and the same events are
reported for both. -/
theorem Module.translation_is_blind_to_places {m n : Module} (same : m.erase = n.erase)
    (options : Options) :
    ((∃ program, m.compile options = .ok program ∧ n.compile options = .ok program) ∨
      ∃ fault other, m.compile options = .error fault ∧ n.compile options = .error other ∧
        fault.SameElsewhere other) ∧
    m.compileEvents options = n.compileEvents options := by
  refine ⟨?_, by rw [← m.compileEvents_erase, ← n.compileEvents_erase, same]⟩
  rcases results_of_mapError_eq (Module.compile_of_erase_eq same options) with
    accepted | ⟨fault, other, refused, refused', alike⟩
  · exact .inl accepted
  · exact .inr ⟨fault, other, refused, refused', Fault.sameElsewhere_of_erase_eq alike⟩

/-- `int f(int x) { { int y = 1; int y; } return z; }`, all on the given line. -/
def Module.repeated (line : UInt32) : Module :=
  let span (column : UInt32) : Span := .point (.inInput line column)
  let first : Decl := ⟨[.int], [⟨"y", some (.const "1" (span 27)), span 23⟩], span 19⟩
  let second : Decl := ⟨[.int], [⟨"y", none, span 34⟩], span 30⟩
  let inner : Block := ⟨[first, second], [], span 17⟩
  let body : Block := ⟨[], [.block inner (span 17), .ret (some (.ident "z" (span 46))) (span 39)],
    span 15⟩
  ⟨[.function ⟨"f", [.int], [⟨some "x", [.int], span 7⟩], body, span 1⟩], span 1⟩

lemma error_of_map {ε α : Type} {x : Except ε α} {e : ε}
    (h : x.map (fun _ => ()) = .error e) : x = .error e := by
  cases x with
  | ok a => cases h
  | error e' => exact congrArg _ (Except.error.inj h)

/-- The second declaration of `y` is refused, wherever the two of them stand. -/
theorem Module.repeated_blind_to_places :
    (Module.repeated 1).erase = (Module.repeated 7).erase ∧
      ∃ fault other, (Module.repeated 1).compile .default = .error fault ∧
        (Module.repeated 7).compile .default = .error other ∧ fault.SameElsewhere other ∧
        fault = .redefined "y" (.inInput 1 23) (.inInput 1 34) ∧
        other = .redefined "y" (.inInput 7 23) (.inInput 7 34) := by
  have here : (Module.repeated 1).compile .default =
      .error (.redefined "y" (.inInput 1 23) (.inInput 1 34)) :=
    error_of_map (by decide +kernel)
  have there : (Module.repeated 7).compile .default =
      .error (.redefined "y" (.inInput 7 23) (.inInput 7 34)) :=
    error_of_map (by decide +kernel)
  have same : (Module.repeated 1).erase = (Module.repeated 7).erase := rfl
  rcases (Module.translation_is_blind_to_places same .default).1 with
    ⟨program, accepted, _⟩ | ⟨fault, other, refused, refused', alike⟩
  · rw [here] at accepted
    cases accepted
  · refine ⟨same, fault, other, refused, refused', alike, ?_, ?_⟩
    · exact Except.error.inj (refused.symm.trans here)
    · exact Except.error.inj (refused'.symm.trans there)

end Source

end MiniC
