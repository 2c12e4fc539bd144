import MiniC.Command
import MiniC.Proofs.Check.Run
import MiniC.Proofs.Command.Requests
import Mathlib.Data.List.Permutation

/-!
# What a run of the command leaves behind

A run that fails prints nothing on its output and writes no file, and a run that only checks writes
none either. A check fails exactly when the translation fails that is asked for by the same
arguments without `--check` and without an output file, and then the two runs end alike, down to the
log.
-/

namespace MiniC.Command

variable {disk : Disk} {inv : Invocation}

/-! ## Runs of an invocation -/

/-- The invocation that translates to the standard output. -/
def Invocation.translating (inv : Invocation) : Invocation :=
  { inv with output := none, checkOnly := false }

lemma execute_of_ok {product : Product} {events : List Event}
    (h : perform disk inv = (.ok product, events)) :
    execute disk inv = ⟨0, product.stdout, logText inv events, product.written⟩ := by
  simp only [execute, h]

/-- The outcome of an invocation that failed. -/
def Invocation.failed (inv : Invocation) (failure : Failure) (events : List Event) : Outcome :=
  let diagnostic := (Diagnostic.ofFailure failure).withNote ("while translating " ++ inv.input)
  ⟨1, "", logText inv events ++ diagnostic.text ++ "\n", none⟩

lemma execute_of_error {failure : Failure} {events : List Event}
    (h : perform disk inv = (.error failure, events)) :
    execute disk inv = inv.failed failure events := by
  simp only [execute, h]
  rfl

lemma execute_of_exit_ne_zero (h : (execute disk inv).exit ≠ 0) :
    (execute disk inv).stdout = "" ∧ (execute disk inv).written = none := by
  cases run : perform disk inv with
  | mk result events =>
    cases result with
    | ok product =>
      rw [execute_of_ok run] at h
      exact absurd rfl h
    | error failure =>
      rw [execute_of_error run]
      exact ⟨rfl, rfl⟩

/-- Checking and translating a text fail for the same reason after the same events, or both
succeed. -/
lemma checkProduct_or (disk : Disk) (inv : Invocation) (options : Options) (text : String) :
    (∃ product program, checkProduct inv text = .ok product ∧ product.written = none ∧
      compileProduct disk inv.translating options text = .ok program ∧ program.written = none) ∨
    ∃ failure, checkProduct inv text = .error failure ∧
      compileProduct disk inv.translating options text = .error failure ∧
      checkTextEvents text inv.grammar = compileTextEvents text inv.grammar options := by
  simp only [checkProduct, compileProduct, Invocation.translating, compileText, checkTextEvents,
    compileTextEvents]
  cases parseModule text inv.grammar with
  | error failure => exact .inr ⟨failure, rfl, rfl, rfl⟩
  | ok m =>
    simp only [bind, Except.bind, Source.Module.compile, Source.Module.compileEvents]
    cases m.analyze with
    | error fault => exact .inr ⟨.ofFault fault, rfl, rfl, rfl⟩
    | ok typed => exact .inl ⟨_, _, rfl, rfl, rfl, rfl⟩

/-- A check and the translation that it stands for. -/
lemma perform_or (disk : Disk) (check : inv.checkOnly = true) :
    (∃ product program events events', perform disk inv = (.ok product, events) ∧
      product.written = none ∧ perform disk inv.translating = (.ok program, events')) ∨
    ∃ failure events, perform disk inv = (.error failure, events) ∧
      perform disk inv.translating = (.error failure, events) := by
  have options : loadOptions disk inv.translating = loadOptions disk inv := rfl
  have input : inv.translating.input = inv.input := rfl
  have plain : inv.translating.checkOnly = false := rfl
  simp only [perform, options, input, plain, check, if_true, Bool.false_eq_true, if_false]
  cases loadOptions disk inv with
  | error failure => exact .inr ⟨failure, [], rfl, rfl⟩
  | ok options =>
    cases readFile disk inv.input with
    | error failure => exact .inr ⟨failure, [], rfl, rfl⟩
    | ok text =>
      rcases checkProduct_or disk inv options text with
        ⟨product, program, checked, written, compiled, _⟩ | ⟨failure, checked, compiled, events⟩
      · simp only [checked, compiled]
        exact .inl ⟨product, program, _, _, rfl, written, rfl⟩
      · simp only [checked, compiled, events]
        exact .inr ⟨failure, _, rfl, rfl⟩

lemma execute_check_written (disk : Disk) (check : inv.checkOnly = true) :
    (execute disk inv).written = none := by
  rcases perform_or disk check with ⟨_, _, _, _, checked, written, _⟩ | ⟨_, _, checked, _⟩
  · rw [execute_of_ok checked]
    exact written
  · rw [execute_of_error checked]
    rfl

lemma execute_check_agrees (disk : Disk) (check : inv.checkOnly = true) :
    ((execute disk inv).exit = 0 ↔ (execute disk inv.translating).exit = 0) ∧
      ((execute disk inv).exit ≠ 0 → execute disk inv = execute disk inv.translating) := by
  rcases perform_or disk check with ⟨_, _, _, _, checked, _, compiled⟩ | ⟨_, _, checked, compiled⟩
  · rw [execute_of_ok checked, execute_of_ok compiled]
    exact ⟨Iff.rfl, fun failed => absurd rfl failed⟩
  · rw [execute_of_error checked, execute_of_error compiled]
    exact ⟨Iff.rfl, fun _ => rfl⟩

/-! ## Arguments -/

/-- Everything but the flag for a check and the output file. -/
def Topic.remains : Topic → Bool
  | .flag .checkOnly | .setting .output => false
  | _ => true

/-- Arguments for a check, and what remains of them without the flag and without the output file.
How the options are spelled and in which order the two are given does not matter. Neither is given
twice, and an empty path names no output file. -/
structure ChecksOnly (args rest : List String) : Prop where
  remaining : requestsOf rest = (requestsOf args).filter (·.topic.remains)
  added : ∃ output : Option String, output ≠ some "" ∧
    ((requestsOf args).filter (!·.topic.remains)).Perm
      (.raise .checkOnly :: output.toList.map (.set .output))

/-- Flags stay raised. -/
lemma Draft.grant_flags {draft granted : Draft} {request : Request}
    (h : draft.grant request = .ok granted) {flag : Flag}
    (raised : flag ∈ draft.flags ∨ request = .raise flag) : flag ∈ granted.flags := by
  rw [eq_adding_of_grant h]
  cases request with
  | raise other => simpa [adding, eq_comm, or_comm] using raised
  | input _ | set _ _ | halt _ => simpa [adding] using raised

lemma Draft.foldlM_flags {requests : List Request} {draft final : Draft}
    (h : requests.foldlM grant draft = .ok final) {flag : Flag}
    (raised : flag ∈ draft.flags ∨ .raise flag ∈ requests) : flag ∈ final.flags := by
  induction requests generalizing draft with
  | nil =>
    cases h
    simpa using raised
  | cons request rest ih =>
    rw [List.foldlM_cons] at h
    obtain ⟨next, step, later⟩ := except_bind_ok_iff.mp h
    refine ih later ?_
    rcases raised with before | here
    · exact .inl (grant_flags step (.inl before))
    · rcases List.mem_cons.mp here with same | after
      · exact .inl (grant_flags step (.inr same.symm))
      · exact .inr after

lemma parseArguments_eq (args : List String) :
    parseArguments args = ((requestsOf args).foldlM Draft.grant .empty >>= Draft.finish) := by
  rw [parseArguments, readArguments_eq]

lemma parseArguments_checkOnly {args : List String} (h : parseArguments args = .ok inv)
    (asked : .raise .checkOnly ∈ requestsOf args) : inv.checkOnly = true := by
  rw [parseArguments_eq] at h
  obtain ⟨draft, read, finished⟩ := except_bind_ok_iff.mp h
  have raised := Draft.foldlM_flags read (.inr asked)
  rw [Draft.finish] at finished
  split at finished
  · cases finished
  · cases finished
    simpa using raised

lemma Draft.finish_about (draft : Draft) :
    (draft.about Topic.remains).finish = draft.finish.map Invocation.translating := by
  have input : (draft.about Topic.remains).input = draft.input := rfl
  simp only [finish, input]
  cases draft.input with
  | none => rfl
  | some path =>
    simp [get?_about, mem_flags_about, Topic.remains, Except.map, Invocation.translating]

namespace ChecksOnly

variable {args rest : List String}

lemma asked (h : ChecksOnly args rest) : .raise .checkOnly ∈ requestsOf args := by
  obtain ⟨output, _, added⟩ := h.added
  exact (List.mem_filter.mp (added.mem_iff.mpr (List.mem_cons_self ..))).1

/-- The added requests are granted by themselves. -/
lemma granted (h : ChecksOnly args rest) :
    ∃ d, ((requestsOf args).filter (!·.topic.remains)).foldlM Draft.grant .empty = .ok d := by
  obtain ⟨output, proper, added⟩ := h.added
  cases output with
  | none =>
    rw [List.perm_singleton.mp added]
    exact ⟨_, rfl⟩
  | some path =>
    have accepted : Draft.accepts .output path = true := by
      simpa [Draft.accepts] using proper
    have first : ∀ draft : Draft, draft.settings = [] →
        draft.grant (.set .output path) = .ok { draft with settings := [(.output, path)] } := by
      intro draft none
      simp [Draft.grant, Draft.set, Draft.get?, none, accepted]
    have raised : Draft.empty.grant (.raise .checkOnly) = .ok ⟨none, [], [.checkOnly]⟩ := rfl
    rcases List.perm_pair.mp added with order | order
    · rw [order, List.foldlM_cons, raised]
      exact ⟨_, (bind_pure _).trans (first ⟨none, [], [.checkOnly]⟩ rfl)⟩
    · rw [order, List.foldlM_cons, first .empty rfl]
      exact ⟨_, rfl⟩

/-- The remaining arguments stand for the same invocation, except that it translates. -/
lemma parseArguments_eq (h : ChecksOnly args rest) :
    parseArguments rest = (parseArguments args).map Invocation.translating := by
  have empty := Draft.about_empty fun t => !t.remains
  have left := Draft.foldlM_about Topic.remains (requestsOf args) .empty
    (empty.symm ▸ h.granted)
  rw [Draft.about_empty, ← h.remaining] at left
  rw [Command.parseArguments_eq, Command.parseArguments_eq, left]
  cases (requestsOf args).foldlM Draft.grant .empty with
  | error halt => rfl
  | ok draft => exact draft.finish_about

end ChecksOnly

/-! ## The command -/

lemma Halt.outcome_of_exit_ne_zero {halt : Halt} (h : halt.outcome.exit ≠ 0) :
    halt.outcome.stdout = "" := by
  cases halt with
  | usage => rfl
  | help => exact absurd rfl h
  | version => exact absurd rfl h

lemma Halt.outcome_written (halt : Halt) : halt.outcome.written = none := by
  cases halt <;> rfl

lemma run_of_exit_ne_zero {args : List String} (h : (run disk args).exit ≠ 0) :
    (run disk args).stdout = "" ∧ (run disk args).written = none := by
  revert h
  unfold run
  cases parseArguments args with
  | error halt => exact fun h => ⟨Halt.outcome_of_exit_ne_zero h, halt.outcome_written⟩
  | ok inv => exact execute_of_exit_ne_zero

lemma run_check_written {args : List String} (asked : .raise .checkOnly ∈ requestsOf args) :
    (run disk args).written = none := by
  unfold run
  cases parsed : parseArguments args with
  | error halt => exact halt.outcome_written
  | ok inv => exact execute_check_written disk (parseArguments_checkOnly parsed asked)

lemma ChecksOnly.run_agrees {args rest : List String} (h : ChecksOnly args rest) (disk : Disk) :
    ((run disk args).exit = 0 ↔ (run disk rest).exit = 0) ∧
      ((run disk args).exit ≠ 0 → run disk args = run disk rest) := by
  unfold run
  rw [h.parseArguments_eq]
  cases parsed : parseArguments args with
  | error halt => exact ⟨Iff.rfl, fun _ => rfl⟩
  | ok inv => exact execute_check_agrees disk (parseArguments_checkOnly parsed h.asked)

/-- A run that writes no file leaves the directory as it is. -/
lemma runIn_of_written_eq_none {directory : Directory} {args : List String}
    (h : (run directory.disk args).written = none) :
    runIn directory args = (run directory.disk args, directory) := by
  simp only [runIn, h]

end MiniC.Command
