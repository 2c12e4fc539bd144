import MiniC.Command.Arguments
import Mathlib.Data.List.Basic

/-!
# Arguments as requests

What an argument asks for does not depend on the arguments before it; only whether it is granted
does. So a list of arguments stands for a list of requests, and reading the arguments is granting
the requests in order, up to the first one that is refused (`readArguments_eq`). Options may be
spelled in many ways, and what is said about requests holds for every spelling.

A request touches one part of the draft. Requests about other parts can be left out, provided that
none of them is refused (`foldlM_about`).
-/

namespace MiniC.Command

inductive Request where
  | input (path : String)
  | set (setting : Setting) (value : String)
  | raise (flag : Flag)
  | halt (halt : Halt)
  deriving DecidableEq, Repr

def Draft.grant (draft : Draft) : Request → Except Halt Draft
  | .input path => draft.addInput path
  | .set setting value => draft.set setting value
  | .raise flag => draft.raise flag
  | .halt halt => .error halt

/-- The draft with what a request adds to it. -/
def Draft.adding (draft : Draft) : Request → Draft
  | .input path => { draft with input := some path }
  | .set setting value => { draft with settings := (setting, value) :: draft.settings }
  | .raise flag => { draft with flags := flag :: draft.flags }
  | .halt _ => draft

lemma Draft.eq_adding_of_grant {draft granted : Draft} {request : Request}
    (h : draft.grant request = .ok granted) : granted = draft.adding request := by
  cases request with
  | input path =>
    simp only [grant, addInput] at h
    split at h <;> cases h
    rfl
  | set setting value =>
    simp only [grant, set] at h
    split at h <;> cases h
    rfl
  | raise flag =>
    simp only [grant, raise] at h
    split at h <;> cases h
    rfl
  | halt halt => cases h

/-! ## The requests of arguments -/

/-- What one argument asks for, with the option that takes its value from the next one. -/
structure Demand where
  requests : List Request
  waiting : Option Setting

def Demand.ofLong (name : List Char) : Demand :=
  match longName? (String.ofList (name.takeWhile (· ≠ '='))), name.dropWhile (· ≠ '=') with
  | some (.setting setting), [] => ⟨[], some setting⟩
  | some (.setting setting), _ :: value => ⟨[.set setting (String.ofList value)], none⟩
  | some (.flag flag), [] => ⟨[.raise flag], none⟩
  | some (.halt halt), [] => ⟨[.halt halt], none⟩
  | _, _ => ⟨[.halt .usage], none⟩

def Demand.ofShort : List Char → Demand
  | [] => ⟨[], none⟩
  | c :: rest =>
    match shortName? c, rest with
    | some (.setting setting), [] => ⟨[], some setting⟩
    | some (.setting setting), '=' :: value => ⟨[.set setting (String.ofList value)], none⟩
    | some (.setting setting), value => ⟨[.set setting (String.ofList value)], none⟩
    | some (.flag flag), rest => ⟨.raise flag :: (ofShort rest).requests, (ofShort rest).waiting⟩
    | some (.halt halt), _ => ⟨[.halt halt], none⟩
    | none, _ => ⟨[.halt .usage], none⟩

def Demand.ofArgument (arg : String) : Demand :=
  match arg.toList with
  | '-' :: '-' :: name => .ofLong name
  | '-' :: c :: names => .ofShort (c :: names)
  | _ => ⟨[.input arg], none⟩

/-- The requests of all arguments, also of those after a refused one. -/
def requestsOf : List String → List Request
  | [] => []
  | "--" :: rest => rest.map .input
  | arg :: rest =>
    match (Demand.ofArgument arg).waiting, rest with
    | none, rest => (Demand.ofArgument arg).requests ++ requestsOf rest
    | some _, [] => (Demand.ofArgument arg).requests ++ [.halt .usage]
    | some setting, value :: rest =>
      if isValue value then
        (Demand.ofArgument arg).requests ++ .set setting value :: requestsOf rest
      else (Demand.ofArgument arg).requests ++ .halt .usage :: requestsOf (value :: rest)

/-- Grants what an argument asks for. -/
def Demand.grant (demand : Demand) (draft : Draft) : Except Halt Step := do
  let draft ← demand.requests.foldlM Draft.grant draft
  return match demand.waiting with
    | none => .done draft
    | some setting => .waiting draft setting

lemma Demand.grant_single (request : Request) (draft : Draft) :
    (⟨[request], none⟩ : Demand).grant draft = do return .done (← draft.grant request) := by
  simp [grant]

lemma readLong_eq (draft : Draft) (name : List Char) :
    readLong draft name = (Demand.ofLong name).grant draft := by
  simp only [readLong, Demand.ofLong]
  generalize longName? (String.ofList (name.takeWhile (· ≠ '='))) = found
  generalize name.dropWhile (· ≠ '=') = value
  rcases found with _ | setting | flag | halt
  · exact (Demand.grant_single (.halt .usage) draft).symm
  · cases value with
    | nil => rfl
    | cons _ value => exact (Demand.grant_single (.set setting (String.ofList value)) draft).symm
  · cases value with
    | nil => exact (Demand.grant_single (.raise flag) draft).symm
    | cons _ _ => exact (Demand.grant_single (.halt .usage) draft).symm
  · cases value with
    | nil => exact (Demand.grant_single (.halt halt) draft).symm
    | cons _ _ => exact (Demand.grant_single (.halt .usage) draft).symm

lemma readShort_eq (draft : Draft) (names : List Char) :
    readShort draft names = (Demand.ofShort names).grant draft := by
  fun_induction Demand.ofShort names generalizing draft with
  | case1 => rfl
  | case2 c setting found => simp [readShort, found, Demand.grant]
  | case3 c setting value found => simp [readShort, found, Demand.grant_single, Draft.grant]
  | case4 c setting value some unequal found =>
    simp [readShort, found, Demand.grant_single, Draft.grant]
  | case5 c flag rest found ih =>
    rw [readShort.eq_def]
    simp only [found, ih, Demand.grant, List.foldlM_cons, bind_assoc]
    rfl
  | case6 c rest halt found =>
    rw [readShort.eq_def]
    simp only [found]
    rfl
  | case7 c rest found =>
    rw [readShort.eq_def]
    simp only [found]
    rfl

lemma readArgument_eq (draft : Draft) (arg : String) :
    readArgument draft arg = (Demand.ofArgument arg).grant draft := by
  fun_cases Demand.ofArgument arg with
  | case1 name chars =>
    rw [← readLong_eq]
    simp only [readArgument, chars]
  | case2 c names single chars =>
    rw [← readShort_eq]
    simp [readArgument, chars]
  | case3 long short =>
    rw [Demand.grant_single]
    simp only [readArgument]
    rfl

lemma Draft.addInputs_eq (draft : Draft) (paths : List String) :
    draft.addInputs paths = (paths.map Request.input).foldlM Draft.grant draft := by
  induction paths generalizing draft with
  | nil => rfl
  | cons path rest ih =>
    simp only [addInputs, List.map_cons, List.foldlM_cons, ih]
    rfl

/-- After what an argument asks for, its option may take the next argument. -/
lemma readArguments_cons {arg : String} (dashes : arg ≠ "--") (draft : Draft)
    (rest : List String) :
    readArguments draft (arg :: rest) =
      (Demand.ofArgument arg).requests.foldlM Draft.grant draft >>= fun draft =>
        match (Demand.ofArgument arg).waiting, rest with
        | none, rest => readArguments draft rest
        | some _, [] => .error .usage
        | some setting, value :: rest =>
          if isValue value then draft.set setting value >>= (readArguments · rest)
          else .error .usage := by
  rw [readArguments, readArgument_eq, Demand.grant, bind_assoc]
  · congr 1
    funext draft
    rw [pure_bind]
    cases (Demand.ofArgument arg).waiting with
    | none => rfl
    | some setting => cases rest <;> rfl
  · exact dashes

/-- Reading arguments is granting their requests in order. -/
theorem readArguments_eq (draft : Draft) (args : List String) :
    readArguments draft args = (requestsOf args).foldlM Draft.grant draft := by
  fun_induction requestsOf args generalizing draft with
  | case1 => rfl
  | case2 rest => exact draft.addInputs_eq rest
  | case3 arg dashes rest waits ih =>
    rw [readArguments_cons dashes, waits, List.foldlM_append]
    simp only [ih]
  | case4 arg dashes setting waits =>
    rw [readArguments_cons dashes, waits, List.foldlM_append]
    rfl
  | case5 arg dashes setting value rest waits plain ih =>
    rw [readArguments_cons dashes, waits, List.foldlM_append]
    simp only [plain, ih]
    rfl
  | case6 arg dashes setting value rest waits dashed ih =>
    rw [readArguments_cons dashes, waits, List.foldlM_append]
    simp only [dashed]
    rfl

/-! ## Requests about different things -/

/-- What a request is about. -/
inductive Topic where
  | input
  | setting (setting : Setting)
  | flag (flag : Flag)
  | halt
  deriving DecidableEq, Repr

def Request.topic : Request → Topic
  | .input _ => .input
  | .set setting _ => .setting setting
  | .raise flag => .flag flag
  | .halt _ => .halt

namespace Draft

/-- The part of a draft that belongs to some topics. -/
def about (p : Topic → Bool) (draft : Draft) : Draft where
  input := if p .input then draft.input else none
  settings := draft.settings.filter fun entry => p (.setting entry.1)
  flags := draft.flags.filter fun flag => p (.flag flag)

variable {p : Topic → Bool} {draft granted : Draft} {request : Request}

lemma about_empty (p : Topic → Bool) : Draft.empty.about p = .empty := by
  cases h : p .input <;> simp [about, empty]

lemma get?_about (p : Topic → Bool) (draft : Draft) (setting : Setting) :
    (draft.about p).get? setting = if p (.setting setting) then draft.get? setting else none := by
  obtain ⟨input, settings, flags⟩ := draft
  simp only [about, get?, List.find?_filter]
  induction settings with
  | nil => simp
  | cons entry rest ih =>
    rw [List.find?_cons, List.find?_cons]
    by_cases here : entry.1 = setting
    · cases part : p (.setting setting) with
      | true => simp [here, part]
      | false => simpa [here, part] using ih
    · simpa [here] using ih

lemma mem_flags_about (p : Topic → Bool) (draft : Draft) (flag : Flag) :
    flag ∈ (draft.about p).flags ↔ p (.flag flag) = true ∧ flag ∈ draft.flags := by
  simp [about, and_comm]

/-- A request is granted or refused by the part that it belongs to. -/
lemma grant_about (inside : p request.topic = true) :
    (draft.about p).grant request = (draft.grant request).map (about p) := by
  cases request with
  | input path =>
    have part : p .input = true := inside
    have same : (draft.about p).input = draft.input := by simp [about, part]
    simp only [grant, addInput, same]
    split
    · rfl
    · simp [Except.map, about, part]
  | set setting value =>
    have part : p (.setting setting) = true := inside
    simp only [grant, set, get?_about, part, if_true]
    split
    · rfl
    · simp [Except.map, about, part]
  | raise flag =>
    have part : p (.flag flag) = true := inside
    simp only [grant, raise, mem_flags_about, part, true_and]
    split
    · rfl
    · simp [Except.map, about, part]
  | halt halt => rfl

/-- What is granted leaves other parts as they are. -/
lemma about_grant (outside : p request.topic = false) (h : draft.grant request = .ok granted) :
    granted.about p = draft.about p := by
  rw [eq_adding_of_grant h]
  cases request with
  | input path =>
    have part : p .input = false := outside
    simp [adding, about, part]
  | set setting value =>
    have part : p (.setting setting) = false := outside
    simp [adding, about, part]
  | raise flag =>
    have part : p (.flag flag) = false := outside
    simp [adding, about, part]
  | halt halt => rfl

/-- Requests about other things can be left out if none of them is refused. -/
theorem foldlM_about (p : Topic → Bool) (requests : List Request) (draft : Draft)
    (accepted : ∃ d, (requests.filter fun r => !p r.topic).foldlM grant
      (draft.about fun t => !p t) = .ok d) :
    (requests.filter fun r => p r.topic).foldlM grant (draft.about p) =
      (requests.foldlM grant draft).map (about p) := by
  induction requests generalizing draft with
  | nil => rfl
  | cons request rest ih =>
    cases part : p request.topic with
    | true =>
      simp only [List.filter_cons, part, Bool.not_true, Bool.false_eq_true, if_false] at accepted
      simp only [List.filter_cons, part, if_true, List.foldlM_cons, grant_about part]
      cases step : draft.grant request with
      | error halt => rfl
      | ok next =>
        -- The other requests meet the same draft as before.
        have kept := about_grant (p := fun t => !p t) (by simp [part]) step
        exact ih next (kept ▸ accepted)
    | false =>
      have other : (!p request.topic) = true := by simp [part]
      simp only [List.filter_cons, other, if_true, List.foldlM_cons,
        grant_about (p := fun t => !p t) other] at accepted
      simp only [List.filter_cons, part, Bool.false_eq_true, if_false, List.foldlM_cons]
      cases step : draft.grant request with
      | error halt =>
        rw [step] at accepted
        obtain ⟨d, impossible⟩ := accepted
        cases impossible
      | ok next =>
        rw [step] at accepted
        rw [← about_grant part step]
        exact ih next accepted

end Draft

end MiniC.Command
