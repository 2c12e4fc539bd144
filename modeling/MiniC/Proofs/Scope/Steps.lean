import MiniC.Proofs.Check.Run
import MiniC.Scope.Pool
import Mathlib.Logic.Relation

/-!
# Steps on a pool of scopes

A run starts with one empty scope and adds scopes or declares names in them. `Step` says all that a
step can do to a pool. From it follows what every step leaves alone (`Isolated`), and that scopes
which come from one another by forking or copying never emit a name twice in a run. The invariant
behind that is `Recorded`: such scopes have the same set of taken names, and a name that was emitted
stays in the set of its scope.
-/

namespace MiniC

/-- Two scopes answer every question in the same way. -/
structure Scope.SameAnswers (scope other : Scope) : Prop where
  binding : ∀ name, scope.binding? name = other.binding? name
  local_binding : ∀ name, scope.local? name = other.local? name
  result : scope.result = other.result
  depth : scope.depth = other.depth

lemma Scope.SameAnswers.refl (scope : Scope) : scope.SameAnswers scope :=
  ⟨fun _ => rfl, fun _ => rfl, rfl, rfl⟩

namespace Pool

/-- A step on the scopes of a pool, which are given by their numbers. -/
inductive Action where
  | new
  | fork (index : Nat)
  | copy (index : Nat)
  | forFunction (index : Nat) (result : Ty)
  | declare (index : Nat) (name : String) (ty : Ty) (place : Location)
  deriving DecidableEq, Repr

/-- The number of the scope that a step adds, or what comes of a declaration. -/
inductive Answer where
  | added (index : Nat)
  | declared (emitted : String)
  | refused (fault : Fault)
  deriving DecidableEq, Repr

/-- The outcome of a declaration as an answer. -/
def Answer.ofDeclaration : Except Fault String → Answer
  | .ok emitted => .declared emitted
  | .error fault => .refused fault

/-- Takes a step, if the scope it is about is in the pool. -/
def step? (pool : Pool) : Action → Option (Answer × Pool)
  | .new => some (.added pool.members.length, pool.new)
  | .fork i => pool.members[i]?.map fun m => (.added pool.members.length, pool.fork m)
  | .copy i => pool.members[i]?.map fun m => (.added pool.members.length, pool.copy m)
  | .forFunction i result =>
    pool.members[i]?.map fun m => (.added pool.members.length, pool.forFunction m result)
  | .declare i name ty place => pool.members[i]?.map fun m =>
    let (outcome, after) := pool.declare i m name ty place
    (.ofDeclaration outcome, after)

/-- The steps of a run with their answers, the latest first. -/
abbrev Trace := List (Action × Answer)

/-- A run of steps that starts with one empty scope. -/
inductive Run : Trace → Pool → Prop
  | start : Run [] .initial
  | step {trace : Trace} {pool after : Pool} {action : Action} {answer : Answer}
      (before : Run trace pool) (taken : pool.step? action = some (answer, after)) :
      Run ((action, answer) :: trace) after

/-- The successful declarations of a run: number of the scope and emitted name. -/
def Trace.emissions (trace : Trace) : List (Nat × String) :=
  trace.filterMap fun
    | (.declare i _ _ _, .declared emitted) => some (i, emitted)
    | _ => none

/-- The second scope was made from the first by forking or copying it. -/
def Trace.Derives (trace : Trace) (i j : Nat) : Prop :=
  (.fork i, .added j) ∈ trace ∨ (.copy i, .added j) ∈ trace

/-- Scopes that are linked by forks and copies. -/
def Trace.Linked (trace : Trace) : Nat → Nat → Prop :=
  Relation.EqvGen trace.Derives

/-! ## What a step can do -/

/-- The binding that a declaration in a member makes. -/
def fresh (pool : Pool) (m : Member) (name : String) (ty : Ty) (place : Location) : Binding :=
  ⟨name, m.scope.freshName (pool.taken m.set) name, ty, place⟩

/-- The pool after a binding was made in a member. -/
def bound (pool : Pool) (i : Nat) (m : Member) (b : Binding) : Pool :=
  ⟨pool.members.set i ⟨m.scope.bind b, m.set⟩,
    pool.sets.set m.set (b.emitted :: pool.taken m.set)⟩

inductive Step (pool : Pool) : Action → Answer → Pool → Prop
  | new : Step pool .new (.added pool.members.length) (pool.isolate .empty)
  | fork {i : Nat} {m : Member} (found : pool.members[i]? = some m) :
      Step pool (.fork i) (.added pool.members.length) (pool.share m.scope.fork m.set)
  | copy {i : Nat} {m : Member} (found : pool.members[i]? = some m) :
      Step pool (.copy i) (.added pool.members.length) (pool.share m.scope m.set)
  | forFunction {i : Nat} {m : Member} {result : Ty} (found : pool.members[i]? = some m) :
      Step pool (.forFunction i result) (.added pool.members.length)
        (pool.isolate (m.scope.forFunction result))
  | declared {i : Nat} {m : Member} {name : String} {ty : Ty} {place : Location}
      (found : pool.members[i]? = some m) (new : m.scope.local? name = none) :
      Step pool (.declare i name ty place) (.declared (pool.fresh m name ty place).emitted)
        (pool.bound i m (pool.fresh m name ty place))
  | refused {i : Nat} {m : Member} {name : String} {ty : Ty} {place : Location}
      {previous : Binding} (found : pool.members[i]? = some m)
      (old : m.scope.local? name = some previous) :
      Step pool (.declare i name ty place) (.refused (.redefined name previous.place place)) pool

lemma put_unchanged {pool : Pool} {i : Nat} {m : Member} (found : pool.members[i]? = some m) :
    pool.put i m ⟨m.scope, pool.taken m.set, #[]⟩ = pool := by
  have members : pool.members.set i m = pool.members := by
    obtain ⟨bound, same⟩ := List.getElem?_eq_some_iff.mp found
    rw [← same, List.set_getElem_self]
  have sets : pool.sets.set m.set (pool.taken m.set) = pool.sets := by
    by_cases bound : m.set < pool.sets.length
    · have here : pool.taken m.set = pool.sets[m.set] := by simp [taken, bound]
      rw [here, List.set_getElem_self]
    · exact List.set_eq_of_length_le (by omega)
  rw [put, members, sets]

lemma declare_new {pool : Pool} {i : Nat} {m : Member} {name : String} {ty : Ty}
    {place : Location} (new : m.scope.local? name = none) :
    pool.declare i m name ty place = (.ok (pool.fresh m name ty place).emitted,
      pool.bound i m (pool.fresh m name ty place)) := by
  let s : Check.State := ⟨m.scope, pool.taken m.set, #[]⟩
  have run : Check.declare name ty place s =
      .ok (pool.fresh m name ty place).emitted (s.declared name ty place) :=
    Check.declare_ok_iff.mpr ⟨new, rfl, rfl⟩
  rw [declare, Pool.run, run]
  simp only [put, Check.State.declared_scope, Check.State.declared_taken]
  rfl

lemma declare_old {pool : Pool} {i : Nat} {m : Member} {name : String} {ty : Ty}
    {place : Location} {previous : Binding} (found : pool.members[i]? = some m)
    (old : m.scope.local? name = some previous) :
    pool.declare i m name ty place = (.error (.redefined name previous.place place), pool) := by
  let s : Check.State := ⟨m.scope, pool.taken m.set, #[]⟩
  have run : Check.declare name ty place s = .error (.redefined name previous.place place) s :=
    Check.declare_of_local? old
  rw [declare, Pool.run, run]
  exact congrArg (Prod.mk _) (put_unchanged found)

/-- The steps that can be taken are those of `Step`. -/
lemma step?_eq_some_iff {pool after : Pool} {action : Action} {answer : Answer} :
    pool.step? action = some (answer, after) ↔ Step pool action answer after := by
  constructor
  · intro h
    cases action with
    | new =>
      cases h
      exact .new
    | fork i =>
      obtain ⟨m, found, made⟩ := Option.map_eq_some_iff.mp h
      cases made
      exact .fork found
    | copy i =>
      obtain ⟨m, found, made⟩ := Option.map_eq_some_iff.mp h
      cases made
      exact .copy found
    | forFunction i result =>
      obtain ⟨m, found, made⟩ := Option.map_eq_some_iff.mp h
      cases made
      exact .forFunction found
    | declare i name ty place =>
      obtain ⟨m, found, made⟩ := Option.map_eq_some_iff.mp h
      cases here : m.scope.local? name with
      | none =>
        simp only [declare_new here] at made
        cases made
        exact .declared found here
      | some previous =>
        simp only [declare_old found here] at made
        cases made
        exact .refused found here
  · intro h
    cases h with
    | new => rfl
    | fork found => exact Option.map_eq_some_iff.mpr ⟨_, found, rfl⟩
    | copy found => exact Option.map_eq_some_iff.mpr ⟨_, found, rfl⟩
    | forFunction found => exact Option.map_eq_some_iff.mpr ⟨_, found, rfl⟩
    | declared found new =>
      exact Option.map_eq_some_iff.mpr ⟨_, found, by rw [declare_new new]; rfl⟩
    | refused found old =>
      exact Option.map_eq_some_iff.mpr ⟨_, found, by rw [declare_old found old]; rfl⟩

/-! ## What a step leaves alone -/

/-- A step shows nowhere but in the scope it adds or declares in. -/
structure Isolated (pool : Pool) (action : Action) (answer : Answer) (after : Pool) : Prop where
  /-- Every scope but the one that is declared in answers as before. -/
  others : ∀ j m, pool.members[j]? = some m → (∀ name ty place, action ≠ .declare j name ty place) →
    ∃ m', after.members[j]? = some m' ∧ m'.scope.SameAnswers m.scope
  /-- A scope that is made from another one shows what that one shows now. -/
  snapshot : ∀ i j m, pool.members[i]? = some m → answer = .added j →
    (action = .fork i ∨ action = .copy i ∨ ∃ result, action = .forFunction i result) →
    ∃ m', after.members[j]? = some m' ∧
      ∀ name, m'.scope.binding? name = m.scope.binding? name
  /-- A declaration changes the answers for its own name only. -/
  declared : ∀ i name ty place emitted, action = .declare i name ty place →
    answer = .declared emitted → ∃ m m', pool.members[i]? = some m ∧
      after.members[i]? = some m' ∧ m.scope.local? name = none ∧
      (∀ other, m'.scope.binding? other =
        if name = other then some ⟨name, emitted, ty, place⟩ else m.scope.binding? other) ∧
      (∀ other, m'.scope.local? other =
        if name = other then some ⟨name, emitted, ty, place⟩ else m.scope.local? other) ∧
      m'.scope.result = m.scope.result ∧ m'.scope.depth = m.scope.depth
  /-- A declaration that fails changes nothing, the sets of taken names included. -/
  refused : ∀ fault, answer = .refused fault → after = pool

lemma isolate_members_of_some {pool : Pool} {scope : Scope} {j : Nat} {m : Member}
    (h : pool.members[j]? = some m) : (pool.isolate scope).members[j]? = some m := by
  rw [isolate, List.getElem?_append_left (List.getElem?_eq_some_iff.mp h).1, h]

lemma share_members_of_some {pool : Pool} {scope : Scope} {set j : Nat} {m : Member}
    (h : pool.members[j]? = some m) : (pool.share scope set).members[j]? = some m := by
  rw [share, List.getElem?_append_left (List.getElem?_eq_some_iff.mp h).1, h]

lemma isolate_members_last (pool : Pool) (scope : Scope) :
    (pool.isolate scope).members[pool.members.length]? = some ⟨scope, pool.sets.length⟩ := by
  simp [isolate]

lemma share_members_last (pool : Pool) (scope : Scope) (set : Nat) :
    (pool.share scope set).members[pool.members.length]? = some ⟨scope, set⟩ := by
  simp [share]

lemma bound_members_self {pool : Pool} {i : Nat} {m : Member} (b : Binding)
    (found : pool.members[i]? = some m) :
    (pool.bound i m b).members[i]? = some ⟨m.scope.bind b, m.set⟩ := by
  rw [bound, List.getElem?_set_self (List.getElem?_eq_some_iff.mp found).1]

lemma bound_members_of_ne {pool : Pool} {i j : Nat} {m : Member} (b : Binding) (ne : i ≠ j) :
    (pool.bound i m b).members[j]? = pool.members[j]? := by
  rw [bound, List.getElem?_set_ne ne]

namespace Step

variable {pool after : Pool} {action : Action} {answer : Answer}

/-- No step but a declaration in a scope changes that scope. -/
lemma members_of_some (h : Step pool action answer after) {j : Nat} {m : Member}
    (found : pool.members[j]? = some m)
    (other : ∀ name ty place, action ≠ .declare j name ty place) :
    after.members[j]? = some m := by
  cases h with
  | new => exact isolate_members_of_some found
  | fork _ => exact share_members_of_some found
  | copy _ => exact share_members_of_some found
  | forFunction _ => exact isolate_members_of_some found
  | @declared i _ name ty place _ _ =>
    have ne : i ≠ j := by
      intro same
      exact other name ty place (by rw [same])
    rw [bound_members_of_ne _ ne, found]
  | refused _ _ => exact found

theorem isolated (h : Step pool action answer after) : Isolated pool action answer after := by
  refine ⟨?_, ?_, ?_, ?_⟩
  · intro j m found other
    exact ⟨m, h.members_of_some found other, .refl m.scope⟩
  · rintro i j m found rfl (rfl | rfl | ⟨result, rfl⟩)
    · cases h with
      | fork source =>
        cases source.symm.trans found
        exact ⟨_, share_members_last pool _ _, fun name => Scope.binding?_fork _ name⟩
    · cases h with
      | copy source =>
        cases source.symm.trans found
        exact ⟨_, share_members_last pool _ _, fun name => rfl⟩
    · cases h with
      | forFunction source =>
        cases source.symm.trans found
        exact ⟨_, isolate_members_last pool _, fun name => Scope.binding?_forFunction _ _ name⟩
  · rintro i name ty place emitted rfl declared
    cases h with
    | @declared _ m _ _ _ found new =>
      cases declared
      exact ⟨m, _, found, bound_members_self _ found, new, fun other => Scope.binding?_bind _ _ _,
        fun other => Scope.local?_bind _ _ _, rfl, rfl⟩
    | refused _ _ => cases declared
  · rintro fault rfl
    cases h with
    | refused _ _ => rfl

end Step

/-! ## Names that linked scopes emit -/

/-- The number of the set of taken names of a scope. -/
def set? (pool : Pool) (i : Nat) : Option Nat :=
  pool.members[i]?.map (·.set)

/-- Every scope has a set. -/
def Numbered (pool : Pool) : Prop :=
  ∀ m ∈ pool.members, m.set < pool.sets.length

/-- What a pool keeps of the run that led to it. -/
structure Recorded (trace : Trace) (pool : Pool) : Prop where
  numbered : pool.Numbered
  derived : ∀ i j, trace.Derives i j → ∃ set, pool.set? i = some set ∧ pool.set? j = some set
  emitted : ∀ e ∈ trace.emissions, ∃ set, pool.set? e.1 = some set ∧ e.2 ∈ pool.taken set

/-- Steps keep the sets of all scopes, and the sets only grow. -/
structure Grows (pool after : Pool) : Prop where
  sets : ∀ i set, pool.set? i = some set → after.set? i = some set
  taken : ∀ set x, x ∈ pool.taken set → x ∈ after.taken set

lemma set?_eq_some_iff {pool : Pool} {i set : Nat} :
    pool.set? i = some set ↔ ∃ m, pool.members[i]? = some m ∧ m.set = set :=
  Option.map_eq_some_iff

lemma taken_isolate (pool : Pool) (scope : Scope) (set : Nat) :
    (pool.isolate scope).taken set = pool.taken set := by
  unfold taken isolate
  rcases Nat.lt_trichotomy set pool.sets.length with less | equal | greater
  · rw [List.getElem?_append_left less]
  · simp [equal]
  · rw [List.getElem?_eq_none (by simp; omega), List.getElem?_eq_none (by omega)]

lemma taken_bound {pool : Pool} {i : Nat} {m : Member} (b : Binding)
    (within : m.set < pool.sets.length) (set : Nat) :
    (pool.bound i m b).taken set =
      if m.set = set then b.emitted :: pool.taken set else pool.taken set := by
  unfold bound
  rw [taken, List.getElem?_set]
  by_cases same : m.set = set
  · subst same
    simp [within]
  · simp [same, taken]

lemma grows_isolate (pool : Pool) (scope : Scope) : pool.Grows (pool.isolate scope) := by
  refine ⟨?_, ?_⟩
  · intro i set h
    obtain ⟨m, found, same⟩ := set?_eq_some_iff.mp h
    exact set?_eq_some_iff.mpr ⟨m, isolate_members_of_some found, same⟩
  · intro set x member
    rwa [taken_isolate]

lemma grows_share (pool : Pool) (scope : Scope) (set : Nat) : pool.Grows (pool.share scope set) := by
  refine ⟨?_, fun _ _ member => member⟩
  intro i set h
  obtain ⟨m, found, same⟩ := set?_eq_some_iff.mp h
  exact set?_eq_some_iff.mpr ⟨m, share_members_of_some found, same⟩

lemma set?_bound {pool : Pool} {i : Nat} {m : Member} (b : Binding)
    (found : pool.members[i]? = some m) (j : Nat) : (pool.bound i m b).set? j = pool.set? j := by
  unfold set?
  by_cases same : i = j
  · subst same
    rw [bound_members_self b found, found]
    rfl
  · rw [bound_members_of_ne b same]

lemma grows_bound {pool : Pool} {i : Nat} {m : Member} (b : Binding)
    (found : pool.members[i]? = some m) (within : m.set < pool.sets.length) :
    pool.Grows (pool.bound i m b) := by
  refine ⟨?_, ?_⟩
  · intro j set h
    rwa [set?_bound b found]
  · intro set x member
    rw [taken_bound b within]
    split
    · exact List.mem_cons_of_mem _ member
    · exact member

lemma Step.grows {pool after : Pool} {action : Action} {answer : Answer}
    (h : Step pool action answer after) (numbered : pool.Numbered) : pool.Grows after := by
  cases h with
  | new => exact grows_isolate pool _
  | fork _ => exact grows_share pool _ _
  | copy _ => exact grows_share pool _ _
  | forFunction _ => exact grows_isolate pool _
  | declared found _ =>
    exact grows_bound _ found (numbered _ (List.mem_of_getElem? found))
  | refused _ _ => exact ⟨fun _ _ h => h, fun _ _ h => h⟩

lemma Step.numbered {pool after : Pool} {action : Action} {answer : Answer}
    (h : Step pool action answer after) (numbered : pool.Numbered) : after.Numbered := by
  have isolated : ∀ scope, (pool.isolate scope).Numbered := by
    intro scope m member
    rw [isolate, List.length_append, List.length_singleton]
    rcases List.mem_append.mp member with old | new
    · have bound := numbered m old
      omega
    · cases List.mem_singleton.mp new
      exact Nat.lt_succ_self _
  have shared : ∀ scope (source : Member), source ∈ pool.members →
      (pool.share scope source.set).Numbered := by
    intro scope source inside
    exact List.forall_mem_append.mpr
      ⟨numbered, List.forall_mem_singleton.mpr (numbered source inside)⟩
  cases h with
  | new => exact isolated _
  | fork found => exact shared _ _ (List.mem_of_getElem? found)
  | copy found => exact shared _ _ (List.mem_of_getElem? found)
  | forFunction _ => exact isolated _
  | @declared i source _ _ _ found _ =>
    intro m member
    rw [bound, List.length_set]
    rcases List.mem_or_eq_of_mem_set member with old | rfl
    · exact numbered m old
    · exact numbered source (List.mem_of_getElem? found)
  | refused _ _ => exact numbered

/-- A scope that a step derives from another one has the set of that one. -/
lemma Step.derives {pool after : Pool} {action : Action} {answer : Answer}
    (h : Step pool action answer after) {i j : Nat}
    (made : Trace.Derives [(action, answer)] i j) :
    ∃ set, after.set? i = some set ∧ after.set? j = some set := by
  simp only [Trace.Derives, List.mem_singleton, Prod.mk.injEq] at made
  rcases made with ⟨rfl, rfl⟩ | ⟨rfl, rfl⟩
  · cases h with
    | @fork _ m found =>
      exact ⟨m.set, set?_eq_some_iff.mpr ⟨m, share_members_of_some found, rfl⟩,
        set?_eq_some_iff.mpr ⟨_, share_members_last pool _ _, rfl⟩⟩
  · cases h with
    | @copy _ m found =>
      exact ⟨m.set, set?_eq_some_iff.mpr ⟨m, share_members_of_some found, rfl⟩,
        set?_eq_some_iff.mpr ⟨_, share_members_last pool _ _, rfl⟩⟩

/-- A name that a step emits was not taken in the set of its scope before, and is so after it. -/
lemma Step.emits {pool after : Pool} {action : Action} {answer : Answer}
    (h : Step pool action answer after) (numbered : pool.Numbered) {e : Nat × String}
    (made : e ∈ Trace.emissions [(action, answer)]) :
    ∃ set, after.set? e.1 = some set ∧ e.2 ∉ pool.taken set ∧ e.2 ∈ after.taken set := by
  cases h with
  | @declared i m name ty place found _ =>
    cases List.mem_singleton.mp made
    have bound := numbered m (List.mem_of_getElem? found)
    refine ⟨m.set, ?_, Scope.freshName_notMem _ _ _, ?_⟩
    · exact set?_eq_some_iff.mpr ⟨_, bound_members_self _ found, rfl⟩
    · rw [taken_bound _ bound, if_pos rfl]
      exact List.mem_cons_self
  | _ => cases made

lemma Trace.derives_cons {trace : Trace} {step : Action × Answer} {i j : Nat} :
    Trace.Derives (step :: trace) i j ↔ Trace.Derives [step] i j ∨ trace.Derives i j := by
  simp only [Trace.Derives, List.mem_cons, List.not_mem_nil, or_false]
  exact or_or_or_comm

lemma Trace.emissions_cons (trace : Trace) (step : Action × Answer) :
    Trace.emissions (step :: trace) = Trace.emissions [step] ++ trace.emissions :=
  List.filterMap_append (l := [step])

lemma Recorded.step {trace : Trace} {pool after : Pool} {action : Action} {answer : Answer}
    (h : Recorded trace pool) (step : Step pool action answer after) :
    Recorded ((action, answer) :: trace) after := by
  have grows := step.grows h.numbered
  refine ⟨step.numbered h.numbered, ?_, ?_⟩
  · intro i j made
    rcases Trace.derives_cons.mp made with new | old
    · exact step.derives new
    · obtain ⟨set, hi, hj⟩ := h.derived i j old
      exact ⟨set, grows.sets i set hi, grows.sets j set hj⟩
  · intro e member
    rw [Trace.emissions_cons, List.mem_append] at member
    rcases member with new | old
    · obtain ⟨set, here, _, taken⟩ := step.emits h.numbered new
      exact ⟨set, here, taken⟩
    · obtain ⟨set, here, taken⟩ := h.emitted e old
      exact ⟨set, grows.sets _ set here, grows.taken set _ taken⟩

theorem Run.recorded {trace : Trace} {pool : Pool} (run : Run trace pool) :
    Recorded trace pool := by
  induction run with
  | start =>
    refine ⟨?_, ?_, ?_⟩
    · intro m member
      cases List.mem_singleton.mp member
      exact Nat.zero_lt_one
    · rintro i j (forked | copied)
      · cases forked
      · cases copied
    · intro e member
      cases member
  | step _ taken ih => exact ih.step (step?_eq_some_iff.mp taken)

lemma Recorded.set?_eq_of_linked {trace : Trace} {pool : Pool} (h : Recorded trace pool)
    {i j : Nat} (linked : trace.Linked i j) : pool.set? i = pool.set? j := by
  induction linked with
  | rel i j derives =>
    obtain ⟨set, hi, hj⟩ := h.derived i j derives
    exact hi.trans hj.symm
  | refl i => rfl
  | symm i j _ ih => exact ih.symm
  | trans i j k _ _ first second => exact first.trans second

/-- No set of taken names gets a name twice. -/
theorem Run.emissions_distinct {trace : Trace} {pool : Pool} (run : Run trace pool) :
    trace.emissions.Pairwise fun a b => pool.set? a.1 = pool.set? b.1 → a.2 ≠ b.2 := by
  induction run with
  | start => exact .nil
  | @step trace pool after action answer before taken ih =>
    have recorded := before.recorded
    have step := step?_eq_some_iff.mp taken
    have grows := step.grows recorded.numbered
    rw [Trace.emissions_cons]
    refine List.pairwise_append.mpr ⟨?_, ?_, ?_⟩
    · -- One step emits at most one name.
      cases step with
      | declared _ _ => exact List.pairwise_singleton _ _
      | _ => exact .nil
    · refine ih.imp_of_mem ?_
      intro a b ha hb apart same
      obtain ⟨set, here, _⟩ := recorded.emitted a ha
      obtain ⟨set', there, _⟩ := recorded.emitted b hb
      rw [grows.sets _ _ here, grows.sets _ _ there] at same
      exact apart (by rw [here, there, same])
    · intro a ha b hb same
      obtain ⟨set, here, free, _⟩ := step.emits recorded.numbered ha
      obtain ⟨set', there, occupied⟩ := recorded.emitted b hb
      rw [here, grows.sets _ _ there] at same
      cases same
      intro equal
      exact free (equal ▸ occupied)

/-! ## Every run -/

/-- Scopes are snapshots that do not see each other's steps. After any run, a step changes no answer
of a scope other than the one it declares in, there a declaration changes the answers for its own
name only, and a declaration that fails changes nothing. Over the whole run, scopes that are linked
by forks and copies never emit the same name twice. -/
theorem Run.scopes_isolated {trace : Trace} {pool : Pool} (run : Run trace pool) :
    (∀ action answer after, pool.step? action = some (answer, after) →
      Isolated pool action answer after) ∧
    trace.emissions.Pairwise fun a b => trace.Linked a.1 b.1 → a.2 ≠ b.2 := by
  refine ⟨fun action answer after taken => (step?_eq_some_iff.mp taken).isolated, ?_⟩
  refine run.emissions_distinct.imp ?_
  intro a b apart linked
  exact apart (run.recorded.set?_eq_of_linked linked)

/-- One name is declared in a scope, in a fork of it and in a function inside the fork, and then once
more in the first scope. -/
def Trace.shadowing : Trace :=
  [(.declare 0 "x" .int .unknown, .refused (.redefined "x" .unknown .unknown)),
    (.declare 2 "x" .int .unknown, .declared "x$1"),
    (.forFunction 1 .int, .added 2),
    (.declare 1 "x" .int .unknown, .declared "x$1"),
    (.fork 0, .added 1),
    (.declare 0 "x" .int .unknown, .declared "x")]

/-- The fork is linked to the first scope and emits another name; the function is not linked to the
fork and emits the same. -/
theorem Run.shadowing_isolated :
    ∃ pool, Run Trace.shadowing pool ∧
      Trace.shadowing.emissions = [(2, "x$1"), (1, "x$1"), (0, "x")] ∧
      Trace.shadowing.Linked 0 1 ∧
      (∀ action answer after, pool.step? action = some (answer, after) →
        Isolated pool action answer after) ∧
      Trace.shadowing.emissions.Pairwise fun a b =>
        Trace.shadowing.Linked a.1 b.1 → a.2 ≠ b.2 := by
  have run : Run Trace.shadowing _ :=
    .step (.step (.step (.step (.step (.step .start rfl) rfl) rfl) rfl) rfl) rfl
  have forked : Trace.shadowing.Derives 0 1 := .inl (by decide +kernel)
  obtain ⟨steps, names⟩ := run.scopes_isolated
  exact ⟨_, run, rfl, .rel _ _ forked, steps, names⟩

end Pool

end MiniC
