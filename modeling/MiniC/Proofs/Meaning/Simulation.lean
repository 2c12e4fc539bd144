import MiniC.Proofs.Meaning.Stores

/-!
# Emitted code simulates its source

Where an emitted tree mirrors a source tree, both run in step: from frames and an environment that
hold the same numbers, both stop for the same reason, or both go on with congruent values and hold
the same numbers again. The statements follow the mirror relations, one case per constructor; calls
are left to the functions of the module, about which it is assumed that they agree.
-/

namespace MiniC

open Estree (Env)

/-- Congruent numbers, or the same function. -/
inductive Value.Matches : Value Int32 → Value Int → Prop
  | number {w : Int32} {t : Int} (congruent : Int32.ofInt t = w) : Matches (.number w) (.number t)
  | function {name : String} : Matches (.function name) (.function name)

lemma Value.Matches.toNumber {a : Value Int32} {b : Value Int} (h : a.Matches b) :
    Agrees (fun w t => Int32.ofInt t = w) a.toNumber b.toNumber := by
  cases h with
  | number congruent => exact .ok congruent
  | function => exact .stuck

lemma Value.Matches.toFunction {a : Value Int32} {b : Value Int} (h : a.Matches b) :
    Agrees Eq a.toFunction b.toFunction := by
  cases h with
  | number _ => exact .stuck
  | function => exact .ok rfl

/-- The functions of the module take congruent arguments to the same results. -/
def FunctionsAgree (source : Functions Int32) (emitted : Functions Int) : Prop :=
  ∀ name, Option.Rel (fun run run' => ∀ args : List Int,
    Agrees (fun w t => t = w.toInt) (run (args.map Int32.ofInt)) (run' args))
    (source name) (emitted name)

lemma FunctionsAgree.isSome_eq {source : Functions Int32} {emitted : Functions Int}
    (h : FunctionsAgree source emitted) (name : String) :
    (source name).isSome = (emitted name).isSome := by
  have related := h name
  generalize source name = here, emitted name = there at related
  cases related with
  | some _ => rfl
  | none => rfl

lemma FunctionsAgree.call {source : Functions Int32} {emitted : Functions Int}
    (h : FunctionsAgree source emitted) (name : String) (args : List Int) :
    Agrees (fun w t => t = w.toInt) (source.call name (args.map Int32.ofInt))
      (emitted.call name args) := by
  have related := h name
  unfold Functions.call
  generalize source name = here, emitted name = there at related
  cases related with
  | some runs => exact runs args
  | none => exact .stuck

section Simulation

variable {functionNames : List String} {names : Nat → String} {count : Nat} {starts : Nat → Int}
  {source : Functions Int32} {emitted : Functions Int}

/-! ## Expressions -/

/-- An identifier reads the nearest frame on one side and the variable of its site on the other. -/
lemma Holds.agrees_ident (functions : FunctionsAgree source emitted)
    {sites : Frames Nat} {next : Nat} {frames : Frames Int32} {env : Env}
    (holds : Holds functionNames names count starts sites next frames env) {name : String}
    {r : Referent} (means : Referent.ofSource? functionNames sites name = some r) (span : Span) :
    Agrees (fun a b => a.1.Matches b.1 ∧
      Holds functionNames names count starts sites next a.2 b.2)
      ((Source.Expr.ident name span).eval source frames)
      ((Estree.Expr.ident (r.identifier names)).eval emitted env) := by
  rcases Referent.ofSource?_eq_some means with ⟨site, found, rfl⟩ | ⟨absent, member, rfl⟩
  · obtain ⟨w, t, here, there, congruent⟩ := holds.read found
    have called : (Referent.site site).identifier names = names site := rfl
    simp only [called, Source.Expr.eval, Estree.Expr.eval, here, there]
    exact .ok ⟨.number congruent, holds⟩
  · have called : (Referent.function name).identifier names = name := rfl
    simp only [called, Source.Expr.eval, Estree.Expr.eval, holds.read_none absent,
      holds.hidden name member, functions.isSome_eq name]
    by_cases known : (emitted name).isSome = true
    · rw [if_pos known, if_pos known]
      exact .ok ⟨.function, holds⟩
    · rw [if_neg known, if_neg known]
      exact .stuck

/-- Writing a number to what an identifier stands for: to a variable, or not at all. -/
lemma Holds.agrees_write (layout : NamesApart functionNames names count)
    {sites : Frames Nat} {next : Nat} {frames : Frames Int32} {env : Env}
    (holds : Holds functionNames names count starts sites next frames env) {name : String}
    {r : Referent} (means : Referent.ofSource? functionNames sites name = some r) {w : Int32}
    {t : Int} (congruent : Int32.ofInt t = w) :
    Agrees (fun a b => a.1.Matches b.1 ∧
      Holds functionNames names count starts sites next a.2 b.2)
      (match frames.write name w with
        | some frames => .ok (Value.number w, frames)
        | none => .error .stuck)
      (if (env (r.identifier names)).isSome then
          .ok (Value.number t, env.put (r.identifier names) t)
        else .error .stuck) := by
  rcases Referent.ofSource?_eq_some means with ⟨site, found, rfl⟩ | ⟨absent, member, rfl⟩
  · obtain ⟨written, wrote, after⟩ := holds.write layout found congruent
    obtain ⟨_, _, _, there, _⟩ := holds.read found
    have called : (Referent.site site).identifier names = names site := rfl
    simp only [called, wrote, there, Option.isSome_some, if_true]
    exact .ok ⟨.number congruent, after⟩
  · have called : (Referent.function name).identifier names = name := rfl
    simp only [called, Frames.write_none holds.stored w absent, holds.hidden name member,
      Option.isSome_none, Bool.false_eq_true, if_false]
    exact .stuck

mutual

theorem ExprMirror.agrees (layout : NamesApart functionNames names count)
    (functions : FunctionsAgree source emitted) {sites : Frames Nat} {next : Nat} :
    ∀ {e : Source.Expr} {x : Estree.Expr}, ExprMirror functionNames names sites e x →
      ∀ {frames : Frames Int32} {env : Env},
        Holds functionNames names count starts sites next frames env →
        Agrees (fun a b => a.1.Matches b.1 ∧
          Holds functionNames names count starts sites next a.2 b.2)
          (e.eval source frames) (x.eval emitted env)
  | _, _, .const read same, frames, env, holds => by
    simp only [Source.Expr.eval, Estree.Expr.eval, read, same]
    exact .ok ⟨.number Int32.ofInt_eq_ofNat, holds⟩
  | _, _, .ident means, frames, env, holds => holds.agrees_ident functions means _
  | _, _, .add hl hr, frames, env, holds => by
    simp only [Source.Expr.eval, Estree.Expr.eval]
    refine (hl.agrees layout functions holds).bind ?_
    rintro ⟨a, frames⟩ ⟨b, env⟩ ⟨left, holds⟩
    refine left.toNumber.bind ?_
    rintro w t first
    refine (hr.agrees layout functions holds).bind ?_
    rintro ⟨a, frames⟩ ⟨b, env⟩ ⟨right, holds⟩
    refine right.toNumber.bind ?_
    rintro v s second
    refine .ok ⟨.number ?_, holds⟩
    rw [Estree.BinaryOp.apply, Int32.ofInt_add, first, second]
  | _, _, .assign hl hr, frames, env, holds => by
    cases hl with
    | ident means =>
      simp only [Source.Expr.eval, Estree.Expr.eval]
      refine (hr.agrees layout functions holds).bind ?_
      rintro ⟨a, frames⟩ ⟨b, env⟩ ⟨value, holds⟩
      refine value.toNumber.bind ?_
      intro w t congruent
      exact holds.agrees_write layout means congruent
    | const _ _ => simpa only [Source.Expr.eval, Estree.Expr.eval] using .stuck
    | add _ _ => simpa only [Source.Expr.eval, Estree.Expr.eval] using .stuck
    | assign _ _ => simpa only [Source.Expr.eval, Estree.Expr.eval] using .stuck
    | call _ _ => simpa only [Source.Expr.eval, Estree.Expr.eval] using .stuck
  | _, _, .call hc has, frames, env, holds => by
    simp only [Source.Expr.eval, Estree.Expr.eval]
    refine (hc.agrees layout functions holds).bind ?_
    rintro ⟨a, frames⟩ ⟨b, env⟩ ⟨callee, holds⟩
    refine callee.toFunction.bind ?_
    rintro f _ rfl
    refine (has.agrees layout functions holds).bind ?_
    rintro ⟨_, frames⟩ ⟨ts, env⟩ ⟨rfl, holds⟩
    refine (functions.call f ts).bind ?_
    rintro w _ rfl
    exact .ok ⟨.number (Int32.ofInt_toInt w), holds⟩

theorem ExprsMirror.agrees (layout : NamesApart functionNames names count)
    (functions : FunctionsAgree source emitted) {sites : Frames Nat} {next : Nat} :
    ∀ {es : List Source.Expr} {xs : List Estree.Expr}, ExprsMirror functionNames names sites es xs →
      ∀ {frames : Frames Int32} {env : Env},
        Holds functionNames names count starts sites next frames env →
        Agrees (fun a b => a.1 = b.1.map Int32.ofInt ∧
          Holds functionNames names count starts sites next a.2 b.2)
          (Source.Expr.evalAll source es frames) (Estree.Expr.evalAll emitted xs env)
  | _, _, .nil, frames, env, holds => .ok ⟨rfl, holds⟩
  | _, _, .cons first others, frames, env, holds => by
    simp only [Source.Expr.evalAll, Estree.Expr.evalAll]
    refine (first.agrees layout functions holds).bind ?_
    rintro ⟨a, frames⟩ ⟨b, env⟩ ⟨value, holds⟩
    refine value.toNumber.bind ?_
    intro w t congruent
    refine (others.agrees layout functions holds).bind ?_
    rintro ⟨ws, frames⟩ ⟨ts, env⟩ ⟨rest, holds⟩
    have all : w :: ws = (t :: ts).map Int32.ofInt := by rw [List.map_cons, congruent, ← rest]
    exact .ok ⟨all, holds⟩

end

/-! ## Statements -/

/-- Both runs go on, or both return the same number and leave the function. -/
inductive Finishes (goesOn : Frames Int32 → Env → Prop) :
    Option Int32 × Frames Int32 → Option Int × Env → Prop
  | falls {frames : Frames Int32} {env : Env} (holds : goesOn frames env) :
      Finishes goesOn (none, frames) (none, env)
  | returns {w : Int32} {frames : Frames Int32} {env : Env} :
      Finishes goesOn (some w, frames) (some w.toInt, env)

/-- Taking an integer into the signed range gives the word it is congruent to. -/
lemma combineBits_zero_eq_toInt (t : Int) :
    Estree.combineBits t 0 = (Int32.ofInt t).toInt :=
  (Estree.combineBits_zero t).trans Int32.toInt_ofInt.symm

/-- A returned value is reduced to the word that the source returns. -/
lemma Returned.agrees {x r : Estree.Expr} (h : Returned x r)
    {keeps goesOn : Frames Int32 → Env → Prop}
    {value : Except Halt (Value Int32 × Frames Int32)} {env : Env}
    (agrees : Agrees (fun a b => a.1.Matches b.1 ∧ keeps a.2 b.2) value (x.eval emitted env)) :
    Agrees (Finishes goesOn)
      (do
        let (w, frames) ← value
        let w ← w.toNumber
        .ok (some w, frames))
      ((Estree.Stmt.ret (some r)).exec emitted env) := by
  cases h with
  | @bare literal low high =>
    rw [Estree.Expr.eval] at agrees
    cases agrees with
    | @ok a _ related =>
      obtain ⟨v, frames⟩ := a
      obtain ⟨matched, _⟩ := related
      cases matched with
      | @number w _ congruent =>
        have unchanged : literal.toInt = w.toInt := by
          rw [← congruent, Int32.toInt_ofInt_of_le low high]
        simp only [Estree.Stmt.exec, Estree.Expr.eval, unchanged]
        exact .ok .returns
  | coerced =>
    simp only [Estree.Stmt.exec, Typed.coerceSigned, Estree.Expr.eval, bind_assoc]
    refine agrees.bind ?_
    rintro ⟨a, frames⟩ ⟨b, env⟩ ⟨value, _⟩
    refine Agrees.bind value.toNumber ?_
    rintro w t rfl
    change Agrees _ _ (.ok (some (Estree.combineBits t 0), env))
    rw [combineBits_zero_eq_toInt]
    exact .ok .returns

/-- The values that declarators start with, at the sites from `next` on. -/
def StartsFrom (starts : Nat → Int) (next : Nat) (declarators : List Source.Declarator) : Prop :=
  ∀ j d, declarators[j]? = some d → ∃ n : Nat, d.Starts n ∧ starts (next + j) = n

lemma StartsFrom.append_iff {next : Nat} {first second : List Source.Declarator} :
    StartsFrom starts next (first ++ second) ↔
      StartsFrom starts next first ∧ StartsFrom starts (next + first.length) second := by
  constructor
  · intro h
    refine ⟨fun j d at_j => h j d ?_, fun j d at_j => ?_⟩
    · rw [List.getElem?_append_left (List.getElem?_eq_some_iff.mp at_j).1, at_j]
    · have shifted := h (first.length + j) d (by simpa [List.getElem?_append] using at_j)
      rwa [← Nat.add_assoc] at shifted
  · rintro ⟨left, right⟩ j d at_j
    rcases Nat.lt_or_ge j first.length with before | after
    · exact left j d (by rwa [List.getElem?_append_left before] at at_j)
    · rw [List.getElem?_append_right after] at at_j
      have shifted := right _ d at_j
      rwa [Nat.add_assoc, Nat.add_sub_cancel' after] at shifted

/-- The entries of declarators are the values that their sites start with. -/
lemma Source.Declarator.entries_ok {next : Nat} {declarators : List Source.Declarator}
    (h : StartsFrom starts next declarators) :
    ∃ entries, Declarator.entries declarators = .ok entries ∧
      List.Forall₂ (fun site entry => site.1 = entry.1 ∧ Int32.ofInt (starts site.2) = entry.2)
        ((declarators.map (·.name)).zipIdx next) entries := by
  induction declarators generalizing next with
  | nil => exact ⟨[], rfl, .nil⟩
  | cons d rest ih =>
    obtain ⟨n, ⟨initial, _⟩, start⟩ := h 0 d rfl
    have later : StartsFrom starts (next + 1) rest := by
      intro j d at_j
      rw [Nat.add_right_comm, Nat.add_assoc]
      exact h (j + 1) d at_j
    obtain ⟨entries, run, related⟩ := ih later
    refine ⟨(d.name, Int32.ofNat n) :: entries, ?_, .cons ⟨rfl, ?_⟩ related⟩
    · simp only [Declarator.entries, initial, run]
      rfl
    · rw [← Nat.add_zero next, start, Int32.ofInt_eq_ofNat]

/-- Entering a block: the frame for its declarators holds what their sites start with. -/
lemma Holds.enter {sites : Frames Nat} {next : Nat} {frames : Frames Int32} {env : Env}
    (holds : Holds functionNames names count starts sites next frames env)
    {declarators : List Source.Declarator} (initial : StartsFrom starts next declarators)
    (room : next + declarators.length ≤ count) :
    ∃ entries, Source.Declarator.entries declarators = .ok entries ∧
      Holds functionNames names count starts
        (siteFrame next (declarators.map (·.name)) :: sites) (next + declarators.length)
        (entries.reverse :: frames) env := by
  obtain ⟨entries, run, related⟩ := Source.Declarator.entries_ok initial
  refine ⟨entries, run, ?_, ?_, holds.hidden, ?_, ?_, room⟩
  · have waiting : ∀ site ∈ (declarators.map (·.name)).zipIdx next,
        env (names site.2) = some (starts site.2) := by
      intro site member
      obtain ⟨low, high, _⟩ := List.mem_zipIdx member
      rw [List.length_map] at high
      exact holds.pending site.2 low (by omega)
    refine .cons (List.forall₂_reverse_iff.mpr ?_) holds.stored
    refine ((List.forall₂_and_left _ _).mpr ⟨waiting, related⟩).imp ?_
    rintro site entry ⟨read, key, congruent⟩
    exact ⟨key, _, read, congruent⟩
  · intro i later bound
    exact holds.pending i (by omega) bound
  · simpa using holds.within.push (declarators.map (·.name))
  · rw [Frames.entries_cons, siteFrame_sites, List.nodup_append]
    refine ⟨List.nodup_reverse.mpr List.nodup_range', holds.unshared, ?_⟩
    intro i here j there same
    rw [List.mem_reverse, List.mem_range'_1] at here
    have below := holds.within j there
    omega

/-- Leaving a block removes its frame. -/
lemma Holds.leave {site : List (String × Nat)} {sites : Frames Nat} {next : Nat}
    {frames : Frames Int32} {env : Env}
    (holds : Holds functionNames names count starts (site :: sites) next frames env) :
    Holds functionNames names count starts sites next frames.tail env := by
  obtain ⟨stored, pending, hidden, within, unshared, room⟩ := holds
  rw [Frames.entries_cons, List.nodup_append] at unshared
  cases stored with
  | cons _ rest =>
    refine ⟨rest, pending, hidden, fun i member => within i ?_, unshared.2.1, room⟩
    rw [Frames.entries_cons]
    exact List.mem_append_right _ member

/-- A block agrees with its statements, run in the same environment, when its statements do once its
frame is there. -/
lemma Holds.agrees_block (block : Source.Block) {xs : List Estree.Stmt} {sites : Frames Nat}
    {next : Nat} {frames : Frames Int32} {env : Env}
    (holds : Holds functionNames names count starts sites next frames env)
    (initial : StartsFrom starts next block.declarators)
    (room : next + block.declarators.length ≤ count)
    (body : ∀ {frames : Frames Int32},
      Holds functionNames names count starts
        (siteFrame next ((Source.declaratorsOf block.decls).map (·.name)) :: sites)
        (next + (Source.declaratorsOf block.decls).length) frames env →
      StartsFrom starts (next + (Source.declaratorsOf block.decls).length)
        (Source.Stmt.declaratorsAll block.stmts) →
      Agrees (Finishes (Holds functionNames names count starts
          (siteFrame next ((Source.declaratorsOf block.decls).map (·.name)) :: sites)
          (next + block.declarators.length)))
        (Source.Stmt.execAll source block.stmts frames) (Estree.Stmt.execAll emitted xs env)) :
    Agrees (Finishes (Holds functionNames names count starts sites
        (next + block.declarators.length)))
      (block.exec source frames) (Estree.Stmt.execAll emitted xs env) := by
  obtain ⟨decls, stmts, span⟩ := block
  have width : (Source.declaratorsOf decls).length ≤
      (Source.Block.declarators ⟨decls, stmts, span⟩).length := by
    simp [Source.Block.declarators]
  obtain ⟨top, inside⟩ := StartsFrom.append_iff.mp initial
  obtain ⟨entries, run, entered⟩ := holds.enter top (by omega)
  simp only [Source.Block.exec, run]
  refine (body entered inside).bind_left ?_
  rintro _ _ (@⟨frames, env, holds⟩ | @⟨w, frames, env⟩)
  · exact .ok (.falls holds.leave)
  · exact .ok .returns

mutual

theorem StmtMirror.agrees (layout : NamesApart functionNames names count)
    (functions : FunctionsAgree source emitted) :
    ∀ {sites : Frames Nat} {next : Nat} {stmt : Source.Stmt} {x : Estree.Stmt},
      StmtMirror functionNames names sites next stmt x →
      ∀ {frames : Frames Int32} {env : Env},
        Holds functionNames names count starts sites next frames env →
        StartsFrom starts next stmt.declarators → next + stmt.declarators.length ≤ count →
        Agrees (Finishes
            (Holds functionNames names count starts sites (next + stmt.declarators.length)))
          (stmt.exec source frames) (x.exec emitted env)
  | _, _, _, _, .expr value, frames, env, holds, _, _ => by
    simp only [Source.Stmt.exec, Estree.Stmt.exec]
    refine (value.agrees layout functions holds).bind ?_
    rintro ⟨a, frames⟩ ⟨b, env⟩ ⟨_, holds⟩
    exact .ok (.falls holds)
  | _, _, _, _, .ret value returned, frames, env, holds, _, _ => by
    rw [Source.Stmt.exec]
    exact returned.agrees (value.agrees layout functions holds)
  | _, next, .block ⟨decls, stmts, inner⟩ _, _, .block body, frames, env, holds, initial, room => by
    simp only [Source.Stmt.exec, Estree.Stmt.exec]
    refine holds.agrees_block ⟨decls, stmts, inner⟩ initial room fun entered inside => ?_
    simp only [Source.Stmt.declarators, Source.Block.declarators, List.length_append,
      ← Nat.add_assoc] at room ⊢
    exact body.agrees layout functions entered inside room

theorem StmtsMirror.agrees (layout : NamesApart functionNames names count)
    (functions : FunctionsAgree source emitted) :
    ∀ {sites : Frames Nat} {next : Nat} {stmts : List Source.Stmt} {xs : List Estree.Stmt},
      StmtsMirror functionNames names sites next stmts xs →
      ∀ {frames : Frames Int32} {env : Env},
        Holds functionNames names count starts sites next frames env →
        StartsFrom starts next (Source.Stmt.declaratorsAll stmts) →
        next + (Source.Stmt.declaratorsAll stmts).length ≤ count →
        Agrees (Finishes (Holds functionNames names count starts sites
            (next + (Source.Stmt.declaratorsAll stmts).length)))
          (Source.Stmt.execAll source stmts frames) (Estree.Stmt.execAll emitted xs env)
  | _, _, _, _, .nil, frames, env, holds, _, _ => .ok (.falls holds)
  | _, next, stmt :: rest, _, .cons first others, frames, env, holds, initial, room => by
    simp only [Source.Stmt.declaratorsAll, List.length_append] at initial room ⊢
    obtain ⟨here, later⟩ := StartsFrom.append_iff.mp initial
    simp only [Source.Stmt.execAll, Estree.Stmt.execAll]
    refine (first.agrees layout functions holds here (by omega)).bind ?_
    rintro _ _ (@⟨frames, env, holds⟩ | @⟨w, frames, env⟩)
    · rw [← Nat.add_assoc]
      exact others.agrees layout functions holds later (by omega)
    · exact .ok .returns

end

end Simulation

end MiniC
