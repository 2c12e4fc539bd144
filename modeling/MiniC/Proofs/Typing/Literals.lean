import MiniC.Proofs.Text.Accumulate
import MiniC.Proofs.Typing.Operands

/-!
# Integer literals

A constant is read as the number that its digits stand for, if it is made of ASCII digits only and
the number is below the limit of 64 bits with a sign. There is no other way to a literal of a typed
tree, apart from the zero of a variable without an initial value, so literals are never negative.
-/

namespace MiniC

/-! ## Reading a constant -/

section Literal

variable {text : String} {place : Location}

/-- What is no numeral is unsupported. -/
lemma literal_of_not_isNumeral (other : ∀ n, ¬ IsNumeral text n) :
    literal text place = .error (.unsupported ("integer literal '" ++ text ++ "'") place) := by
  have unread : Decimal.toNat? text = none :=
    Option.eq_none_iff_forall_ne_some.mpr fun n read => other n (Decimal.toNat?_eq_some_iff.mp read)
  rw [literal, unread]

/-- A number beyond the limit is unsupported. -/
lemma literal_of_large {n : Nat} (numeral : IsNumeral text n) (large : 0x7fffffffffffffff < n) :
    literal text place =
      .error (.unsupported ("integer literal '" ++ text ++ "' out of range") place) := by
  have half : UInt64.size / 2 = 0x8000000000000000 := rfl
  rw [literal, Decimal.toNat?_eq_some_iff.mpr numeral, half]
  exact if_neg (by omega)

/-- A number up to the limit is the value of its numerals, and nothing else has a value. -/
lemma literal_ok_iff_isNumeral {v : Int64} :
    literal text place = .ok v ↔ ∃ n, IsNumeral text n ∧ n ≤ 0x7fffffffffffffff ∧ v.toInt = n := by
  rw [literal_ok_iff]
  constructor
  · rintro ⟨n, read, small, rfl⟩
    exact ⟨n, Decimal.toNat?_eq_some_iff.mp read, Nat.le_of_lt_succ small,
      Int64.toInt_ofNat_of_lt small⟩
  · rintro ⟨n, numeral, most, same⟩
    have small := Nat.lt_succ_of_le most
    exact ⟨n, Decimal.toNat?_eq_some_iff.mpr numeral, small,
      Int64.toInt_inj.mp ((Int64.toInt_ofNat_of_lt small).trans same.symm)⟩

/-- Reading a numeral digit by digit in 64 bits. -/
lemma IsNumeral.accumulate_eq {n : Nat} (numeral : IsNumeral text n) :
    Decimal.accumulate text.toList 0 =
      if n < 0x8000000000000000 then some (.ofNat n) else none := by
  have run := Decimal.accumulate_ofNat (n := 0) (by decide) text.toList
  have whole : Decimal.valueFrom 0 text.toList = n :=
    (Decimal.value_eq_ofDigits text.toList).trans numeral.2.2.symm
  rwa [whole] at run

/-- Reading digit by digit gives the same value, and gives up at the same texts. -/
lemma literal_ok_iff_accumulate {v : Int64} :
    literal text place = .ok v ↔
      (∃ n, IsNumeral text n) ∧ Decimal.accumulate text.toList 0 = some v := by
  rw [literal_ok_iff]
  constructor
  · rintro ⟨n, read, small, rfl⟩
    have numeral := Decimal.toNat?_eq_some_iff.mp read
    exact ⟨⟨n, numeral⟩, numeral.accumulate_eq.trans (if_pos small)⟩
  · rintro ⟨⟨n, numeral⟩, run⟩
    rw [numeral.accumulate_eq, Option.ite_none_right_eq_some, Option.some.injEq] at run
    exact ⟨n, Decimal.toNat?_eq_some_iff.mpr numeral, run.1, run.2⟩

/-- The decimal text of a number below the limit is read back. -/
lemma literal_ofNat {n : Nat} (small : n < 0x8000000000000000) :
    literal (Decimal.ofNat n) place = .ok (.ofNat n) :=
  literal_ok_iff.mpr ⟨n, Decimal.toNat?_ofNat n, small, rfl⟩

end Literal

/-! ## Literals of typed trees -/

/-- A literal is not negative. Nothing is said of other expressions. -/
def Typed.Expr.NonNegative : Expr → Prop
  | .int value _ => 0 ≤ value.toInt
  | _ => True

lemma Typed.Expr.nonNegative_ofNat {n : Nat} (small : n < 0x8000000000000000) (ty : Ty) :
    (Expr.int (.ofNat n) ty).NonNegative := by
  rw [NonNegative, Int64.toInt_ofNat_of_lt small]
  exact Int.natCast_nonneg n

namespace Source

open Check (State)

mutual

theorem Expr.check_nonNegative {scope : Scope} : ∀ (e : Expr) {typed : Typed.Expr},
    e.check scope = .ok typed → ∀ x ∈ typed.parts, x.NonNegative
  | .const text span, typed, h, x, member => by
    obtain ⟨n, _, small, rfl⟩ := Expr.check_const_ok_iff.mp h
    cases List.mem_singleton.mp member
    exact Typed.Expr.nonNegative_ofNat small .int
  | .ident name span, typed, h, x, member => by
    obtain ⟨b, _, rfl⟩ := Expr.check_ident_ok_iff.mp h
    cases List.mem_singleton.mp member
    trivial
  | .binary op left right span, typed, h, x, member => by
    obtain ⟨_, l, r, hl, hr, _, rfl⟩ := Expr.check_binary_ok_iff.mp h
    rcases List.mem_cons.mp member with rfl | inside
    · trivial
    · rcases List.mem_append.mp inside with here | there
      · exact Expr.check_nonNegative left hl x here
      · exact Expr.check_nonNegative right hr x there
  | .assign op target value span, typed, h, x, member => by
    obtain ⟨_, l, r, hl, _, hr, _, rfl⟩ := Expr.check_assign_ok_iff.mp h
    rcases List.mem_cons.mp member with rfl | inside
    · trivial
    · rcases List.mem_append.mp inside with here | there
      · exact Expr.check_nonNegative target hl x here
      · exact Expr.check_nonNegative value hr x there
  | .call callee args span, typed, h, x, member => by
    obtain ⟨c, _, params, as, hc, _, count, has, rfl⟩ := Expr.check_call_ok_iff.mp h
    rcases List.mem_cons.mp member with rfl | inside
    · trivial
    · rcases List.mem_append.mp inside with here | there
      · exact Expr.check_nonNegative callee hc x here
      · exact Expr.checkArgs_nonNegative args count has x there

theorem Expr.checkArgs_nonNegative {scope : Scope} : ∀ (args : List Expr) {params : List Ty}
    {typed : List Typed.Expr}, params.length = args.length →
      Expr.checkArgs scope params args = .ok typed →
      ∀ x ∈ Typed.Expr.partsAll typed, x.NonNegative
  | [], params, typed, count, h, x, member => by
    cases List.length_eq_zero_iff.mp count
    cases h
    cases member
  | arg :: args, [], typed, count, h, x, member => by cases count
  | arg :: args, param :: params, typed, count, h, x, member => by
    obtain ⟨a, rest, ha, _, hrest, rfl⟩ := Expr.checkArgs_cons_ok_iff.mp h
    rcases List.mem_append.mp member with here | later
    · exact Expr.check_nonNegative arg ha x here
    · exact Expr.checkArgs_nonNegative args (Nat.succ.inj count) hrest x later

end

lemma Decl.checkAll_nonNegative {decls : List Decl} {s t : State} {typed : List Typed.Declarator}
    (h : Decl.checkAll decls s = .ok typed t) :
    ∀ x ∈ typed.flatMap (·.init.parts), x.NonNegative := by
  intro x member
  obtain ⟨d, listed, inside⟩ := List.mem_flatMap.mp member
  have initialized := forall_of_forall₂ (Decl.checkAll_declares h).1
    (fun _ _ init => Declarator.Initializes.wellTyped init)
  obtain ⟨n, small, made⟩ := initialized d listed
  rw [made] at inside
  cases List.mem_singleton.mp inside
  exact Typed.Expr.nonNegative_ofNat (by omega) .int

mutual

theorem Stmt.check_nonNegative : ∀ (stmt : Stmt) {s t : State} {typed : Typed.Stmt},
    stmt.check s = .ok typed t → ∀ x ∈ typed.exprs, x.NonNegative
  | .expr e span, s, t, typed, h, x, member => by
    obtain ⟨_, checked, rfl, _⟩ := Stmt.check_expr_ok_iff.mp h
    exact Expr.check_nonNegative e checked x member
  | .ret value span, s, t, typed, h, x, member => by
    obtain ⟨e, _, _, checked, _, rfl, _⟩ := Stmt.check_ret_ok_iff.mp h
    exact Expr.check_nonNegative e checked x member
  | .block body span, s, t, typed, h, x, member => by
    obtain ⟨_, _, checked, rfl, _⟩ := Stmt.check_block_ok_iff.mp h
    exact Block.checkHere_nonNegative body checked x member

theorem Stmt.checkAll_nonNegative : ∀ (stmts : List Stmt) {s t : State} {typed : List Typed.Stmt},
    Stmt.checkAll stmts s = .ok typed t → ∀ x ∈ Typed.Stmt.exprsAll typed, x.NonNegative
  | [], s, t, typed, h, x, member => by
    obtain ⟨rfl, _⟩ := Check.pure_ok_iff.mp h
    cases member
  | stmt :: rest, s, t, typed, h, x, member => by
    obtain ⟨_, _, _, hfirst, hrest, rfl⟩ := Stmt.checkAll_cons_ok_iff.mp h
    rcases List.mem_append.mp member with here | later
    · exact Stmt.check_nonNegative stmt hfirst x here
    · exact Stmt.checkAll_nonNegative rest hrest x later

theorem Block.checkHere_nonNegative : ∀ (block : Block) {s t : State} {typed : Typed.Block},
    block.checkHere s = .ok typed t → ∀ x ∈ typed.exprs, x.NonNegative
  | ⟨decls, stmts, span⟩, s, t, typed, h, x, member => by
    obtain ⟨_, _, _, hds, hss, rfl⟩ := Block.checkHere_ok_iff.mp h
    rcases List.mem_append.mp member with init | later
    · exact Decl.checkAll_nonNegative hds x init
    · exact Stmt.checkAll_nonNegative stmts hss x later

end

/-- Whatever was checked before, a checked module has no negative literals. -/
theorem Module.check_nonNegative {m : Module} {s t : State} {typed : Typed.Module}
    (h : m.check s = .ok typed t) : ∀ f ∈ typed.functions, ∀ x ∈ f.body.exprs, x.NonNegative := by
  simp only [Module.check, Check.bind_ok_iff, Check.pure_ok_iff, Check.report_ok_iff] at h
  obtain ⟨declared, r, _, functions, u, hcheck, _, _, _, rfl, _⟩ := h
  refine forall_of_forall₂ (Function.checkAll_forall₂ hcheck) ?_
  rintro d tf ⟨_, _, _, checked⟩
  obtain ⟨_, body, _, _, _, hbody, rfl, _⟩ := Function.check_ok_iff.mp checked
  exact Block.checkHere_nonNegative d.1.body hbody

end Source

/-- A constant is read exactly: it has a value if and only if it is a numeral, digits only and at
least one, of a number up to the limit, and then the value is this number. A reader with 64 bits
that checks each product and each sum gives the same. All other texts are unsupported, at the place
of the constant. So the decimal text of each number up to the limit is read back, and no literal of
a checked module is negative, whatever was checked before it. -/
theorem literal_reads_decimal :
    (∀ (text : String) (place : Location),
      (∀ v, literal text place = .ok v ↔
        ∃ n, IsNumeral text n ∧ n ≤ 0x7fffffffffffffff ∧ v.toInt = n) ∧
      (∀ v, literal text place = .ok v ↔
        (∃ n, IsNumeral text n) ∧ Decimal.accumulate text.toList 0 = some v) ∧
      ((∀ n, ¬ IsNumeral text n) →
        literal text place = .error (.unsupported ("integer literal '" ++ text ++ "'") place)) ∧
      ∀ n, IsNumeral text n → 0x7fffffffffffffff < n → literal text place =
        .error (.unsupported ("integer literal '" ++ text ++ "' out of range") place)) ∧
    (∀ (n : Nat) (place : Location), n < 0x8000000000000000 →
      ∃ v : Int64, v.toInt = n ∧ literal (Decimal.ofNat n) place = .ok v) ∧
    ∀ (m : Source.Module) (s t : Check.State) (typed : Typed.Module), m.check s = .ok typed t →
      ∀ f ∈ typed.functions, ∀ value ty, .int value ty ∈ f.body.exprs → 0 ≤ value.toInt := by
  refine ⟨fun text place => ⟨fun v => literal_ok_iff_isNumeral, fun v => literal_ok_iff_accumulate,
    literal_of_not_isNumeral, fun n => literal_of_large⟩, ?_, ?_⟩
  · intro n place small
    exact ⟨.ofNat n, Int64.toInt_ofNat_of_lt small, literal_ofNat small⟩
  · intro m s t typed checked f member value ty inside
    exact Source.Module.check_nonNegative checked f member _ inside

/-- The greatest number behind zeros, the one after it, a text with a sign, and a module with a
literal. -/
theorem literal_reads_decimal_at_limit :
    literal "0009223372036854775807" .unknown = .ok Int64.maxValue ∧
      literal "9223372036854775808" .unknown = .error (.unsupported
        ("integer literal '" ++ "9223372036854775808" ++ "' out of range") .unknown) ∧
      literal "-1" .unknown =
        .error (.unsupported ("integer literal '" ++ "-1" ++ "'") .unknown) ∧
      (∃ v : Int64, v.toInt = 4294967296 ∧
        literal (Decimal.ofNat 4294967296) .unknown = .ok v) ∧
      ∃ t, Source.Module.functionSum.check .initial = .ok Source.Module.functionSumTyped t ∧
        ∀ f ∈ Source.Module.functionSumTyped.functions, ∀ value ty,
          .int value ty ∈ f.body.exprs → 0 ≤ value.toInt := by
  obtain ⟨reads, back, literals⟩ := literal_reads_decimal
  obtain ⟨accepts, _, _, _⟩ := reads "0009223372036854775807" .unknown
  obtain ⟨_, _, _, large⟩ := reads "9223372036854775808" .unknown
  obtain ⟨_, _, other, _⟩ := reads "-1" .unknown
  have most : IsNumeral "0009223372036854775807" 9223372036854775807 :=
    Decimal.toNat?_eq_some_iff.mp (by decide +kernel)
  have next : IsNumeral "9223372036854775808" 9223372036854775808 :=
    Decimal.toNat?_eq_some_iff.mp (by decide +kernel)
  have signed : ∀ n, ¬ IsNumeral "-1" n := by
    intro n numeral
    have unread : Decimal.toNat? "-1" = none := by decide +kernel
    cases unread.symm.trans (Decimal.toNat?_eq_some_iff.mpr numeral)
  have checked : ∃ t, Source.Module.functionSum.check .initial =
      .ok Source.Module.functionSumTyped t := ⟨_, rfl⟩
  obtain ⟨t, run⟩ := checked
  exact ⟨(accepts _).mpr ⟨_, most, by decide, by decide +kernel⟩, large _ next (by decide),
    other signed, back 4294967296 .unknown (by decide), t, run, literals _ _ t _ run⟩

end MiniC
