import MiniC.Proofs.Check.Run

/-!
# When an expression is accepted

One equivalence for each form of expression: what its parts must satisfy and what typed expression
comes out. Proofs about checked expressions go by recursion on the expression and open each node
with the lemma of its form.
-/

namespace MiniC

lemma literal_ok_iff {text : String} {place : Location} {value : Int64} :
    literal text place = .ok value ↔
      ∃ n, Decimal.toNat? text = some n ∧ n < 0x8000000000000000 ∧ Int64.ofNat n = value := by
  have half : UInt64.size / 2 = 0x8000000000000000 := rfl
  rw [literal, half]
  cases Decimal.toNat? text with
  | none => simp
  | some n =>
    by_cases small : n < 0x8000000000000000
    · simp [small]
    · simp [small]

lemma expectType_ok_iff {expected found : Ty} {place : Location} {u : Unit} :
    expectType expected found place = .ok u ↔ expected = found := by
  by_cases same : expected = found
  · simp [expectType, same]
  · simp [expectType, same]

lemma Ty.signature?_eq_some_iff {ty result : Ty} {params : List Ty} :
    ty.signature? = some (result, params) ↔ ty = .func result params := by
  cases ty <;> simp [signature?]

namespace Source.Expr

variable {scope : Scope} {span : Span} {typed : Typed.Expr}

lemma check_const_ok_iff {text : String} :
    (const text span).check scope = .ok typed ↔
      ∃ n, Decimal.toNat? text = some n ∧ n < 0x8000000000000000 ∧
        typed = .int (Int64.ofNat n) .int := by
  rw [check, except_bind_ok_iff]
  simp only [literal_ok_iff]
  constructor
  · rintro ⟨value, ⟨n, hn, small, rfl⟩, made⟩
    exact ⟨n, hn, small, (Except.ok.inj made).symm⟩
  · rintro ⟨n, hn, small, rfl⟩
    exact ⟨_, ⟨n, hn, small, rfl⟩, rfl⟩

lemma check_ident_ok_iff {name : String} :
    (ident name span).check scope = .ok typed ↔
      ∃ b, scope.binding? name = some b ∧ typed = .var b.emitted b.ty := by
  rw [check, Scope.resolve]
  cases scope.binding? name with
  | none => simp [bind, Except.bind]
  | some b => simp [bind, Except.bind, pure, Except.pure, eq_comm]

lemma check_binary_ok_iff {op : BinaryOp} {left right : Expr} :
    (binary op left right span).check scope = .ok typed ↔
      op = .add ∧ ∃ l r, left.check scope = .ok l ∧ right.check scope = .ok r ∧ l.ty = r.ty ∧
        typed = .add l r l.ty := by
  rw [check]
  by_cases plus : op = .add
  · simp only [plus, ne_eq, not_true_eq_false, if_false, except_bind_ok_iff, expectType_ok_iff,
      true_and]
    constructor
    · rintro ⟨l, hl, r, hr, _, same, made⟩
      exact ⟨l, r, hl, hr, same, (Except.ok.inj made).symm⟩
    · rintro ⟨l, r, hl, hr, same, rfl⟩
      exact ⟨l, hl, r, hr, (), same, rfl⟩
  · simp [plus, bind, Except.bind, throw, throwThe, MonadExceptOf.throw]

lemma check_assign_ok_iff {op : AssignOp} {target value : Expr} :
    (assign op target value span).check scope = .ok typed ↔
      op = .plain ∧ ∃ l r, target.check scope = .ok l ∧ l.isAssignable = true ∧
        value.check scope = .ok r ∧ l.ty = r.ty ∧ typed = .assign l r l.ty := by
  rw [check, except_bind_ok_iff]
  constructor
  · rintro ⟨l, hl, run⟩
    by_cases named : l.isAssignable = true
    · by_cases plain : op = .plain
      · simp only [named, plain, Bool.not_true, Bool.false_eq_true, if_false, ne_eq,
          not_true_eq_false, except_bind_ok_iff, expectType_ok_iff] at run
        obtain ⟨r, hr, _, same, made⟩ := run
        exact ⟨plain, l, r, hl, named, hr, same, (Except.ok.inj made).symm⟩
      · simp [named, plain, bind, Except.bind, throw, throwThe, MonadExceptOf.throw] at run
    · simp [named, bind, Except.bind, throw, throwThe, MonadExceptOf.throw] at run
  · rintro ⟨rfl, l, r, hl, named, hr, same, rfl⟩
    refine ⟨l, hl, ?_⟩
    simp only [named, Bool.not_true, Bool.false_eq_true, if_false, ne_eq, not_true_eq_false,
      except_bind_ok_iff, expectType_ok_iff]
    exact ⟨r, hr, (), same, rfl⟩

lemma check_call_ok_iff {callee : Expr} {args : List Expr} :
    (call callee args span).check scope = .ok typed ↔
      ∃ c result params as, callee.check scope = .ok c ∧ c.ty = .func result params ∧
        params.length = args.length ∧ checkArgs scope params args = .ok as ∧
        typed = .call c as result := by
  rw [check, except_bind_ok_iff]
  constructor
  · rintro ⟨c, hc, run⟩
    cases found : c.ty.signature? with
    | none => simp [found, throw, throwThe, MonadExceptOf.throw] at run
    | some signature =>
      obtain ⟨result, params⟩ := signature
      by_cases count : params.length = args.length
      · simp only [found, count, ne_eq, not_true_eq_false, if_false, except_bind_ok_iff] at run
        obtain ⟨as, has, made⟩ := run
        exact ⟨c, result, params, as, hc, Ty.signature?_eq_some_iff.mp found, count, has,
          (Except.ok.inj made).symm⟩
      · simp [found, count, bind, Except.bind, throw, throwThe, MonadExceptOf.throw] at run
  · rintro ⟨c, result, params, as, hc, hty, count, has, rfl⟩
    refine ⟨c, hc, ?_⟩
    rw [Ty.signature?_eq_some_iff.mpr hty]
    simp only [count, ne_eq, not_true_eq_false, if_false, except_bind_ok_iff]
    exact ⟨as, has, rfl⟩

lemma checkArgs_nil : checkArgs scope [] [] = .ok [] := rfl

lemma checkArgs_cons_ok_iff {param : Ty} {params : List Ty} {arg : Expr} {args : List Expr}
    {as : List Typed.Expr} :
    checkArgs scope (param :: params) (arg :: args) = .ok as ↔
      ∃ a rest, arg.check scope = .ok a ∧ param = a.ty ∧ checkArgs scope params args = .ok rest ∧
        as = a :: rest := by
  simp only [checkArgs, except_bind_ok_iff, expectType_ok_iff]
  constructor
  · rintro ⟨a, ha, _, same, rest, hrest, made⟩
    exact ⟨a, rest, ha, same, hrest, (Except.ok.inj made).symm⟩
  · rintro ⟨a, rest, ha, same, hrest, rfl⟩
    exact ⟨a, ha, (), same, rest, hrest, rfl⟩

/-- Only an identifier is checked to something that can be assigned to. -/
lemma isAssignable_check_iff {e : Expr} (h : e.check scope = .ok typed) :
    typed.isAssignable = true ↔ ∃ name span, e = ident name span := by
  cases e with
  | const text span =>
    obtain ⟨n, _, _, rfl⟩ := check_const_ok_iff.mp h
    simp [Typed.Expr.isAssignable]
  | ident name span =>
    obtain ⟨b, _, rfl⟩ := check_ident_ok_iff.mp h
    simp [Typed.Expr.isAssignable]
  | binary op left right span =>
    obtain ⟨_, l, r, _, _, _, rfl⟩ := check_binary_ok_iff.mp h
    simp [Typed.Expr.isAssignable]
  | assign op target value span =>
    obtain ⟨_, l, r, _, _, _, _, rfl⟩ := check_assign_ok_iff.mp h
    simp [Typed.Expr.isAssignable]
  | call callee args span =>
    obtain ⟨c, result, params, as, _, _, _, _, rfl⟩ := check_call_ok_iff.mp h
    simp [Typed.Expr.isAssignable]

/-- Only a constant is checked to a literal. -/
lemma constant?_check_iff {e : Expr} {value : Int64} (h : e.check scope = .ok typed) :
    typed.constant? = some value ↔ ∃ text span n, e = const text span ∧
      Decimal.toNat? text = some n ∧ n < 0x8000000000000000 ∧ Int64.ofNat n = value := by
  cases e with
  | const text span =>
    obtain ⟨n, hn, small, rfl⟩ := check_const_ok_iff.mp h
    simp [Typed.Expr.constant?, hn, small]
  | ident name span =>
    obtain ⟨b, _, rfl⟩ := check_ident_ok_iff.mp h
    simp [Typed.Expr.constant?]
  | binary op left right span =>
    obtain ⟨_, l, r, _, _, _, rfl⟩ := check_binary_ok_iff.mp h
    simp [Typed.Expr.constant?]
  | assign op target value span =>
    obtain ⟨_, l, r, _, _, _, _, rfl⟩ := check_assign_ok_iff.mp h
    simp [Typed.Expr.constant?]
  | call callee args span =>
    obtain ⟨c, result, params, as, _, _, _, _, rfl⟩ := check_call_ok_iff.mp h
    simp [Typed.Expr.constant?]

end Source.Expr

end MiniC
