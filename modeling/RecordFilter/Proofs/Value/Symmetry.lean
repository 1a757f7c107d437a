import RecordFilter.Evaluation
import RecordFilter.Proofs.Value.Equality
import Mathlib.Data.String.Basic

/-!
# Exchanging the operands of a comparison

Both equalities are symmetric and the order of two values is reversed with them, whatever
their kinds.  An integer and a binary64 number are read alike in either order, and converting
one side at a time ends at the same scalars whichever side is first.

    compareMixed? w v = (compareMixed? v w).map Ordering.swap                     (compareMixed?_swap)
    w.order? v = (v.order? w).map Ordering.swap                                   (order?_swap)
    op.mirror? = some op' → comparisonHolds op v w = comparisonHolds op' w v      (comparisonHolds_mirror)
-/

namespace RecordFilter

theorem compareOfLessAndEq_swap (a b : String) :
    compareOfLessAndEq b a = (compareOfLessAndEq a b).swap := by
  rw [← LinearOrder.compare_eq_compareOfLessAndEq, ← LinearOrder.compare_eq_compareOfLessAndEq]
  exact Std.OrientedOrd.eq_swap

namespace Value

variable {v w : Value}

/-! ## Two numbers -/

theorem orderOf?_swap (x y : Option Binary64) : orderOf? y x = (orderOf? x y).map Ordering.swap := by
  cases x with
  | none => cases y <;> rfl
  | some x =>
    cases y with
    | none => rfl
    | some y => exact Binary64.compare?_swap x y

/-- The order goes by the decimals or by the binary64 numbers of both sides, whichever comes first. -/
theorem compareMixed?_swap (v w : Value) :
    compareMixed? w v = (compareMixed? v w).map Ordering.swap := by
  unfold compareMixed?
  cases v.decimal? with
  | none => cases w.decimal? <;> exact orderOf?_swap v.asBinary64? w.asBinary64?
  | some a =>
    cases w.decimal? with
    | none => exact orderOf?_swap v.asBinary64? w.asBinary64?
    | some b => exact congrArg some (Decimal28.compare_swap a b)

theorem equalMixed_comm (v w : Value) : equalMixed v w = equalMixed w v := by
  rw [equalMixed, equalMixed, compareMixed?_swap v w, map_swap_beq_eq]

theorem equalAsNumbers_eq (v w : Value) :
    v.equalAsNumbers w = (orderOf? v.number? w.number? == some .eq) := by
  unfold equalAsNumbers
  cases v.number? with
  | none => rfl
  | some x => cases w.number? <;> rfl

theorem equalAsNumbers_comm (v w : Value) : v.equalAsNumbers w = w.equalAsNumbers v := by
  rw [equalAsNumbers_eq, equalAsNumbers_eq, orderOf?_swap v.number?, map_swap_beq_eq]

/-! ## Values compared through their numbers -/

/-- Whether two scalars are compared through their numbers: neither is missing, and they are not two
texts or two numbers. -/
def comparedAsNumbers : Value → Value → Bool
  | null, _ => false
  | _, null => false
  | string _, string _ => false
  | integer _, integer _ => false
  | integer _, float _ => false
  | float _, integer _ => false
  | float _, float _ => false
  | _, _ => true

/-- The other pairs: one is missing, or they are two texts or two numbers. -/
inductive ComparedDirectly : Value → Value → Prop
  | nullLeft (w : Value) : ComparedDirectly null w
  | nullRight (v : Value) : ComparedDirectly v null
  | strings (a b : String) : ComparedDirectly (string a) (string b)
  | integers (a b : Int64) : ComparedDirectly (integer a) (integer b)
  | mixed (n : Int64) (x : Binary64) : ComparedDirectly (integer n) (float x)
  | mixedRight (x : Binary64) (n : Int64) : ComparedDirectly (float x) (integer n)
  | floats (x y : Binary64) : ComparedDirectly (float x) (float y)

theorem comparedDirectly_of_not (h : comparedAsNumbers v w = false) : ComparedDirectly v w := by
  cases v <;> cases w <;> first | constructor | cases h

theorem comparedAsNumbers_comm (v w : Value) : comparedAsNumbers v w = comparedAsNumbers w v := by
  cases v <;> cases w <;> rfl

theorem isNull_of_comparedAsNumbers (h : comparedAsNumbers v w = true) :
    v.isNull = false ∧ w.isNull = false := by
  cases v <;> cases w <;> first | exact ⟨rfl, rfl⟩ | cases h

theorem order?_eq_orderOf? (h : comparedAsNumbers v w = true) :
    v.order? w = orderOf? v.number? w.number? := by
  cases v <;> cases w <;> cases h <;> rfl

/-! ## Order -/

/-- The order of two values is reversed with them. -/
theorem order?_swap (v w : Value) : w.order? v = (v.order? w).map Ordering.swap := by
  cases hc : comparedAsNumbers v w with
  | true =>
    have hc' := hc
    rw [comparedAsNumbers_comm] at hc'
    rw [order?_eq_orderOf? hc, order?_eq_orderOf? hc', orderOf?_swap]
  | false =>
    cases comparedDirectly_of_not hc with
    | nullLeft w => cases w <;> rfl
    | nullRight v => cases v <;> rfl
    | strings a b => exact congrArg some (compareOfLessAndEq_swap a b)
    | integers a b => exact congrArg some (Int.compare_swap a.toInt b.toInt).symm
    | mixed n x => exact compareMixed?_swap (integer n) (float x)
    | mixedRight x n => exact compareMixed?_swap (float x) (integer n)
    | floats x y => exact Binary64.compare?_swap x y

/-! ## Equality -/

theorem looseEqScalar_eq_equalAsNumbers (h : comparedAsNumbers v w = true) :
    v.looseEqScalar w = v.equalAsNumbers w := by
  cases v <;> cases w <;> cases h <;> rfl

theorem looseEqScalar_comm (hv : v.isNull = false) (hw : w.isNull = false) :
    v.looseEqScalar w = w.looseEqScalar v := by
  cases hc : comparedAsNumbers v w with
  | true =>
    have hc' := hc
    rw [comparedAsNumbers_comm] at hc'
    rw [looseEqScalar_eq_equalAsNumbers hc, looseEqScalar_eq_equalAsNumbers hc',
      equalAsNumbers_comm]
  | false =>
    cases comparedDirectly_of_not hc with
    | nullLeft w => cases hv
    | nullRight v => cases hw
    | strings a b => exact Bool.beq_comm
    | integers a b => exact Bool.beq_comm
    | mixed n x => exact equalMixed_comm (integer n) (float x)
    | mixedRight x n => exact equalMixed_comm (float x) (integer n)
    | floats x y => exact Binary64.equal_comm x y

mutual

theorem strictEq_comm : ∀ v w : Value, v.strictEq w = w.strictEq v
  | null, w => by cases w <;> rfl
  | boolean a, w => by
    cases w with
    | boolean b => exact same_comm (boolean a) (boolean b)
    | _ => rfl
  | integer a, w => by
    cases w with
    | integer b => exact Bool.beq_comm
    | float y => exact equalMixed_comm (integer a) (float y)
    | _ => rfl
  | float x, w => by
    cases w with
    | integer b => exact equalMixed_comm (float x) (integer b)
    | float y => exact Binary64.equal_comm x y
    | _ => rfl
  | string a, w => by
    cases w with
    | string b => exact same_comm (string a) (string b)
    | _ => rfl
  | array vs, w => by
    cases w with
    | array ws => exact strictEqItems_comm vs ws
    | _ => rfl
  | object vs, w => by
    cases w with
    | object ws => exact same_comm (object vs) (object ws)
    | _ => rfl

theorem strictEqItems_comm : ∀ vs ws : List Value, strictEqItems vs ws = strictEqItems ws vs
  | [], ws => by cases ws <;> rfl
  | v :: vs, ws => by
    cases ws with
    | nil => rfl
    | cons w ws =>
      rw [strictEqItems, strictEqItems, strictEq_comm v w, strictEqItems_comm vs ws]

end

/-- Whether two values are of one kind and compared without the scalars in their place. -/
def comparedInKind : Value → Value → Bool
  | boolean _, boolean _ => true
  | array _, array _ => true
  | object _, object _ => true
  | _, _ => false

theorem sameKind_of_comparedInKind (h : comparedInKind v w = true) : sameKind v w = true := by
  cases v <;> cases w <;> first | rfl | cases h

theorem comparedInKind_comm (v w : Value) : comparedInKind v w = comparedInKind w v := by
  cases v <;> cases w <;> rfl

theorem isNull_scalar (v : Value) : v.scalar.isNull = v.isNull := by
  cases v <;> rfl

theorem scalar_scalar (v : Value) : v.scalar.scalar = v.scalar := by
  cases v <;> rfl

/-- What is left when all conversions are made stays. -/
theorem scalar_eq_self (hb : ∀ b, v ≠ boolean b) (ha : ∀ vs, v ≠ array vs) (ho : ∀ ms, v ≠ object ms) :
    v.scalar = v := by
  cases v with
  | boolean b => exact absurd rfl (hb b)
  | array vs => exact absurd rfl (ha vs)
  | object ms => exact absurd rfl (ho ms)
  | _ => rfl

theorem comparedInKind_scalar (v w : Value) : comparedInKind v w.scalar = false := by
  cases v <;> cases w <;> rfl

theorem scalar_comparedInKind (v w : Value) : comparedInKind v.scalar w = false := by
  rw [comparedInKind_comm, comparedInKind_scalar]

/-- Converting one side at a time comes to the same as converting both at once. -/
theorem looseEq_eq_looseEqScalar (hv : v.isNull = false) (hw : w.isNull = false)
    (h : comparedInKind v w = false) : v.looseEq w = v.scalar.looseEqScalar w.scalar := by
  fun_induction looseEq v w
  case case1 | case2 => cases hv
  case case3 => cases hw
  case case4 | case5 | case6 => cases h
  -- the left side is converted
  case case7 ih | case9 ih | case10 ih =>
    rw [ih rfl hw (scalar_comparedInKind _ _), scalar_scalar]
  -- the right side is converted
  case case8 ih | case11 ih | case12 ih =>
    rw [ih hv rfl (comparedInKind_scalar _ _), scalar_scalar]
  case case13 hvb hwb hva hvo hwa hwo =>
    rw [scalar_eq_self hvb hva hvo, scalar_eq_self hwb hwa hwo]

theorem looseEq_comm (v w : Value) : v.looseEq w = w.looseEq v := by
  cases hv : v.isNull with
  | true => rw [eq_null_of_isNull hv, looseEq_null_left, looseEq_null_right]
  | false =>
    cases hw : w.isNull with
    | true => rw [eq_null_of_isNull hw, looseEq_null_left, looseEq_null_right]
    | false =>
      cases hc : comparedInKind v w with
      | true =>
        have hk := sameKind_of_comparedInKind hc
        have hk' := hk
        rw [sameKind_comm] at hk'
        rw [looseEq_eq_strictEq hk, looseEq_eq_strictEq hk', strictEq_comm]
      | false =>
        have hc' := hc
        rw [comparedInKind_comm] at hc'
        rw [looseEq_eq_looseEqScalar hv hw hc, looseEq_eq_looseEqScalar hw hv hc',
          looseEqScalar_comm (by rw [isNull_scalar, hv]) (by rw [isNull_scalar, hw])]

end Value

/-! ## Comparisons -/

/-- The comparison that says the same of its operands in the other order; patterns have none. -/
def CompareOp.mirror? : CompareOp → Option CompareOp
  | equal => some equal
  | notEqual => some notEqual
  | less => some greater
  | lessEqual => some greaterEqual
  | greater => some less
  | greaterEqual => some lessEqual
  | like => none
  | ilike => none

namespace Predicate

variable {op op' : CompareOp}

theorem comparisonHolds_mirror (h : op.mirror? = some op') (v w : Value) :
    comparisonHolds op v w = comparisonHolds op' w v := by
  cases op <;> cases h <;>
    simp only [comparisonHolds, v.looseEq_comm w, v.order?_swap w] <;>
    rcases v.order? w with _ | _ | _ | _ <;> rfl

/-- A comparison and its mirror image hold for the same records, and fail for the same. -/
theorem evaluate_mirror (h : op.mirror? = some op') (session : Variables) (record : Record)
    (left right : Predicate) :
    (evaluate session record (compare op left right)).toOption =
      (evaluate session record (compare op' right left)).toOption := by
  simp only [evaluate]
  cases leafValue session record left with
  | error e => cases leafValue session record right <;> rfl
  | ok v =>
    cases leafValue session record right with
    | error e => rfl
    | ok w => exact congrArg Except.toOption (comparisonHolds_mirror h v w)

/-- Comparisons do not depend on the order in which the operands are written. -/
theorem comparison_exchange (v w : Value) :
    v.looseEq w = w.looseEq v ∧ v.strictEq w = w.strictEq v ∧
    w.order? v = (v.order? w).map Ordering.swap ∧
    comparisonHolds .equal v w = comparisonHolds .equal w v ∧
    comparisonHolds .notEqual v w = comparisonHolds .notEqual w v ∧
    comparisonHolds .less v w = comparisonHolds .greater w v ∧
    comparisonHolds .lessEqual v w = comparisonHolds .greaterEqual w v :=
  ⟨v.looseEq_comm w, v.strictEq_comm w, v.order?_swap w, comparisonHolds_mirror rfl v w,
    comparisonHolds_mirror rfl v w, comparisonHolds_mirror rfl v w, comparisonHolds_mirror rfl v w⟩

end Predicate

end RecordFilter
