import RecordFilter.Filter
import RecordFilter.Proofs.Parts
import RecordFilter.Proofs.RoundTrip
import RecordFilter.Proofs.Sql.Meaning

/-!
# Two ways to apply a filter

The generated fragment of a filter, read back and decided for the row of a record,
beside the evaluation of the filter in memory.  Where nothing is missing both decide
the same.  Where something is, a predicate without negations selects the record if
and only if it holds in memory once the comparisons that a database takes otherwise
are replaced by its decisions.

    p.NothingMissing → p.selection = some b and p.evaluate = .ok b      (exists_decision)
    p.Positive → p.decided.evaluate = .ok b and (p.selection = some true ↔ b = true)
                                                                        (exists_decided)
-/

namespace RecordFilter

/-! ## Values -/

namespace Value

variable {v w : Value}

theorem isVoid_eq_isNull (h : v.isLost = false) : v.isVoid = v.isNull := by
  rw [isVoid, h, Bool.or_false]

theorem isNull_of_not_isVoid (h : v.isVoid = false) : v.isNull = false :=
  (Bool.or_eq_false_iff.1 h).1

theorem isVoid_of_isLost (h : v.isLost = true) : v.isVoid = true := by
  rw [isVoid, h, Bool.or_true]

/-- Equal values are blank together. -/
theorem isBlank_of_strictEq (h : w.strictEq v = true) : w.isBlank = v.isBlank := by
  cases w with
  | null =>
    cases v with
    | null => rfl
    | _ => simp [strictEq, same] at h
  | string s =>
    cases v with
    | string t =>
      have hs : s = t := by simpa [strictEq, same] using h
      rw [hs]
    | _ => simp [strictEq, same] at h
  | _ =>
    cases v with
    | null => simp [strictEq, same] at h
    | string => simp [strictEq, same] at h
    | _ => rfl

theorem isFinite_of_equal {x y : Binary64} (h : x.equal y = true) : x.isFinite = y.isFinite := by
  cases x with
  | nan => cases h
  | infinite a => cases y with
    | finite => cases a <;> cases h
    | _ => rfl
  | finite => cases y with
    | nan => cases h
    | infinite b => cases b <;> cases h
    | finite => rfl

/-- Equal values of one type are void together. -/
theorem isVoid_of_strictEq (hl : Listable v w) (h : w.strictEq v = true) :
    w.isVoid = v.isVoid := by
  cases hl with
  | null_left =>
    cases w with
    | null => rfl
    | _ => simp [strictEq, same] at h
  | null_right =>
    cases v with
    | null => rfl
    | _ => simp [strictEq, same] at h
  | same hs =>
    cases hs with
    | text | integer | boolean => rfl
    | number x y =>
      show (!y.isFinite) = !x.isFinite
      rw [isFinite_of_equal h]
  | text_left s hne =>
    rw [Sql.strictEq_text_right s hne] at h
    cases h
  | text_right s hne =>
    rw [Sql.strictEq_text_left s hne] at h
    cases h

end Value

namespace Sql

variable {d : Dialect} {v w : Value}

/-- An entry of a list is found where both values are there and equal. -/
theorem relate_equal_eq_true (h : Listable v w) (hv : v.IsScalar) (hw : w.IsScalar) :
    (image d v).relate .equal (image d w) = some true ↔ v.isVoid = false ∧ w.strictEq v = true := by
  cases hvn : v.isVoid with
  | true =>
    rw [image_eq_null hv hvn, relate_null_left]
    simp
  | false =>
    cases hwn : w.isVoid with
    | true =>
      rw [image_eq_null hw hwn, relate_null_right]
      refine iff_of_false nofun ?_
      rintro ⟨-, he⟩
      rw [Value.isVoid_of_strictEq h he, hvn] at hwn
      cases hwn
    | false =>
      rw [relate_equal h hv hw hvn hwn]
      simp

end Sql

namespace Predicate

variable {d : Dialect} {session : Variables} {record : Record} {p : Predicate}

/-! ## Evaluating operands -/

theorem isLeaf_of_isOperand (h : p.IsOperand) : p.isLeaf = true := by
  cases p with
  | field | var | string | integer | float | boolean | null => rfl
  | _ => exact absurd h id

theorem leafValue_of_isLeaf (h : p.isLeaf = true) :
    p.leafValue session record = .ok (p.operandValue session record) := by
  cases p with
  | field | var | string | integer | float | boolean | null => rfl
  | _ => cases h

theorem leafValue_eq (h : p.IsOperand) :
    p.leafValue session record = .ok (p.operandValue session record) :=
  leafValue_of_isLeaf (isLeaf_of_isOperand h)

theorem add_var (raw : String) (e : Entered) :
    e.add (var raw) ((var raw).operandValue session record) =
      ⟨e.columns, (var raw).entryValues session record ++ e.constants⟩ := by
  simp only [entryValues, operandValue]
  cases resolveVariable raw session <;> rfl

theorem entered_of_isLeaf {items : List Predicate} (h : ∀ p ∈ items, p.isLeaf = true) :
    entered session record items =
      .ok ⟨columnValues session record items, constantValues session record items⟩ := by
  induction items with
  | nil => rfl
  | cons p ps ih =>
    obtain ⟨hp, hps⟩ := List.forall_mem_cons.1 h
    have hadd : Entered.add ⟨columnValues session record ps, constantValues session record ps⟩ p
        (p.operandValue session record) =
        ⟨columnValues session record (p :: ps), constantValues session record (p :: ps)⟩ := by
      cases p with
      | var raw => exact add_var raw _
      | field | string | integer | float | boolean | null => rfl
      | _ => cases hp
    simp only [entered, leafValue_of_isLeaf hp, ih hps]
    show Except.ok _ = _
    rw [hadd]

theorem entered_eq_ok {items : List Predicate} (h : ∀ p ∈ items, p.IsOperand) :
    entered session record items =
      .ok ⟨columnValues session record items, constantValues session record items⟩ :=
  entered_of_isLeaf fun p hp => isLeaf_of_isOperand (h p hp)

theorem mem_listedValues {items : List Predicate} {w : Value} :
    w ∈ listedValues session record items ↔
      w ∈ columnValues session record items ∨
        w ∈ constantValues session record items ∧ w.isBlank = false := by
  simp only [listedValues, columnValues, constantValues, List.mem_flatMap, List.mem_filter]
  constructor
  · rintro ⟨item, hi, hw, hb⟩
    cases hf : item.isField with
    | true => exact .inl ⟨item, ⟨hi, hf⟩, hw⟩
    | false => exact .inr ⟨⟨item, ⟨hi, by rw [hf]; rfl⟩, hw⟩, by simpa [hf] using hb⟩
  · rintro (⟨item, ⟨hi, hf⟩, hw⟩ | ⟨⟨item, ⟨hi, -⟩, hw⟩, hb⟩)
    · exact ⟨item, hi, hw, by simp [hf]⟩
    · exact ⟨item, hi, hw, by simp [hb]⟩

theorem of_mem_listedValues {items : List Predicate} {w : Value}
    (h : w ∈ listedValues session record items) :
    ∃ item ∈ items, w ∈ item.entryValues session record ∧
      (item.isField = true ∨ w.isBlank = false) := by
  obtain ⟨item, hi, hw⟩ := List.mem_flatMap.1 h
  obtain ⟨hw, hb⟩ := List.mem_filter.1 hw
  exact ⟨item, hi, hw, by simpa using hb⟩

/-! ## Memberships -/

/-- A missing value is in a list that has a blank constant. -/
theorem membershipHolds_of_isNull {left : Predicate} {items : List Predicate}
    (hl : left.IsOperand) (hi : ∀ p ∈ items, p.IsOperand)
    (hv : (left.operandValue session record).isNull = true) :
    membershipHolds session record left (.list items) =
      .ok ((constantValues session record items).any Value.isBlank) := by
  simp only [membershipHolds, leafValue_eq hl, entered_eq_ok hi]
  rw [Value.eq_null_of_isNull hv]
  rfl

/-- Any other value is in a list that has an equal entry, or a blank constant if it is empty. -/
theorem membershipHolds_of_not_isNull {left : Predicate} {items : List Predicate}
    (hl : left.IsOperand) (hi : ∀ p ∈ items, p.IsOperand)
    (hv : (left.operandValue session record).isNull = false) :
    membershipHolds session record left (.list items) =
      .ok (((constantValues session record items).any Value.isBlank &&
          (left.operandValue session record).isBlank) ||
        (listedValues session record items).any
          fun w => w.strictEq (left.operandValue session record)) := by
  simp only [membershipHolds, leafValue_eq hl, entered_eq_ok hi]
  show Except.ok (Entered.has _ _) = _
  generalize left.operandValue session record = v at *
  congr 1
  rw [Entered.has, hv, Bool.eq_iff_iff]
  cases hb : v.isBlank with
  | true =>
    simp only [Bool.not_false, Bool.true_and, if_true, Bool.or_eq_true, List.any_eq_true,
      Bool.and_true, mem_listedValues]
    constructor
    · rintro (⟨w, hw, he⟩ | h)
      · exact .inr ⟨w, .inl hw, he⟩
      · exact .inl h
    · rintro (h | ⟨w, hw | ⟨-, hwb⟩, he⟩)
      · exact .inr h
      · exact .inl ⟨w, hw, he⟩
      · rw [Value.isBlank_of_strictEq he, hb] at hwb
        cases hwb
  | false =>
    simp only [Bool.not_false, Bool.true_and, Bool.false_eq_true, if_false, Bool.or_eq_true,
      List.any_eq_true, Bool.and_false, false_or, mem_listedValues]
    constructor
    · rintro (⟨w, hw, he⟩ | ⟨w, hw, he⟩)
      · exact ⟨w, .inl hw, he⟩
      · exact ⟨w, .inr ⟨hw, by rw [Value.isBlank_of_strictEq he, hb]⟩, he⟩
    · rintro ⟨w, hw | ⟨hw, -⟩, he⟩
      · exact .inl ⟨w, hw, he⟩
      · exact .inr ⟨w, hw, he⟩

/-- Among values that are there, the decision of a database is never unknown. -/
theorem membershipTruth_of_not_isVoid {v : Value} {listed : List Value} (blank : Bool)
    (hv : v.IsScalar) (hn : v.isVoid = false)
    (hl : ∀ w ∈ listed, Listable v w ∧ w.IsScalar ∧ w.isVoid = false) :
    membershipTruth d v listed blank =
      some ((blank && v.isBlank) || listed.any fun w => w.strictEq v) := by
  have hlist : (listed.map fun w => (Sql.image d v).relate .equal (Sql.image d w)) =
      listed.map fun w => some (w.strictEq v) := by
    apply List.map_congr_left
    intro w hw
    obtain ⟨hw, hs, hwn⟩ := hl w hw
    exact Sql.relate_equal hw hv hs hn hwn
  unfold membershipTruth
  simp only [hlist, Sql.Truth.any_map_some]
  cases blank with
  | true =>
    rw [if_pos rfl, Sql.Truth.or_some, hn, Bool.false_or, Bool.true_and]
  | false =>
    rw [if_neg Bool.false_ne_true, Bool.false_and, Bool.false_or]

/-- A database finds a value in a list where an entry equals it, or where it is missing or empty and
some constant is blank. -/
theorem membershipTruth_eq_true_iff {v : Value} {listed : List Value} (blank : Bool)
    (hv : v.IsScalar) (hl : ∀ w ∈ listed, Listable v w ∧ w.IsScalar) :
    membershipTruth d v listed blank = some true ↔
      (blank = true ∧ (v.isVoid || v.isBlank) = true) ∨
        v.isVoid = false ∧ ∃ w ∈ listed, w.strictEq v = true := by
  have hlist : Sql.Truth.any (listed.map fun w =>
      (Sql.image d v).relate .equal (Sql.image d w)) = some true ↔
      v.isVoid = false ∧ ∃ w ∈ listed, w.strictEq v = true := by
    rw [Sql.Truth.any_eq_true, List.mem_map]
    constructor
    · rintro ⟨w, hw, he⟩
      obtain ⟨hn, hs⟩ := (Sql.relate_equal_eq_true (hl w hw).1 hv (hl w hw).2).1 he
      exact ⟨hn, w, hw, hs⟩
    · rintro ⟨hn, w, hw, hs⟩
      exact ⟨w, hw, (Sql.relate_equal_eq_true (hl w hw).1 hv (hl w hw).2).2 ⟨hn, hs⟩⟩
  unfold membershipTruth
  cases blank with
  | true =>
    simp only [if_true, Sql.Truth.or_eq_true, Option.some.injEq, hlist, true_and]
  | false =>
    simp only [Bool.false_eq_true, if_false, hlist, false_and, false_or]

/-! ## Comparisons -/

theorem comparisonTruth_of_not_isVoid (d : Dialect) (op : CompareOp) (v : Value) {w : Value}
    (h : w.isVoid = false) (column : Bool) :
    comparisonTruth d op v w column =
      (Sql.image d v).relate (op.relation?.getD .equal) (Sql.image d w) := by
  unfold comparisonTruth
  rw [h, Bool.and_false, if_neg Bool.false_ne_true]

/-- Values of one type that are there compare alike. -/
theorem exists_comparison_of_sameType {v w : Value} {op : CompareOp} (h : SameType v w)
    (ho : op.relation?.isSome = true) (hv : v.isVoid = false) (hw : w.isVoid = false)
    (column : Bool) :
    ∃ b, comparisonTruth d op v w column = some b ∧ comparisonHolds op v w = .ok b := by
  obtain ⟨r, hr⟩ := Option.isSome_iff_exists.1 ho
  obtain ⟨o, hvo, he, hio⟩ := Sql.exists_order h hv hw d
  refine ⟨r.admits o, ?_, Sql.comparisonHolds_of_order hr hvo he⟩
  rw [comparisonTruth_of_not_isVoid d op v hw, Sql.relate_of_order hio, hr]
  rfl

/-- In memory a missing value equals the missing value alone, and has no place in any order. -/
theorem comparisonHolds_null_left {op : CompareOp} (ho : op.relation?.isSome = true)
    (hne : op ≠ .notEqual) (w : Value) :
    comparisonHolds op .null w = .ok (op == .equal && w.isNull) := by
  cases op with
  | equal =>
    show Except.ok (Value.null.looseEq w) = _
    rw [Value.looseEq_null_left]
    rfl
  | notEqual => exact absurd rfl hne
  | like | ilike => cases ho
  | _ => rfl

theorem comparisonHolds_null_right {op : CompareOp} (ho : op.relation?.isSome = true)
    (hne : op ≠ .notEqual) (v : Value) :
    comparisonHolds op v .null = .ok (op == .equal && v.isNull) := by
  have hv : v.order? .null = none := by cases v <;> rfl
  cases op with
  | equal =>
    show Except.ok (v.looseEq .null) = _
    rw [Value.looseEq_null_right]
    rfl
  | notEqual => exact absurd rfl hne
  | like | ilike => cases ho
  | _ =>
    simp only [comparisonHolds, hv]
    rfl

/-- Where a side is void, a database finds `=` true of two void sides alone, the right one being no
column. -/
theorem comparisonTruth_of_isVoid {v w : Value} {op : CompareOp}
    (hne : op ≠ .notEqual) (hv : v.IsScalar) (hw : w.IsScalar) (column : Bool)
    (h : v.isVoid = true ∨ w.isVoid = true) :
    comparisonTruth d op v w column = some true ↔
      (op == .equal && !column && v.isVoid && w.isVoid) = true := by
  have hnull : (Sql.image d v).relate (op.relation?.getD .equal) (Sql.image d w) = none := by
    rcases h with h | h
    · rw [Sql.image_eq_null hv h, Sql.relate_null_left]
    · rw [Sql.image_eq_null hw h, Sql.relate_null_right]
  unfold comparisonTruth
  rw [hnull]
  cases column with
  | true => simp
  | false =>
    cases hwn : w.isVoid with
    | true =>
      cases op with
      | equal => simp
      | notEqual => exact absurd rfl hne
      | _ => simp
    | false => simp

/-! ## Nothing missing -/

/-- The predicates whose values are all there, but for constants that ask for a missing value and for
blank entries of lists. -/
def NothingMissing (session : Variables) (record : Record) : Predicate → Prop
  | compare op left right =>
    ((left.operandValue session record).isVoid = false ∧
        (right.operandValue session record).isVoid = false) ∨
      ((op = .equal ∨ op = .notEqual) ∧ (left.operandValue session record).isLost = false ∧
        right.isField = false ∧ right.operandValue session record = .null)
  | isIn left (list items) =>
    (left.operandValue session record).isVoid = false ∧
      ∀ item ∈ items, ∀ w ∈ item.entryValues session record,
        w.isVoid = true → item.isField = false ∧ w = .null
  | not inner => inner.NothingMissing session record
  | join _ left right => left.NothingMissing session record ∧ right.NothingMissing session record
  | _ => True

theorem evaluate_compare {left right : Predicate} (op : CompareOp) (hl : left.IsOperand)
    (hr : right.IsOperand) :
    (compare op left right).evaluate session record =
      comparisonHolds op (left.operandValue session record)
        (right.operandValue session record) := by
  simp only [evaluate, leafValue_eq hl, leafValue_eq hr]
  rfl

theorem evaluate_not {inner : Predicate} {b : Bool} (h : inner.evaluate session record = .ok b) :
    (not inner).evaluate session record = .ok !b := by
  simp only [evaluate, h]
  rfl

theorem evaluate_join {left right : Predicate} {a b : Bool} (op : JoinOp)
    (hl : left.evaluate session record = .ok a) (hr : right.evaluate session record = .ok b) :
    (join op left right).evaluate session record =
      .ok (match op with
        | .and => a && b
        | .or => a || b) := by
  simp only [evaluate, hl, hr]
  rfl

/-- A constant on the right that is missing asks both whether the left value is missing. -/
theorem exists_comparison_null {v : Value} {op : CompareOp} (h : op = .equal ∨ op = .notEqual)
    (hv : v.isLost = false) :
    ∃ b, comparisonTruth d op v .null false = some b ∧ comparisonHolds op v .null = .ok b := by
  rcases h with rfl | rfl
  · refine ⟨v.isNull, ?_, congrArg Except.ok (Value.looseEq_null_right v)⟩
    rw [← Value.isVoid_eq_isNull hv]
    rfl
  · refine ⟨!v.isNull, ?_, congrArg (fun b => Except.ok !b) (Value.looseEq_null_right v)⟩
    rw [← Value.isVoid_eq_isNull hv]
    rfl

/-- A value that is there is found in a list by a database and in memory alike, if no column of the
list is missing. -/
theorem exists_decision_isIn {left : Predicate} {items : List Predicate} (hl : left.IsOperand)
    (hi : ∀ p ∈ items, p.IsOperand) (hc : (isIn left (list items)).Comparable session record)
    (hn : (isIn left (list items)).NothingMissing session record) :
    ∃ b, (isIn left (list items)).selection d session record = some b ∧
      membershipHolds session record left (.list items) = .ok b := by
  obtain ⟨hlp, hip⟩ := hc
  obtain ⟨hv, hw⟩ := hn
  refine ⟨_, ?_, membershipHolds_of_not_isNull hl hi (Value.isNull_of_not_isVoid hv)⟩
  rw [selection]
  refine membershipTruth_of_not_isVoid _ hlp.1 hv fun w hm => ?_
  obtain ⟨item, hit, hwi, hb⟩ := of_mem_listedValues hm
  refine ⟨(hip item hit).2 w hwi, (hip item hit).1.1 w hwi, ?_⟩
  -- a constant that is void is `null`, and blank constants are not compared with
  cases hvoid : w.isVoid with
  | false => rfl
  | true =>
    obtain ⟨hf, rfl⟩ := hw item hit w hwi hvoid
    rcases hb with hb | hb
    · rw [hf] at hb
      cases hb
    · cases hb

/-- Where nothing is missing, a database decides what evaluation in memory decides. -/
theorem exists_decision (h : p.Expressible) (hc : p.Comparable session record)
    (hn : p.NothingMissing session record) :
    ∃ b, p.selection d session record = some b ∧ p.evaluate session record = .ok b := by
  induction h with
  | boolean b => exact ⟨b, rfl, rfl⟩
  | @compare op left right hl hr =>
    obtain ⟨ho, -, -, hs⟩ := hc
    rw [evaluate_compare op hl hr, selection]
    rcases hn with ⟨hv, hw⟩ | ⟨he, hv, hf, hw⟩
    · rcases hs with hs | hs | hs
      · rw [hs] at hv
        cases hv
      · rw [hs] at hw
        cases hw
      · exact exists_comparison_of_sameType hs ho hv hw _
    · rw [hf, hw]
      exact exists_comparison_null he hv
  | @isIn left items hl _ hi =>
    exact exists_decision_isIn hl hi hc hn
  | not _ ih =>
    obtain ⟨b, hs, he⟩ := ih hc hn
    refine ⟨!b, ?_, evaluate_not he⟩
    rw [selection, hs]
    rfl
  | join op _ _ ihl ihr =>
    obtain ⟨a, has, hae⟩ := ihl hc.1 hn.1
    obtain ⟨b, hbs, hbe⟩ := ihr hc.2 hn.2
    refine ⟨_, ?_, evaluate_join op hae hbe⟩
    cases op with
    | and => rw [selection, has, hbs, Sql.Truth.and_some]
    | or => rw [selection, has, hbs, Sql.Truth.or_some]

/-! ## Something missing -/

/-- The predicates without negations: no `not` and no `<>`. -/
def Positive : Predicate → Prop
  | compare op _ _ => op ≠ .notEqual
  | not _ => False
  | join _ left right => left.Positive ∧ right.Positive
  | _ => True

/-- What a database makes of a comparison that it takes otherwise than memory does: two missing
values are not equal if the right one is in a column, and a number without digits is missing. -/
def override? (op : CompareOp) (v w : Value) (column : Bool) : Option Bool :=
  if v.isLost || w.isLost then some (op == .equal && !column && v.isVoid && w.isVoid)
  else if op == .equal && column && v.isNull && w.isNull then some false
  else none

/-- A predicate with the comparisons that a database takes otherwise replaced by its decisions. -/
def decided (session : Variables) (record : Record) : Predicate → Predicate
  | compare op left right =>
    match override? op (left.operandValue session record) (right.operandValue session record)
        right.isField with
    | some b => boolean b
    | none => compare op left right
  | isIn left (list items) =>
    if (left.operandValue session record).isLost then
      boolean ((constantValues session record items).any Value.isBlank)
    else isIn left (list items)
  | join op left right => join op (left.decided session record) (right.decided session record)
  | p => p

theorem comparisonTruth_of_override {v w : Value} {op : CompareOp} {column b : Bool}
    (hne : op ≠ .notEqual) (hv : v.IsScalar) (hw : w.IsScalar)
    (h : override? op v w column = some b) :
    comparisonTruth d op v w column = some true ↔ b = true := by
  unfold override? at h
  split at h
  · rename_i hlost
    rw [Bool.or_eq_true] at hlost
    cases h
    exact comparisonTruth_of_isVoid hne hv hw column
      (hlost.imp Value.isVoid_of_isLost Value.isVoid_of_isLost)
  · split at h
    · rename_i hnull
      simp only [Bool.and_eq_true, beq_iff_eq] at hnull
      obtain ⟨⟨⟨-, rfl⟩, hvn⟩, -⟩ := hnull
      cases h
      rw [comparisonTruth_of_isVoid hne hv hw true (.inl (by rw [Value.isVoid, hvn]; rfl))]
      simp
    · cases h

theorem comparisonTruth_of_not_override {v w : Value} {op : CompareOp} {column : Bool}
    (ho : op.relation?.isSome = true) (hne : op ≠ .notEqual) (hv : v.IsScalar) (hw : w.IsScalar)
    (hs : v = .null ∨ w = .null ∨ SameType v w) (h : override? op v w column = none) :
    ∃ b, comparisonHolds op v w = .ok b ∧
      (comparisonTruth d op v w column = some true ↔ b = true) := by
  unfold override? at h
  split at h
  · cases h
  rename_i hlost
  rw [Bool.not_eq_true, Bool.or_eq_false_iff] at hlost
  split at h
  · cases h
  rename_i hnull
  have hvn := Value.isVoid_eq_isNull hlost.1
  have hwn := Value.isVoid_eq_isNull hlost.2
  by_cases hvoid : v.isVoid = true ∨ w.isVoid = true
  · rw [comparisonTruth_of_isVoid hne hv hw column hvoid, hvn, hwn]
    rw [hvn, hwn] at hvoid
    rcases hvoid with hvoid | hvoid
    · cases Value.eq_null_of_isNull hvoid
      refine ⟨_, comparisonHolds_null_left ho hne w, ?_⟩
      revert hnull
      cases column <;> cases w.isNull <;> cases (op == .equal) <;> simp [Value.isNull]
    · cases Value.eq_null_of_isNull hvoid
      refine ⟨_, comparisonHolds_null_right ho hne v, ?_⟩
      revert hnull
      cases column <;> cases v.isNull <;> cases (op == .equal) <;> simp [Value.isNull]
  · rw [not_or, Bool.not_eq_true, Bool.not_eq_true] at hvoid
    obtain ⟨hvv, hwv⟩ := hvoid
    have hs : SameType v w := by
      rcases hs with rfl | rfl | hs
      · cases hvv
      · cases hwv
      · exact hs
    obtain ⟨b, ht, hb⟩ := exists_comparison_of_sameType (d := d) hs ho hvv hwv column
    refine ⟨b, hb, ?_⟩
    rw [ht, Option.some.injEq]

theorem exists_comparisonHolds {op : CompareOp} (ho : op.relation?.isSome = true) (v w : Value) :
    ∃ b, comparisonHolds op v w = .ok b := by
  cases op with
  | like | ilike => cases ho
  | _ => exact ⟨_, rfl⟩

/-- A comparable predicate has a truth value in memory. -/
theorem exists_evaluate (h : p.Expressible) (hc : p.Comparable session record) :
    ∃ b, p.evaluate session record = .ok b := by
  induction h with
  | boolean b => exact ⟨b, rfl⟩
  | compare op hl hr =>
    rw [evaluate_compare op hl hr]
    exact exists_comparisonHolds hc.1 _ _
  | @isIn left items hl _ hi =>
    rw [evaluate]
    cases hn : (left.operandValue session record).isNull with
    | true => exact ⟨_, membershipHolds_of_isNull hl hi hn⟩
    | false => exact ⟨_, membershipHolds_of_not_isNull hl hi hn⟩
  | not _ ih =>
    obtain ⟨b, hb⟩ := ih hc
    exact ⟨!b, evaluate_not hb⟩
  | join op _ _ ihl ihr =>
    obtain ⟨a, ha⟩ := ihl hc.1
    obtain ⟨b, hb⟩ := ihr hc.2
    exact ⟨_, evaluate_join op ha hb⟩

theorem selection_isIn_eq_true_iff {left : Predicate} {items : List Predicate}
    (hc : (isIn left (list items)).Comparable session record) :
    (isIn left (list items)).selection d session record = some true ↔
      ((constantValues session record items).any Value.isBlank = true ∧
        ((left.operandValue session record).isVoid || (left.operandValue session record).isBlank) =
          true) ∨
      (left.operandValue session record).isVoid = false ∧
        ∃ w ∈ listedValues session record items,
          w.strictEq (left.operandValue session record) = true := by
  obtain ⟨hlp, hip⟩ := hc
  refine membershipTruth_eq_true_iff _ hlp.1 fun w hw => ?_
  obtain ⟨item, hit, hwi, -⟩ := of_mem_listedValues hw
  exact ⟨(hip item hit).2 w hwi, (hip item hit).1.1 w hwi⟩

/-- A database finds a value in a list where memory does, unless the value has no digits. -/
theorem exists_membership_decided {left : Predicate} {items : List Predicate}
    (hl : left.IsOperand) (hi : ∀ p ∈ items, p.IsOperand)
    (hc : (isIn left (list items)).Comparable session record)
    (hv : (left.operandValue session record).isLost = false) :
    ∃ b, membershipHolds session record left (.list items) = .ok b ∧
      ((isIn left (list items)).selection d session record = some true ↔ b = true) := by
  rw [selection_isIn_eq_true_iff hc, Value.isVoid_eq_isNull hv]
  cases hn : (left.operandValue session record).isNull with
  | true =>
    refine ⟨_, membershipHolds_of_isNull hl hi hn, ?_⟩
    simp
  | false =>
    refine ⟨_, membershipHolds_of_not_isNull hl hi hn, ?_⟩
    simp

/-- Without negations, a database selects what holds in memory once its own decisions are taken. -/
theorem exists_decided (h : p.Expressible) (hc : p.Comparable session record) (hp : p.Positive) :
    ∃ b, (p.decided session record).evaluate session record = .ok b ∧
      (p.selection d session record = some true ↔ b = true) := by
  induction h with
  | boolean b => exact ⟨b, rfl, by rw [selection, Option.some.injEq]⟩
  | @compare op left right hl hr =>
    obtain ⟨ho, hlp, hrp, hs⟩ := hc
    rw [selection, decided]
    split
    · rename_i b hb
      exact ⟨b, rfl, comparisonTruth_of_override hp hlp.1 hrp.1 hb⟩
    · rename_i hb
      rw [evaluate_compare op hl hr]
      exact comparisonTruth_of_not_override ho hp hlp.1 hrp.1 hs hb
  | @isIn left items hl _ hi =>
    rw [decided]
    cases hv : (left.operandValue session record).isLost with
    | false => exact exists_membership_decided hl hi hc hv
    | true =>
      refine ⟨_, rfl, ?_⟩
      rw [selection_isIn_eq_true_iff hc, Value.isVoid_of_isLost hv]
      simp
  | not _ _ => exact absurd hp id
  | @join op left right _ _ ihl ihr =>
    obtain ⟨a, hae, has⟩ := ihl hc.1 hp.1
    obtain ⟨b, hbe, hbs⟩ := ihr hc.2 hp.2
    refine ⟨_, evaluate_join op hae hbe, ?_⟩
    cases op with
    | and => rw [selection, Sql.Truth.and_eq_true, has, hbs, Bool.and_eq_true]
    | or => rw [selection, Sql.Truth.or_eq_true, has, hbs, Bool.or_eq_true]

end Predicate

/-! ## Filters -/

namespace Filter

variable {s : String} {f : Filter} {g : Generator} {record : Record} {row : Sql.Row}

theorem root_of_parse (h : parse s = .ok f) : Predicate.parse s = .ok f.root ∧ f.params = .empty := by
  unfold parse at h
  cases hp : Predicate.parse s with
  | error e =>
    rw [hp] at h
    cases h
  | ok p =>
    rw [hp] at h
    cases h
    exact ⟨rfl, rfl⟩

theorem parse_of_parse {p : Predicate} (h : Predicate.parse s = .ok p) :
    parse s = .ok (ofPredicate p) := by
  rw [parse, h]
  rfl

/-- The fragment of a filter that was read is a text that a database can read, and it decides what
the values of the record decide. -/
theorem exists_fragment (h : parse s = .ok f) (hrow : g.MapsTo record row)
    (hc : f.root.Comparable g.session record) :
    ∃ fragment c, f.fragment g = .ok fragment ∧ Sql.read fragment.text = some c ∧
      c.truth row = f.root.selection g.dialect g.session record := by
  obtain ⟨hp, hparams⟩ := root_of_parse h
  obtain ⟨c, hgen, hplain, htruth⟩ :=
    Generator.exists_generate (d := g.dialect) hrow (Predicate.expressible_of_parse hp).1 hc
  refine ⟨⟨c.text g.dialect, .empty⟩, c.search g.dialect, ?_, Sql.read_text hplain _, htruth⟩
  simp only [fragment, Generator.fragment, hgen, hparams]
  rfl

/-- A generator without variables and without a map of its fields. -/
def plainGenerator : Generator := ⟨"records", Table.empty, Table.empty, none, .sql⟩

/-- Where nothing is missing, the fragment of a filter is true or false as the filter is in memory. -/
theorem truth_fragment_eq_evaluate (h : parse s = .ok f) (hg : g.fieldMap = Table.empty)
    (hc : f.root.Comparable g.session record) (hn : f.root.NothingMissing g.session record) :
    ∃ fragment c b, f.fragment g = .ok fragment ∧ Sql.read fragment.text = some c ∧
      c.truth (Sql.rowOf record) = some b ∧ f.evaluate g.session record = .ok b := by
  obtain ⟨fragment, c, hf, hr, ht⟩ := exists_fragment h (Generator.mapsTo_rowOf hg record) hc
  obtain ⟨b, hs, he⟩ := Predicate.exists_decision (d := g.dialect)
    (Predicate.expressible_of_parse (root_of_parse h).1).1 hc hn
  exact ⟨fragment, c, b, hf, hr, ht.trans hs, he⟩

/-- `not [n] < 3 & [a] in ('x', null)` -/
def listTree : Predicate :=
  .join .and (.not (.compare .less (.field "n") (.integer 3)))
    (.isIn (.field "a") (.list [.string "x", .null]))

def listRecord : Record := Table.ofList [("a", .string "x"), ("n", .integer 5)]

theorem parse_listTree : parse listTree.text = .ok (ofPredicate listTree) := by
  refine parse_of_parse (Predicate.parse_text ?_ (by decide) (by decide) ?_)
  · exact .join .and (.not (.compare .less ⟨by decide, by decide⟩ trivial))
      (.isIn ⟨by decide, by decide⟩ (by simp)
        (List.forall_mem_cons.2 ⟨trivial, List.forall_mem_singleton.2 trivial⟩))
  · rw [Predicate.height_eq_levels]
    decide

theorem comparable_listTree : listTree.Comparable Table.empty listRecord := by
  refine ⟨⟨rfl, ⟨trivial, fun _ => trivial⟩, ⟨trivial, nofun⟩, .inr (.inr (.integer 5 3))⟩,
    ⟨trivial, fun _ => trivial⟩, List.forall_mem_cons.2 ⟨⟨⟨?_, nofun⟩, ?_⟩,
      List.forall_mem_singleton.2 ⟨⟨?_, nofun⟩, ?_⟩⟩⟩
  · exact List.forall_mem_singleton.2 trivial
  · exact List.forall_mem_singleton.2 (.same (.text "x" "x"))
  · exact List.forall_mem_singleton.2 trivial
  · exact List.forall_mem_singleton.2 (.null_right (.string "x"))

theorem nothingMissing_listTree : listTree.NothingMissing Table.empty listRecord := by
  refine ⟨.inl ⟨rfl, rfl⟩, rfl, List.forall_mem_cons.2 ⟨?_, List.forall_mem_singleton.2 ?_⟩⟩
  · exact List.forall_mem_singleton.2 nofun
  · exact List.forall_mem_singleton.2 fun _ => ⟨rfl, rfl⟩

/-- A filter with a negation and a blank entry, on a record where nothing is missing. -/
theorem truth_fragment_listTree :
    parse listTree.text = .ok (ofPredicate listTree) ∧
      ∃ fragment c b, (ofPredicate listTree).fragment plainGenerator = .ok fragment ∧
        Sql.read fragment.text = some c ∧ c.truth (Sql.rowOf listRecord) = some b ∧
        (ofPredicate listTree).evaluate Table.empty listRecord = .ok b :=
  ⟨parse_listTree, truth_fragment_eq_evaluate (g := plainGenerator) parse_listTree rfl
    comparable_listTree nothingMissing_listTree⟩

/-- Without negations, the fragment of a filter selects the row of a record if and only if the filter
holds in memory with the decisions of a database put in; so both agree exactly where these change
nothing. -/
theorem selected_iff_decided (h : parse s = .ok f) (hrow : g.MapsTo record row)
    (hc : f.root.Comparable g.session record) (hp : f.root.Positive) :
    ∃ fragment c, f.fragment g = .ok fragment ∧ Sql.read fragment.text = some c ∧
      (c.truth row = some true ↔
        (f.root.decided g.session record).evaluate g.session record = .ok true) ∧
      ((c.truth row = some true ↔ f.evaluate g.session record = .ok true) ↔
        (f.root.decided g.session record).evaluate g.session record =
          f.evaluate g.session record) := by
  obtain ⟨fragment, c, hf, hr, ht⟩ := exists_fragment h hrow hc
  obtain ⟨he, -⟩ := Predicate.expressible_of_parse (root_of_parse h).1
  obtain ⟨b, hb, hs⟩ := Predicate.exists_decided (d := g.dialect) he hc hp
  obtain ⟨a, ha⟩ := Predicate.exists_evaluate he hc
  have ha : f.evaluate g.session record = .ok a := ha
  refine ⟨fragment, c, hf, hr, ?_, ?_⟩
  · rw [ht, hs, hb, Except.ok.injEq]
  · rw [ht, hs, hb, ha, Except.ok.injEq, Except.ok.injEq]
    exact Bool.eq_iff_iff.symm

/-- `null = [a]` -/
def missingTree : Predicate := .compare .equal .null (.field "a")

theorem parse_missingTree : parse missingTree.text = .ok (ofPredicate missingTree) := by
  refine parse_of_parse (Predicate.parse_text ?_ (by decide) (by decide) ?_)
  · exact .compare .equal trivial ⟨by decide, by decide⟩
  · rw [Predicate.height_eq_levels]
    decide

/-- A missing value is null in memory, but a database does not select it if the column stands on the
right. -/
theorem not_selected_missingTree :
    parse missingTree.text = .ok (ofPredicate missingTree) ∧
      ∃ fragment c, (ofPredicate missingTree).fragment plainGenerator = .ok fragment ∧
        Sql.read fragment.text = some c ∧ ¬ c.truth (Sql.rowOf Table.empty) = some true ∧
        (ofPredicate missingTree).evaluate Table.empty Table.empty = .ok true := by
  obtain ⟨fragment, c, hf, hr, hs, -⟩ :=
    selected_iff_decided parse_missingTree
      (Generator.mapsTo_rowOf (g := plainGenerator) rfl Table.empty)
      ⟨rfl, ⟨trivial, nofun⟩, ⟨trivial, fun _ => trivial⟩, .inl rfl⟩ nofun
  have hholds : (ofPredicate missingTree).evaluate .empty .empty = .ok true :=
    congrArg Except.ok (Value.looseEq_null_left .null)
  refine ⟨parse_missingTree, fragment, c, hf, hr, ?_, hholds⟩
  rw [hs]
  exact nofun

end Filter

end RecordFilter
