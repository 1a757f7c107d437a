import RecordFilter.Evaluation
import RecordFilter.Proofs.Sql.Reading
import RecordFilter.Proofs.Value.Symmetry
import RecordFilter.Sql.Generate

/-!
# Values in records and in conditions

What a value becomes in a condition, and that two values of one type compare the same
in both places.  A number that is not finite has no digits, so a condition says `NULL`
for it.

    SameType v w, neither void → v.order? w = some o and
      (image d v).order? (image d w) = some o                              (exists_order)
-/

namespace RecordFilter

/-! ## Types of values -/

/-- Two values of one type. -/
inductive SameType : Value → Value → Prop
  | text (a b : String) : SameType (.string a) (.string b)
  | integer (a b : Int64) : SameType (.integer a) (.integer b)
  | boolean (a b : Bool) : SameType (.boolean a) (.boolean b)
  | number (x y : Binary64) : SameType (.float x) (.float y)

theorem SameType.sameKind {v w : Value} (h : SameType v w) : v.sameKind w = true := by
  cases h <;> rfl

namespace Value

/-- A value that a condition can hold: no array and no object. -/
def IsScalar : Value → Prop
  | array _ => False
  | object _ => False
  | _ => True

/-- What a column of the table holds: texts, whole numbers, or nothing. -/
def IsStored : Value → Prop
  | null => True
  | string _ => True
  | integer _ => True
  | _ => False

/-- A number without digits. -/
def isLost : Value → Bool
  | float x => !x.isFinite
  | _ => false

/-- Whether a condition says `NULL` for a value. -/
def isVoid (v : Value) : Bool := v.isNull || v.isLost

end Value

namespace Sql

/-- The datum of a value in a dialect; a number with a fraction is its shortest digits, if it has
some. -/
def image (d : Dialect) : Value → Datum
  | .boolean b =>
    match d with
    | .sql => .number b.toNat 0
    | .cql => .boolean b
  | .float (.finite negative m) =>
    .number (applySign negative (m.shortest .up).numerator) (m.shortest .up).places
  | v => .ofValue v

variable {d : Dialect} {v w : Value}

theorem image_of_isStored (h : v.IsStored) : image d v = .ofValue v := by
  cases v with
  | null | string | integer => rfl
  | _ => exact absurd h id

theorem image_eq_null_iff (h : v.IsScalar) : image d v = .null ↔ v.isVoid = true := by
  cases v with
  | null => exact iff_of_true rfl rfl
  | boolean b => cases d <;> exact iff_of_false (by simp [image]) Bool.false_ne_true
  | integer n => exact iff_of_false (by simp [image, Datum.ofValue]) Bool.false_ne_true
  | float x =>
    cases x with
    | nan => exact iff_of_true rfl rfl
    | infinite negative => exact iff_of_true rfl rfl
    | finite negative m => exact iff_of_false (by simp [image]) Bool.false_ne_true
  | string s => exact iff_of_false (by simp [image, Datum.ofValue]) Bool.false_ne_true
  | _ => exact absurd h id

theorem image_eq_null (h : v.IsScalar) (hv : v.isVoid = true) : image d v = .null :=
  (image_eq_null_iff h).2 hv

theorem image_ne_null (h : v.IsScalar) (hv : v.isVoid = false) : image d v ≠ .null := by
  intro hn
  rw [(image_eq_null_iff h).1 hn] at hv
  cases hv

/-! ## Comparisons -/

theorem relate_null_left (r : Relation) (a : Datum) : Datum.null.relate r a = none := rfl

theorem relate_null_right (r : Relation) (a : Datum) : a.relate r .null = none := by
  cases a <;> rfl

theorem relate_of_order {a b : Datum} {o : Ordering} (h : a.order? b = some o) (r : Relation) :
    a.relate r b = some (r.admits o) := by
  cases a with
  | null => cases h
  | _ =>
    cases b with
    | null => cases h
    | _ => simp only [Datum.relate, h]

theorem relate_of_order_none {a b : Datum} (ha : a ≠ .null) (hb : b ≠ .null)
    (h : a.order? b = none) (r : Relation) : a.relate r b = some (r == .notEqual) := by
  cases a with
  | null => exact absurd rfl ha
  | _ =>
    cases b with
    | null => exact absurd rfl hb
    | _ => simp only [Datum.relate, h]

/-- A comparison is decided by the order, and equality by whether the order is one of equals. -/
theorem comparisonHolds_of_order {op : CompareOp} {r : Relation} {o : Ordering}
    (hr : op.relation? = some r) (ho : v.order? w = some o) (he : v.looseEq w = o.isEq) :
    Predicate.comparisonHolds op v w = .ok (r.admits o) := by
  cases op <;> cases hr <;> simp only [Predicate.comparisonHolds, ho, he] <;> cases o <;> rfl

theorem exists_finite_of_isVoid {x : Binary64} (h : (Value.float x).isVoid = false) :
    ∃ negative m, x = .finite negative m := by
  cases x with
  | finite negative m => exact ⟨negative, m, rfl⟩
  | _ => cases h

/-- Two values of one type are ordered as their data are, and equal where this is the order of
equals. -/
theorem exists_order (h : SameType v w) (hv : v.isVoid = false) (hw : w.isVoid = false)
    (d : Dialect) :
    ∃ o, v.order? w = some o ∧ v.looseEq w = o.isEq ∧ (image d v).order? (image d w) = some o := by
  rw [Value.looseEq_eq_strictEq h.sameKind]
  cases h with
  | text a b => exact ⟨compareOfLessAndEq a b, rfl, (isEq_compareOfLessAndEq a b).symm, rfl⟩
  | integer a b =>
    refine ⟨compare a.toInt b.toInt, rfl, (isEq_compare_toInt a b).symm, ?_⟩
    show some (compare (a.toInt * (pow10 0 : Nat)) (b.toInt * (pow10 0 : Nat))) = _
    rw [show ((pow10 0 : Nat) : Int) = 1 from rfl, Int.mul_one, Int.mul_one]
  | boolean a b =>
    refine ⟨compare a.toNat b.toNat, ?_, ?_, ?_⟩
    · cases a <;> cases b <;> decide +kernel
    · cases a <;> cases b <;> rfl
    · cases d <;> cases a <;> cases b <;> rfl
  | number x y =>
    obtain ⟨a, m, rfl⟩ := exists_finite_of_isVoid hv
    obtain ⟨b, n, rfl⟩ := exists_finite_of_isVoid hw
    refine ⟨compare (Binary64.signed a m) (Binary64.signed b n), rfl, ?_, ?_⟩
    · exact some_beq_eq (compare (Binary64.signed a m) (Binary64.signed b n))
    · exact congrArg some (compare_shortest a b m n .up)

/-! ## Equality in lists -/

end Sql

/-- A value and an entry of a list that can be told apart or found equal: one is missing, both are of
one type, or one is a text and the other is none. -/
inductive Listable : Value → Value → Prop
  | null_left (w : Value) : Listable .null w
  | null_right (v : Value) : Listable v .null
  | same {v w : Value} : SameType v w → Listable v w
  | text_left (s : String) {w : Value} : (∀ t, w ≠ .string t) → Listable (.string s) w
  | text_right {v : Value} (s : String) : (∀ t, v ≠ .string t) → Listable v (.string s)

namespace Sql

variable {d : Dialect} {v w : Value}

theorem order?_text_left {a : Datum} (s : String) (h : ∀ t, a ≠ .text t) :
    (Datum.text s).order? a = none := by
  cases a with
  | text t => exact absurd rfl (h t)
  | _ => rfl

theorem order?_text_right {a : Datum} (s : String) (h : ∀ t, a ≠ .text t) :
    a.order? (.text s) = none := by
  cases a with
  | text t => exact absurd rfl (h t)
  | _ => rfl

theorem image_ne_text (h : ∀ t, v ≠ .string t) (t : String) : image d v ≠ .text t := by
  cases v with
  | string s => exact absurd rfl (h s)
  | boolean b => cases d <;> simp [image]
  | float x => cases x <;> simp [image, Datum.ofValue]
  | _ => simp [image, Datum.ofValue]

theorem strictEq_text_left (s : String) (h : ∀ t, w ≠ .string t) :
    (Value.string s).strictEq w = false := by
  cases w with
  | string t => exact absurd rfl (h t)
  | _ => rfl

theorem strictEq_text_right (s : String) (h : ∀ t, v ≠ .string t) :
    v.strictEq (.string s) = false := by
  cases v with
  | string t => exact absurd rfl (h t)
  | _ => rfl

/-- A value equals an entry in a condition where it does in memory, unless one of them is void. -/
theorem relate_equal (h : Listable v w) (hv : v.IsScalar) (hw : w.IsScalar)
    (hvn : v.isVoid = false) (hwn : w.isVoid = false) :
    (image d v).relate .equal (image d w) = some (w.strictEq v) := by
  have hin : image d v ≠ .null := image_ne_null hv hvn
  have hjn : image d w ≠ .null := image_ne_null hw hwn
  cases h with
  | null_left => cases hvn
  | null_right => cases hwn
  | same hs =>
    obtain ⟨o, -, he, ho⟩ := exists_order hs hvn hwn d
    rw [relate_of_order ho, w.strictEq_comm v, ← Value.looseEq_eq_strictEq hs.sameKind, he]
    rfl
  | text_left s hne =>
    rw [relate_of_order_none hin hjn (order?_text_left s (image_ne_text hne)),
      strictEq_text_right s hne]
    rfl
  | text_right s hne =>
    rw [relate_of_order_none hin hjn (order?_text_right s (image_ne_text hne)),
      strictEq_text_left s hne]
    rfl

/-- The test for an empty text. -/
theorem relate_empty (hv : v.IsScalar) (hvn : v.isVoid = false) :
    (image d v).relate .equal (.text "") = some v.isBlank := by
  have hin : image d v ≠ .null := image_ne_null hv hvn
  cases v with
  | null => cases hvn
  | string s =>
    rw [relate_of_order (o := compareOfLessAndEq s "") rfl]
    show some (compareOfLessAndEq s "").isEq = some s.isEmpty
    rw [isEq_compareOfLessAndEq, Bool.eq_iff_iff.2 (beq_iff_eq.trans String.isEmpty_iff.symm)]
  | boolean b =>
    rw [relate_of_order_none hin (by simp) (order?_text_right "" (image_ne_text (by simp)))]
    rfl
  | integer n =>
    rw [relate_of_order_none hin (by simp) (order?_text_right "" (image_ne_text (by simp)))]
    rfl
  | float x =>
    rw [relate_of_order_none hin (by simp) (order?_text_right "" (image_ne_text (by simp)))]
    rfl
  | _ => exact absurd hv id

/-! ## Terms -/

theorem intercalate_splitParts (cs : List Char) :
    ".".intercalate ((splitParts '.' cs).map String.ofList) = String.ofList cs := by
  induction cs with
  | nil => rfl
  | cons c cs ih =>
    obtain ⟨part, parts, hp⟩ := List.exists_cons_of_ne_nil (splitParts_ne_nil '.' cs)
    rw [hp] at ih
    by_cases hc : c = '.'
    · rw [splitParts, if_pos hc, hp, List.map_cons, List.map_cons, String.intercalate_cons_cons,
        ← List.map_cons, ih, hc, ← String.toList_inj]
      simp
    · rw [splitParts, if_neg hc, hp]
      cases parts with
      | nil =>
        rw [List.map_singleton, String.intercalate_singleton] at ih ⊢
        rw [← String.toList_inj, String.toList_ofList, String.toList_ofList] at *
        rw [ih]
      | cons q qs =>
        simp only [List.map_cons, String.intercalate_cons_cons] at ih ⊢
        rw [← String.toList_inj] at ih ⊢
        simp only [String.toList_append, String.toList_ofList] at ih ⊢
        rw [← ih]
        rfl

end Sql

end RecordFilter
