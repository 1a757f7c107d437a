import RecordFilter.Value.Comparison

/-!
# Equality of values

`same` is symmetric and transitive.  It is not reflexive: `nan` equals nothing, and no value that
holds it somewhere equals itself.  Where two values are of one kind, or two numbers, loose equality is
the strict one.
-/

namespace RecordFilter

/-! ## Numbers -/

/-- Reversing the order keeps equals equal. -/
theorem map_swap_beq_eq (o : Option Ordering) : (o.map Ordering.swap == some .eq) = (o == some .eq) := by
  rcases o with _ | _ | _ | _ <;> rfl

theorem some_beq_eq (o : Ordering) : (some o == some .eq) = o.isEq := by
  cases o <;> rfl

theorem Decimal28.compare_swap (a b : Decimal28) : b.compare a = (a.compare b).swap :=
  (Int.compare_swap (a.signed * pow10 b.places) (b.signed * pow10 a.places)).symm

namespace Binary64

theorem compare?_swap (x y : Binary64) : y.compare? x = (x.compare? y).map Ordering.swap := by
  cases x with
  | nan => cases y <;> rfl
  | infinite a =>
    cases y with
    | nan => rfl
    | infinite b => cases a <;> cases b <;> rfl
    | finite b n => cases a <;> rfl
  | finite a m =>
    cases y with
    | nan => rfl
    | infinite b => cases b <;> rfl
    | finite b n => exact congrArg some (Int.compare_swap (signed a m) (signed b n)).symm

theorem equal_comm (x y : Binary64) : x.equal y = y.equal x := by
  rw [equal, equal, compare?_swap x y, map_swap_beq_eq]

theorem equal_finite_iff {a b : Bool} {m n : Magnitude} :
    (finite a m).equal (finite b n) = true ↔ signed a m = signed b n := by
  show (some (compare (signed a m) (signed b n)) == some .eq) = true ↔ _
  rw [beq_iff_eq, Option.some.injEq, Int.compare_eq_eq]

theorem equal_trans {x y z : Binary64} (hxy : x.equal y = true) (hyz : y.equal z = true) :
    x.equal z = true := by
  cases y with
  | nan => cases x <;> cases hxy
  | infinite b =>
    -- an infinity equals only itself
    have hx : x = infinite b := by
      cases x with
      | nan => cases hxy
      | infinite a => cases a <;> cases b <;> first | rfl | cases hxy
      | finite a m => cases b <;> cases hxy
    rw [hx]
    exact hyz
  | finite b n =>
    cases x with
    | nan => cases hxy
    | infinite a => cases a <;> cases hxy
    | finite a m =>
      cases z with
      | nan => cases hyz
      | infinite c => cases c <;> cases hyz
      | finite c k =>
        rw [equal_finite_iff] at hxy hyz ⊢
        exact hxy.trans hyz

end Binary64

/-! ## Texts and integers -/

theorem isEq_compareOfLessAndEq (a b : String) : (compareOfLessAndEq a b).isEq = (a == b) := by
  unfold compareOfLessAndEq
  by_cases h : a < b
  · have hne : a ≠ b := by
      rintro rfl
      exact String.lt_irrefl a h
    rw [if_pos h, beq_eq_false_iff_ne.2 hne]
    rfl
  · rw [if_neg h]
    by_cases he : a = b
    · rw [if_pos he, he, beq_self_eq_true]
      rfl
    · rw [if_neg he, beq_eq_false_iff_ne.2 he]
      rfl

theorem isEq_compare_toInt (a b : Int64) : (compare a.toInt b.toInt).isEq = (a == b) := by
  show (compareOfLessAndEq a.toInt b.toInt).isEq = (a == b)
  unfold compareOfLessAndEq
  by_cases he : a = b
  · subst he
    rw [if_neg (Int.lt_irrefl _), if_pos rfl, beq_self_eq_true]
    rfl
  · have hne : a.toInt ≠ b.toInt := fun h => he (Int64.toInt_inj.1 h)
    rw [beq_eq_false_iff_ne.2 he]
    by_cases h : a.toInt < b.toInt
    · rw [if_pos h]
      rfl
    · rw [if_neg h, if_neg hne]
      rfl

/-! ## Values -/

namespace Value

theorem eq_null_of_isNull {v : Value} (h : v.isNull = true) : v = null := by
  cases v with
  | null => rfl
  | _ => cases h

/-- Whether two values are of one kind, or two numbers. -/
def sameKind : Value → Value → Bool
  | null, null => true
  | boolean _, boolean _ => true
  | integer _, integer _ => true
  | integer _, float _ => true
  | float _, integer _ => true
  | float _, float _ => true
  | string _, string _ => true
  | array _, array _ => true
  | object _, object _ => true
  | _, _ => false

theorem sameKind_comm (v w : Value) : sameKind v w = sameKind w v := by
  cases v <;> cases w <;> rfl

theorem sameKind_of_strictEq {v w : Value} (h : v.strictEq w = true) : sameKind v w = true := by
  cases v <;> cases w <;> first | rfl | cases h

theorem looseEq_null_left (w : Value) : null.looseEq w = w.isNull := by
  cases w <;> rw [looseEq.eq_def] <;> rfl

theorem looseEq_null_right (v : Value) : v.looseEq null = v.isNull := by
  cases v <;> rw [looseEq.eq_def] <;> rfl

/-- Nothing is converted to compare two values of one kind, or two numbers. -/
theorem looseEq_eq_strictEq {v w : Value} (h : sameKind v w = true) : v.looseEq w = v.strictEq w := by
  cases v <;> cases w <;> cases h <;> rw [looseEq.eq_def] <;> rfl

mutual

theorem same_comm : ∀ v w : Value, v.same w = w.same v
  | null, w => by cases w <;> rfl
  | boolean a, w => by
    cases w with
    | boolean b => exact Bool.beq_comm
    | _ => rfl
  | integer a, w => by
    cases w with
    | integer b => exact Bool.beq_comm
    | _ => rfl
  | float x, w => by
    cases w with
    | float y => exact Binary64.equal_comm x y
    | _ => rfl
  | string a, w => by
    cases w with
    | string b => exact Bool.beq_comm
    | _ => rfl
  | array vs, w => by
    cases w with
    | array ws => exact sameItems_comm vs ws
    | _ => rfl
  | object vs, w => by
    cases w with
    | object ws => exact sameMembers_comm vs ws
    | _ => rfl

theorem sameItems_comm : ∀ vs ws : List Value, sameItems vs ws = sameItems ws vs
  | [], ws => by cases ws <;> rfl
  | v :: vs, ws => by
    cases ws with
    | nil => rfl
    | cons w ws => rw [sameItems, sameItems, same_comm v w, sameItems_comm vs ws]

theorem sameMembers_comm :
    ∀ vs ws : List (String × Value), sameMembers vs ws = sameMembers ws vs
  | [], ws => by cases ws <;> rfl
  | (j, v) :: vs, ws => by
    cases ws with
    | nil => rfl
    | cons w ws =>
      obtain ⟨k, w⟩ := w
      rw [sameMembers, sameMembers, same_comm v w, sameMembers_comm vs ws, Bool.beq_comm (a := j)]

end

mutual

theorem same_trans : ∀ {u v w : Value}, u.same v = true → v.same w = true → u.same w = true
  | null, null, _, _, h => h
  | boolean a, boolean b, w, hab, h => by
    cases beq_iff_eq.1 hab
    exact h
  | integer a, integer b, w, hab, h => by
    cases beq_iff_eq.1 hab
    exact h
  | string a, string b, w, hab, h => by
    cases beq_iff_eq.1 hab
    exact h
  | float x, float y, float z, hxy, hyz => Binary64.equal_trans hxy hyz
  | array us, array vs, array ws, huv, hvw => @sameItems_trans us vs ws huv hvw
  | object us, object vs, object ws, huv, hvw => @sameMembers_trans us vs ws huv hvw

theorem sameItems_trans : ∀ {us vs ws : List Value}, sameItems us vs = true →
    sameItems vs ws = true → sameItems us ws = true
  | [], [], _, _, h => h
  | u :: us, v :: vs, w :: ws, huv, hvw => by
    rw [sameItems, Bool.and_eq_true] at huv hvw ⊢
    exact ⟨same_trans huv.1 hvw.1, sameItems_trans huv.2 hvw.2⟩

theorem sameMembers_trans : ∀ {us vs ws : List (String × Value)}, sameMembers us vs = true →
    sameMembers vs ws = true → sameMembers us ws = true
  | [], [], _, _, h => h
  | (i, u) :: us, (j, v) :: vs, (k, w) :: ws, huv, hvw => by
    simp only [sameMembers, Bool.and_eq_true, beq_iff_eq] at huv hvw ⊢
    obtain ⟨⟨rfl, huv⟩, huvs⟩ := huv
    obtain ⟨⟨rfl, hvw⟩, hvws⟩ := hvw
    exact ⟨⟨rfl, same_trans huv hvw⟩, sameMembers_trans huvs hvws⟩

end

end Value

end RecordFilter
