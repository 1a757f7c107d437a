import RecordFilter.Proofs.Value.Symmetry

/-!
# Values that equal themselves

`nan` equals nothing, and neither does a value that holds it anywhere: no equality has such a value
on either side.  Every other value equals itself, strictly and loosely, and whatever is strictly
equal is loosely equal.

    v.strictEq v = true ↔ ¬Inside (float .nan) v                                (strictEq_self_iff)
    v.strictEq w = true → ¬Inside (float .nan) v                                (nanFree_of_strictEq)
    v.strictEq w = true → v.looseEq w = true                                  (looseEq_of_strictEq)
-/

namespace RecordFilter

namespace Binary64

variable {x y : Binary64}

theorem equal_self_iff : x.equal x = true ↔ x ≠ nan := by
  cases x with
  | nan => exact ⟨nofun, fun h => absurd rfl h⟩
  | infinite negative => cases negative <;> exact ⟨nofun, fun _ => rfl⟩
  | finite negative m => exact ⟨nofun, fun _ => equal_finite_iff.2 rfl⟩

theorem ne_nan_of_equal (h : x.equal y = true) : x ≠ nan := by
  rintro rfl
  cases y <;> cases h

end Binary64

namespace Value

variable {v w : Value} {vs : List Value} {ms : List (String × Value)}

/-! ## Values inside values -/

/-- `Inside v w`: the value `v` is `w`, or it stands somewhere in it. -/
inductive Inside (v : Value) : Value → Prop
  | itself : Inside v v
  | item {w : Value} {ws : List Value} : w ∈ ws → Inside v w → Inside v (array ws)
  | member {k : String} {w : Value} {ms : List (String × Value)} :
      (k, w) ∈ ms → Inside v w → Inside v (object ms)

theorem inside_float_array_iff {x : Binary64} :
    Inside (float x) (array vs) ↔ ∃ v ∈ vs, Inside (float x) v := by
  constructor
  · intro h
    cases h with
    | item hmem hin => exact ⟨_, hmem, hin⟩
  · rintro ⟨v, hmem, hin⟩
    exact .item hmem hin

theorem inside_float_object_iff {x : Binary64} :
    Inside (float x) (object ms) ↔ ∃ m ∈ ms, Inside (float x) m.2 := by
  constructor
  · intro h
    cases h with
    | member hmem hin => exact ⟨_, hmem, hin⟩
  · rintro ⟨m, hmem, hin⟩
    exact .member hmem hin

theorem inside_float_iff {x y : Binary64} : Inside (float x) (float y) ↔ y = x := by
  constructor
  · intro h
    cases h
    rfl
  · rintro rfl
    exact .itself

/-- No value that holds `nan`. -/
def NanFree (v : Value) : Prop := ¬Inside (float .nan) v

theorem nanFree_array_iff : NanFree (array vs) ↔ ∀ v ∈ vs, NanFree v := by
  simp only [NanFree, inside_float_array_iff, not_exists, not_and]

theorem nanFree_object_iff : NanFree (object ms) ↔ ∀ m ∈ ms, NanFree m.2 := by
  simp only [NanFree, inside_float_object_iff, not_exists, not_and]

theorem nanFree_float_iff {x : Binary64} : NanFree (float x) ↔ x ≠ .nan :=
  not_congr inside_float_iff

/-! ## Equality of kind and content -/

mutual

theorem same_self : ∀ v : Value, v.NanFree → v.same v = true
  | null, _ => rfl
  | boolean b, _ => beq_self_eq_true b
  | integer n, _ => beq_self_eq_true n
  | float _, h => Binary64.equal_self_iff.2 (nanFree_float_iff.1 h)
  | string s, _ => beq_self_eq_true s
  | array vs, h => sameItems_self vs (nanFree_array_iff.1 h)
  | object ms, h => sameMembers_self ms (nanFree_object_iff.1 h)

theorem sameItems_self : ∀ vs : List Value, (∀ v ∈ vs, NanFree v) → sameItems vs vs = true
  | [], _ => rfl
  | v :: vs, h => by
    obtain ⟨hv, hvs⟩ := List.forall_mem_cons.1 h
    rw [sameItems, same_self v hv, sameItems_self vs hvs]
    rfl

theorem sameMembers_self :
    ∀ ms : List (String × Value), (∀ m ∈ ms, NanFree m.2) → sameMembers ms ms = true
  | [], _ => rfl
  | (k, v) :: ms, h => by
    obtain ⟨hv, hms⟩ := List.forall_mem_cons.1 h
    rw [sameMembers, beq_self_eq_true, same_self v hv, sameMembers_self ms hms]
    rfl

end

mutual

/-- What equals anything holds no `nan`. -/
theorem nanFree_of_same : ∀ {v w : Value}, v.same w = true → v.NanFree
  | null, null, _ => nofun
  | boolean _, boolean _, _ => nofun
  | integer _, integer _, _ => nofun
  | float _, float _, h => nanFree_float_iff.2 (Binary64.ne_nan_of_equal h)
  | string _, string _, _ => nofun
  | array _, array _, h => nanFree_array_iff.2 (nanFree_of_sameItems h)
  | object _, object _, h => nanFree_object_iff.2 (nanFree_of_sameMembers h)

theorem nanFree_of_sameItems :
    ∀ {vs ws : List Value}, sameItems vs ws = true → ∀ v ∈ vs, NanFree v
  | [], [], _ => nofun
  | v :: vs, w :: ws, h => by
    rw [sameItems, Bool.and_eq_true] at h
    exact List.forall_mem_cons.2 ⟨nanFree_of_same h.1, nanFree_of_sameItems h.2⟩

theorem nanFree_of_sameMembers :
    ∀ {ms ns : List (String × Value)}, sameMembers ms ns = true → ∀ m ∈ ms, NanFree m.2
  | [], [], _ => nofun
  | (j, v) :: ms, (k, w) :: ns, h => by
    rw [sameMembers, Bool.and_eq_true, Bool.and_eq_true] at h
    exact List.forall_mem_cons.2 ⟨nanFree_of_same h.1.2, nanFree_of_sameMembers h.2⟩

end

/-! ## Strict equality -/

theorem equalMixed_nan (n : Int64) : equalMixed (integer n) (float .nan) = false := by
  show ((Binary64.ofInt n.toInt).compare? .nan == some .eq) = false
  cases Binary64.ofInt n.toInt <;> rfl

theorem ne_nan_of_equalMixed {n : Int64} {x : Binary64}
    (h : equalMixed (float x) (integer n) = true) : x ≠ .nan := by
  rintro rfl
  rw [equalMixed_comm, equalMixed_nan] at h
  cases h

mutual

theorem strictEq_self : ∀ v : Value, v.NanFree → v.strictEq v = true
  | null, h => same_self null h
  | boolean b, h => same_self (boolean b) h
  | integer n, _ => beq_self_eq_true n
  | float x, h => same_self (float x) h
  | string s, h => same_self (string s) h
  | array vs, h => strictEqItems_self vs (nanFree_array_iff.1 h)
  | object ms, h => same_self (object ms) h

theorem strictEqItems_self : ∀ vs : List Value, (∀ v ∈ vs, NanFree v) → strictEqItems vs vs = true
  | [], _ => rfl
  | v :: vs, h => by
    obtain ⟨hv, hvs⟩ := List.forall_mem_cons.1 h
    rw [strictEqItems, strictEq_self v hv, strictEqItems_self vs hvs]
    rfl

end

mutual

theorem nanFree_of_strictEq : ∀ {v w : Value}, v.strictEq w = true → v.NanFree
  | null, _, _ => nofun
  | boolean _, _, _ => nofun
  | integer _, _, _ => nofun
  | string _, _, _ => nofun
  | float _, float _, h => nanFree_float_iff.2 (Binary64.ne_nan_of_equal h)
  | float _, integer _, h => nanFree_float_iff.2 (ne_nan_of_equalMixed h)
  | array _, array _, h => nanFree_array_iff.2 (nanFree_of_strictEqItems h)
  | object ms, object ns, h => nanFree_of_same (v := object ms) (w := object ns) h

theorem nanFree_of_strictEqItems :
    ∀ {vs ws : List Value}, strictEqItems vs ws = true → ∀ v ∈ vs, NanFree v
  | [], [], _ => nofun
  | v :: vs, w :: ws, h => by
    rw [strictEqItems, Bool.and_eq_true] at h
    exact List.forall_mem_cons.2 ⟨nanFree_of_strictEq h.1, nanFree_of_strictEqItems h.2⟩

end

theorem strictEq_self_iff : v.strictEq v = true ↔ v.NanFree :=
  ⟨nanFree_of_strictEq, strictEq_self v⟩

/-! ## Loose equality -/

theorem looseEq_of_strictEq (h : v.strictEq w = true) : v.looseEq w = true := by
  rw [looseEq_eq_strictEq (sameKind_of_strictEq h), h]

theorem looseEq_self_eq (v : Value) : v.looseEq v = v.strictEq v :=
  looseEq_eq_strictEq (by cases v <;> rfl)

end Value

end RecordFilter
