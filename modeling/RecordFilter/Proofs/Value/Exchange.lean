import RecordFilter.Proofs.Json.Extents
import RecordFilter.Proofs.Number.Digits
import RecordFilter.Proofs.Value.Reflexivity

/-!
# Values as JSON and back

A value comes back from JSON as it was exactly if no infinity and no `nan` is in it: those have no
JSON number.  JSON comes back from a value as it was exactly if its whole numbers have 64 bits with a
sign: others become binary64 numbers.  Kinds of numbers and the sign of zero come back as well.

    v.toJson.ofJson = v ↔ v.AllFinite                                         (ofJson_toJson_iff)
    j.ofJson.toJson = j ↔ j.Signed64                                          (toJson_ofJson_iff)
-/

namespace RecordFilter

/-- What is asked of everything that some item of a list has is asked item by item. -/
theorem forall_exists_mem {α β : Type} {as : List α} {P : α → β → Prop} {Q : β → Prop} :
    (∀ b, (∃ a ∈ as, P a b) → Q b) ↔ ∀ a ∈ as, ∀ b, P a b → Q b := by
  constructor
  · intro h a ha b hb
    exact h b ⟨a, ha, hb⟩
  · rintro h b ⟨a, ha, hb⟩
    exact h a ha b hb

/-! ## Whole numbers of JSON -/

namespace Json

variable {items : List Json} {ms : List (String × Json)} {n : Int}

theorem parts_integer_array_iff :
    Parts (.integer n) (.array items) ↔ ∃ j ∈ items, Parts (.integer n) j := by
  constructor
  · intro h
    cases h with
    | part hpart hin =>
      cases hpart with
      | item hmem => exact ⟨_, hmem, hin⟩
  · rintro ⟨j, hmem, hin⟩
    exact .part (.item hmem) hin

theorem parts_integer_object_iff :
    Parts (.integer n) (.object ms) ↔ ∃ m ∈ ms, Parts (.integer n) m.2 := by
  constructor
  · intro h
    cases h with
    | part hpart hin =>
      cases hpart with
      | member hmem => exact ⟨_, hmem, hin⟩
  · rintro ⟨m, hmem, hin⟩
    exact .part (.member hmem) hin

/-- Whether every whole number in a JSON value has 64 bits with a sign. -/
def Signed64 (j : Json) : Prop :=
  ∀ n, Parts (.integer n) j → -0x8000000000000000 ≤ n ∧ n < 0x8000000000000000

theorem signed64_integer_iff :
    Signed64 (.integer n) ↔ -0x8000000000000000 ≤ n ∧ n < 0x8000000000000000 := by
  constructor
  · exact fun h => h n .self
  · intro h k hk
    cases hk with
    | self => exact h
    | part hpart _ => cases hpart

theorem signed64_array_iff : Signed64 (.array items) ↔ ∀ j ∈ items, Signed64 j := by
  simp only [Signed64, parts_integer_array_iff]
  exact forall_exists_mem

theorem signed64_object_iff : Signed64 (.object ms) ↔ ∀ m ∈ ms, Signed64 m.2 := by
  simp only [Signed64, parts_integer_object_iff]
  exact forall_exists_mem

/-- What is neither a whole number nor a container has no whole number in it. -/
theorem signed64_of_leaf {j : Json} (hinteger : ∀ n, j ≠ .integer n) (hparts : ∀ k, ¬Part k j) :
    Signed64 j := by
  intro n hn
  cases hn with
  | self => exact absurd rfl (hinteger n)
  | part hpart _ => exact absurd hpart (hparts _)

end Json

namespace Value

variable {vs : List Value} {ms : List (String × Value)}

/-! ## Numbers of values -/

/-- Whether every binary64 number in a value is finite. -/
def AllFinite (v : Value) : Prop := ∀ x, Inside (float x) v → x.isFinite = true

theorem allFinite_float_iff {x : Binary64} : AllFinite (float x) ↔ x.isFinite = true := by
  simp only [AllFinite, inside_float_iff]
  exact ⟨fun h => h x rfl, fun h y hy => hy ▸ h⟩

theorem allFinite_array_iff : AllFinite (array vs) ↔ ∀ v ∈ vs, AllFinite v := by
  simp only [AllFinite, inside_float_array_iff]
  exact forall_exists_mem

theorem allFinite_object_iff : AllFinite (object ms) ↔ ∀ m ∈ ms, AllFinite m.2 := by
  simp only [AllFinite, inside_float_object_iff]
  exact forall_exists_mem

theorem ofInt_toInt (n : Int64) : ofInt n.toInt = integer n := by
  rw [ofInt, int64OfInt?_toInt]

/-- A binary64 number is no whole number of JSON, also where it has no fraction. -/
theorem toJson_float_ne (x : Binary64) (n : Int) : (float x).toJson ≠ .integer n := by
  intro h
  cases x with
  | nan => cases h
  | infinite negative => cases h
  | finite negative m => cases h

theorem toJson_ofInt_iff {n : Int} : (ofInt n).toJson = .integer n ↔ Json.Signed64 (.integer n) := by
  rw [Json.signed64_integer_iff, ofInt, int64OfInt?]
  by_cases h : -0x8000000000000000 ≤ n ∧ n < 0x8000000000000000
  · rw [if_pos h, iff_true_right h]
    exact congrArg Json.integer (Int64.toInt_ofInt_of_le h.1 h.2)
  · rw [if_neg h, iff_false_right h]
    exact toJson_float_ne (.ofInt n) n

/-! ## There and back -/

mutual

theorem ofJson_toJson_iff : ∀ v : Value, ofJson (toJson v) = v ↔ v.AllFinite
  | null | boolean _ | string _ => iff_of_true rfl nofun
  | integer n => iff_of_true (ofInt_toInt n) nofun
  | float x => by
    rw [allFinite_float_iff]
    cases x with
    | nan => exact iff_of_false nofun nofun
    | infinite negative => exact iff_of_false nofun nofun
    | finite negative m => exact iff_of_true rfl rfl
  | array vs => by
    rw [toJson, ofJson, array.injEq, ofJsonItems_toJsonItems_iff vs, allFinite_array_iff]
  | object ms => by
    rw [toJson, ofJson, object.injEq, ofJsonMembers_toJsonMembers_iff ms, allFinite_object_iff]

theorem ofJsonItems_toJsonItems_iff :
    ∀ vs : List Value, ofJsonItems (toJsonItems vs) = vs ↔ ∀ v ∈ vs, AllFinite v
  | [] => iff_of_true rfl nofun
  | v :: vs => by
    rw [toJsonItems, ofJsonItems, List.cons.injEq, ofJson_toJson_iff v,
      ofJsonItems_toJsonItems_iff vs, List.forall_mem_cons]

theorem ofJsonMembers_toJsonMembers_iff :
    ∀ ms : List (String × Value),
      ofJsonMembers (toJsonMembers ms) = ms ↔ ∀ m ∈ ms, AllFinite m.2
  | [] => iff_of_true rfl nofun
  | (k, v) :: ms => by
    rw [toJsonMembers, ofJsonMembers, List.cons.injEq, Prod.mk.injEq, ofJson_toJson_iff v,
      ofJsonMembers_toJsonMembers_iff ms, List.forall_mem_cons, and_iff_right rfl]

end

mutual

theorem toJson_ofJson_iff : ∀ j : Json, toJson (ofJson j) = j ↔ j.Signed64
  | .null | .bool _ | .float _ _ | .string _ => iff_of_true rfl (Json.signed64_of_leaf nofun nofun)
  | .integer _ => toJson_ofInt_iff
  | .array items => by
    rw [ofJson, toJson, Json.array.injEq, toJsonItems_ofJsonItems_iff items, Json.signed64_array_iff]
  | .object ms => by
    rw [ofJson, toJson, Json.object.injEq, toJsonMembers_ofJsonMembers_iff ms,
      Json.signed64_object_iff]

theorem toJsonItems_ofJsonItems_iff :
    ∀ js : List Json, toJsonItems (ofJsonItems js) = js ↔ ∀ j ∈ js, j.Signed64
  | [] => iff_of_true rfl nofun
  | j :: js => by
    rw [ofJsonItems, toJsonItems, List.cons.injEq, toJson_ofJson_iff j,
      toJsonItems_ofJsonItems_iff js, List.forall_mem_cons]

theorem toJsonMembers_ofJsonMembers_iff :
    ∀ ms : List (String × Json),
      toJsonMembers (ofJsonMembers ms) = ms ↔ ∀ m ∈ ms, m.2.Signed64
  | [] => iff_of_true rfl nofun
  | (k, j) :: ms => by
    rw [ofJsonMembers, toJsonMembers, List.cons.injEq, Prod.mk.injEq, toJson_ofJson_iff j,
      toJsonMembers_ofJsonMembers_iff ms, List.forall_mem_cons, and_iff_right rfl]

end

/-- **Values and JSON without loss.**  Exactly the values with finite numbers come back from JSON as
they were, and exactly the JSON with whole numbers of 64 bits comes back from values as it was. -/
theorem json_lossless_iff :
    (∀ v : Value, ofJson (toJson v) = v ↔ v.AllFinite) ∧
      ∀ j : Json, toJson (ofJson j) = j ↔ j.Signed64 :=
  ⟨ofJson_toJson_iff, toJson_ofJson_iff⟩

/-- The integer one and the binary64 number one stay apart, and a zero keeps its sign. -/
example : ofJson (toJson (array [integer 1, float .one, float (.finite true .zero)])) =
    array [integer 1, float .one, float (.finite true .zero)] := by
  rfl

end Value

end RecordFilter
