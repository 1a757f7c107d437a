import RecordFilter.Proofs.Conversion
import RecordFilter.Proofs.Entries
import RecordFilter.Proofs.Value.Reflexivity

/-!
# Membership and alternatives

A membership in a list of constants compares strictly, an equality loosely.  So a field that is among
constants, and is there at all, equals one of them: the membership implies the alternative of the
equalities.

    the record has x → evaluating x in (c, …) is true ↔ some of c, … is strictly equal to x
                                                                              (evaluate_isAmong)
    evaluating x = c | … is true ↔ some of c, … is loosely equal to x         (evaluate_equalsOne)
-/

namespace RecordFilter

theorem Value.isBlank_eq_false {v : Value} (hnull : v ≠ .null) (hempty : v ≠ .string "") :
    v.isBlank = false := by
  cases v with
  | null => exact absurd rfl hnull
  | string s =>
    rw [isBlank, String.isEmpty_eq_false_iff]
    rintro rfl
    exact hempty rfl
  | _ => rfl

namespace Predicate

variable {session : Variables} {record : Record} {name : String} {c v : Value} {cs vs : List Value}

/-! ## Alternatives -/

/-- A field equals a constant. -/
def equals (name : String) (c : Value) : Predicate := .compare .equal (.field name) (ofScalar c)

/-- A field equals one of several constants, one at least. -/
def equalsOne (name : String) (c : Value) (cs : List Value) : Predicate :=
  Description.joined .or (equals name c) (cs.map (equals name))

/-- A field is among several constants, one at least. -/
def isAmong (name : String) (c : Value) (cs : List Value) : Predicate :=
  .isIn (.field name) (.list ((c :: cs).map ofScalar))

theorem evaluate_equals (hc : c.IsScalar) : evaluate session record (equals name c) =
    .ok ((record.property name).looseEq c) := by
  rw [equals, evaluate, leafValue, leafValue_ofScalar hc]
  rfl

/-- Alternatives of equalities, behind a tree with a truth value. -/
theorem evaluate_joined_equals {p : Predicate} {b : Bool}
    (hp : evaluate session record p = .ok b) (hcs : ∀ c ∈ cs, c.IsScalar) :
    evaluate session record (Description.joined .or p (cs.map (equals name))) =
      .ok (b || cs.any (record.property name).looseEq) := by
  induction cs generalizing p b with
  | nil =>
    rw [List.any_nil, Bool.or_false]
    exact hp
  | cons c cs ih =>
    obtain ⟨hc, hcs⟩ := List.forall_mem_cons.1 hcs
    have hjoin : evaluate session record (.join .or p (equals name c)) =
        .ok (b || (record.property name).looseEq c) := by
      rw [evaluate, hp, evaluate_equals hc]
      rfl
    rw [List.any_cons, ← Bool.or_assoc]
    exact ih hjoin hcs

theorem evaluate_equalsOne (h : ∀ d ∈ c :: cs, d.IsScalar) :
    evaluate session record (equalsOne name c cs) =
      .ok ((c :: cs).any (record.property name).looseEq) := by
  obtain ⟨hc, hcs⟩ := List.forall_mem_cons.1 h
  exact evaluate_joined_equals (evaluate_equals hc) hcs

theorem evaluate_isAmong (h : ∀ d ∈ c :: cs, d.IsScalar)
    (hb : (record.property name).isBlank = false) :
    evaluate session record (isAmong name c cs) =
      .ok ((c :: cs).any fun d => d.strictEq (record.property name)) := by
  have hentered : entered session record ((c :: cs).map ofScalar ++ []) = .ok ⟨[], c :: cs⟩ := by
    rw [entered_ofScalar h []]
    exact congrArg (fun vs => Except.ok (Entered.mk [] vs)) (List.append_nil _)
  rw [List.append_nil] at hentered
  rw [isAmong, evaluate, membershipHolds, leafValue, hentered]
  show Except.ok (Entered.has _ _) = _
  rw [Entered.has, hb]
  simp

/-- **The equalities fit together.**  A value equals itself, strictly or loosely, exactly if it holds no
`nan`; what is strictly equal is loosely equal; and so a field that is there and is among constants
satisfies the alternative of the equalities with them. -/
theorem equalities_coherent :
    (∀ v : Value, (v.strictEq v = true ↔ ¬Value.Inside (.float .nan) v) ∧
      (v.looseEq v = true ↔ ¬Value.Inside (.float .nan) v)) ∧
    (∀ v w : Value, v.strictEq w = true → v.looseEq w = true) ∧
    ∀ (session : Variables) (record : Record) (name : String) (c : Value) (cs : List Value),
      (∀ d ∈ c :: cs, d.IsScalar) → record.property name ≠ .null →
      record.property name ≠ .string "" →
      evaluate session record (isAmong name c cs) = .ok true →
      evaluate session record (equalsOne name c cs) = .ok true := by
  refine ⟨fun v => ⟨Value.strictEq_self_iff, ?_⟩, fun _ _ => Value.looseEq_of_strictEq, ?_⟩
  · rw [Value.looseEq_self_eq]
    exact Value.strictEq_self_iff
  · intro session record name c cs hcs hnull hempty hin
    have hb := Value.isBlank_eq_false hnull hempty
    rw [evaluate_isAmong hcs hb, Except.ok.injEq, List.any_eq_true] at hin
    obtain ⟨d, hd, heq⟩ := hin
    rw [evaluate_equalsOne hcs, Except.ok.injEq, List.any_eq_true]
    rw [Value.strictEq_comm] at heq
    exact ⟨d, hd, Value.looseEq_of_strictEq heq⟩

/-- The record with `x` for two, as a binary64 number. -/
def twoRecord : Record := Table.empty.insert "x" (.float (.ofInt 2))

/-- `[x] in ('a', 2)` and `[x] = 'a' | [x] = 2` -/
theorem equalities_coherent_twoRecord :
    evaluate Table.empty twoRecord (isAmong "x" (.string "a") [.integer 2]) = .ok true ∧
    evaluate Table.empty twoRecord (equalsOne "x" (.string "a") [.integer 2]) = .ok true := by
  have hin : evaluate Table.empty twoRecord (isAmong "x" (.string "a") [.integer 2]) = .ok true := by
    decide +kernel
  obtain ⟨-, -, hor⟩ := equalities_coherent
  refine ⟨hin, hor Table.empty twoRecord "x" (.string "a") [.integer 2] ?_ nofun nofun hin⟩
  simp [Value.IsScalar]

end Predicate

end RecordFilter
