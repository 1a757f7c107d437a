import RecordFilter.Predicate.Basic

/-!
# Parts of trees

`q.Within p` says that the tree `q` stands somewhere in `p`.  What holds of a tree as
soon as it holds of its operands holds of every tree (`operandInduction`); this is how
facts about trees of any shape are shown.  Below its negations and connectives a tree is a
row of tests (`tests`).

    name ∈ p.fieldNames ↔ (field name).Within p                       (mem_fieldNames)
-/

namespace RecordFilter

namespace Predicate

/-- `q.Within p`: the tree `q` is `p` itself or stands somewhere in its operands. -/
inductive Within (q : Predicate) : Predicate → Prop
  | self : Within q q
  | operand {p r : Predicate} : r ∈ p.operands → Within q r → Within q p

variable {p q r : Predicate}

theorem within_iff : q.Within p ↔ q = p ∨ ∃ r ∈ p.operands, q.Within r := by
  constructor
  · intro h
    cases h with
    | self => exact .inl rfl
    | operand hr hq => exact .inr ⟨_, hr, hq⟩
  · rintro (rfl | ⟨r, hr, hq⟩)
    · exact .self
    · exact .operand hr hq

/-- What is not an operator has no parts but itself. -/
theorem eq_of_within (hp : p.operands = []) (h : q.Within p) : q = p := by
  rcases within_iff.1 h with rfl | ⟨r, hr, -⟩
  · rfl
  · rw [hp] at hr
    cases hr

/-! ## Induction -/

theorem size_le_sizeAll {ps : List Predicate} (h : q ∈ ps) : q.size ≤ sizeAll ps := by
  induction ps with
  | nil => cases h
  | cons p ps ih =>
    rw [sizeAll]
    rcases List.mem_cons.1 h with rfl | h
    · exact Nat.le_add_right ..
    · exact Nat.le_trans (ih h) (Nat.le_add_left ..)

theorem size_lt_of_mem_operands (h : q ∈ p.operands) : q.size < p.size := by
  rw [size_eq p]
  exact Nat.lt_succ_of_le (size_le_sizeAll h)

/-- To show something of all trees, it may be assumed of the operands of each. -/
theorem operandInduction {motive : Predicate → Prop}
    (step : ∀ p : Predicate, (∀ q ∈ p.operands, motive q) → motive p) (p : Predicate) :
    motive p := by
  -- operands are smaller, in all trees of at most a given size
  suffices h : ∀ n, ∀ q : Predicate, q.size ≤ n → motive q from h p.size p (Nat.le_refl _)
  intro n
  induction n with
  | zero =>
    intro q hq
    rw [size_eq] at hq
    omega
  | succ n ih =>
    intro q hq
    refine step q fun r hr => ih r ?_
    have := size_lt_of_mem_operands hr
    omega

/-! ## Fields -/

variable {name : String} {found : List String}

theorem mem_insertName {m : String} : name ∈ insertName m found ↔ name = m ∨ name ∈ found := by
  induction found with
  | nil => simp [insertName]
  | cons n ns ih =>
    rw [insertName]
    split
    · exact List.mem_cons
    · split
      · rename_i hm
        rw [hm, List.mem_cons, ← or_assoc, or_self]
      · rw [List.mem_cons, ih, List.mem_cons, or_left_comm]

theorem mem_collectAll {ps : List Predicate}
    (h : ∀ p ∈ ps, ∀ found, name ∈ collectFields found p ↔ name ∈ found ∨ (field name).Within p) :
    name ∈ collectAll found ps ↔ name ∈ found ∨ ∃ p ∈ ps, (field name).Within p := by
  induction ps generalizing found with
  | nil => simp [collectAll]
  | cons p ps ih =>
    obtain ⟨hp, hps⟩ := List.forall_mem_cons.1 h
    rw [collectAll, ih hps, hp, or_assoc]
    simp

/-- The names of a node that is no field are those of its operands. -/
theorem collectFields_eq (hp : ∀ m, p ≠ field m) :
    collectFields found p = collectAll found p.operands := by
  cases p with
  | field m => exact absurd rfl (hp m)
  | _ => rfl

theorem mem_collectFields (p : Predicate) (found : List String) :
    name ∈ collectFields found p ↔ name ∈ found ∨ (field name).Within p := by
  induction p using operandInduction generalizing found with
  | step p ih =>
    by_cases hp : ∃ m, p = field m
    · obtain ⟨m, rfl⟩ := hp
      rw [collectFields, mem_insertName, within_iff, or_comm]
      simp [operands]
    · have hne : ∀ m, p ≠ field m := fun m he => hp ⟨m, he⟩
      rw [collectFields_eq hne, mem_collectAll ih, within_iff, or_iff_right (hne name).symm]

/-- The names of a tree are those of the fields in it. -/
theorem mem_fieldNames : name ∈ p.fieldNames ↔ (field name).Within p := by
  rw [fieldNames, mem_collectFields]
  simp

/-! ## Leaves and tests -/

/-- Whether a node is a name or a constant, which has one value. -/
def isLeaf : Predicate → Bool
  | field _ => true
  | var _ => true
  | string _ => true
  | integer _ => true
  | float _ => true
  | boolean _ => true
  | null => true
  | _ => false

/-- The tests that the negations and connectives of a tree join, from left to right. -/
def tests : Predicate → List Predicate
  | not inner => inner.tests
  | join _ left right => left.tests ++ right.tests
  | p => [p]

end Predicate

end RecordFilter
