import Mathlib.Order.Lattice
import RecordFilter.Proofs.Parts
import RecordFilter.Table

/-!
# Heights

The height of a tree is found with a stack of nodes that are still to be visited, each with its
level.  What bounds the result is kept from one visit to the next: no level seen so far and no level
below a node on the stack is beyond the bound.  So the result is the height by recursion (`levels`).

    heightFrom deepest stack ≤ b ↔
      deepest ≤ b ∧ ∀ n ∈ stack, n.2 + levelsAll n.1.operands ≤ b              (heightFrom_le_iff)
    p.height = p.levels                                                         (height_eq_levels)
-/

namespace RecordFilter

namespace Predicate

variable {p q : Predicate} {ps : List Predicate} {name : String} {found : List String}

/-! ## Height by recursion -/

mutual

/-- The height of a tree by recursion: one for a node without operands, one more than the highest
operand for any other node. -/
def levels : Predicate → Nat
  | list items => levelsAll items + 1
  | compare _ left right => max left.levels right.levels + 1
  | isIn left candidates => max left.levels candidates.levels + 1
  | not inner => inner.levels + 1
  | join _ left right => max left.levels right.levels + 1
  | spatial _ left right => max left.levels right.levels + 1
  | _ => 1

/-- The height of the highest of some trees, zero without any. -/
def levelsAll : List Predicate → Nat
  | [] => 0
  | p :: ps => max p.levels (levelsAll ps)

end

theorem levels_eq (p : Predicate) : p.levels = levelsAll p.operands + 1 := by
  cases p <;> simp [levels, levelsAll, operands]

theorem levelsAll_le_iff {b : Nat} : levelsAll ps ≤ b ↔ ∀ p ∈ ps, p.levels ≤ b := by
  induction ps with
  | nil => simp [levelsAll]
  | cons p ps ih => rw [levelsAll, Nat.max_le, ih, List.forall_mem_cons]

/-! ## Height by a stack -/

/-- The levels from a node on stay within a bound if its own level does and those of its operands,
which are one level further in, do. -/
theorem levels_below_le_iff {level b : Nat} :
    level + levelsAll p.operands ≤ b ↔
      level ≤ b ∧ ∀ q ∈ p.operands, level + 1 + levelsAll q.operands ≤ b := by
  have hstep : ∀ q : Predicate, level + 1 + levelsAll q.operands ≤ b ↔ level + q.levels ≤ b := by
    intro q
    rw [levels_eq, Nat.add_assoc, Nat.add_comm 1]
  simp only [hstep]
  constructor
  · intro h
    refine ⟨Nat.le_trans (Nat.le_add_right ..) h, fun q hq => ?_⟩
    have hq : q.levels ≤ levelsAll p.operands := levelsAll_le_iff.1 (Nat.le_refl _) q hq
    omega
  · rintro ⟨hlevel, hoperands⟩
    have hall : levelsAll p.operands ≤ b - level := by
      refine levelsAll_le_iff.2 fun q hq => ?_
      have := hoperands q hq
      omega
    omega

/-- A visit moves the level of a node and the nodes below it from the stack to what is seen and what
is to be seen, so it keeps every bound. -/
theorem heightFrom_le_iff {deepest b : Nat} {stack : List (Predicate × Nat)} :
    heightFrom deepest stack ≤ b ↔
      deepest ≤ b ∧ ∀ n ∈ stack, n.2 + levelsAll n.1.operands ≤ b := by
  induction deepest, stack using heightFrom.induct with
  | case1 deepest => simp [heightFrom]
  | case2 deepest p level stack ih =>
    have hpushed : (∀ n ∈ (p.operands.map fun q => (q, level + 1)).reverse,
        n.2 + levelsAll n.1.operands ≤ b) ↔
        ∀ q ∈ p.operands, level + 1 + levelsAll q.operands ≤ b := by
      simp only [List.mem_reverse, List.forall_mem_map]
    rw [heightFrom, ih, List.forall_mem_append, hpushed, Nat.max_le, List.forall_mem_cons,
      levels_below_le_iff]
    simp only [and_assoc]

theorem height_eq_levels (p : Predicate) : p.height = p.levels := by
  refine eq_of_forall_ge_iff fun b => ?_
  rw [height, heightFrom_le_iff, List.forall_mem_singleton, levels_eq, Nat.add_comm 1]
  exact and_iff_right (Nat.zero_le b)

/-- A negation is one level higher. -/
theorem height_not (p : Predicate) : (not p).height = p.height + 1 := by
  rw [height_eq_levels, height_eq_levels, levels]

/-! ## Names in their order -/

theorem pairwise_insertName (h : found.Pairwise (· < ·)) :
    (insertName name found).Pairwise (· < ·) := by
  induction found with
  | nil => exact List.pairwise_singleton ..
  | cons n ns ih =>
    obtain ⟨hn, hns⟩ := List.pairwise_cons.1 h
    rw [insertName]
    split
    · rename_i hlt
      refine List.pairwise_cons.2 ⟨List.forall_mem_cons.2 ⟨hlt, fun m hm => ?_⟩, h⟩
      exact String.lt_trans hlt (hn m hm)
    · rename_i hnot
      split
      · exact h
      · rename_i hne
        refine List.pairwise_cons.2 ⟨fun m hm => ?_, ih hns⟩
        rcases mem_insertName.1 hm with rfl | hm
        · exact Entries.lt_of_not_lt_of_ne hnot hne
        · exact hn m hm

theorem pairwise_collectAll
    (h : ∀ p ∈ ps, ∀ found : List String, found.Pairwise (· < ·) →
      (collectFields found p).Pairwise (· < ·))
    (hfound : found.Pairwise (· < ·)) : (collectAll found ps).Pairwise (· < ·) := by
  induction ps generalizing found with
  | nil => exact hfound
  | cons p ps ih =>
    obtain ⟨hp, hps⟩ := List.forall_mem_cons.1 h
    exact ih hps (hp found hfound)

theorem pairwise_collectFields (p : Predicate) (hfound : found.Pairwise (· < ·)) :
    (collectFields found p).Pairwise (· < ·) := by
  induction p using operandInduction generalizing found with
  | step p ih =>
    by_cases hp : ∃ m, p = field m
    · obtain ⟨m, rfl⟩ := hp
      exact pairwise_insertName hfound
    · rw [collectFields_eq fun m he => hp ⟨m, he⟩]
      exact pairwise_collectAll (fun q hq found h => ih q hq h) hfound

/-- **Height and fields of every tree.**  The visits with a stack come to an end with the height by
recursion, and the names that are collected rise strictly and are those of the fields in the tree. -/
theorem height_fieldNames (p : Predicate) :
    p.height = p.levels ∧ p.fieldNames.Pairwise (· < ·) ∧
      ∀ name, name ∈ p.fieldNames ↔ (field name).Within p :=
  ⟨height_eq_levels p, pairwise_collectFields p List.Pairwise.nil, fun _ => mem_fieldNames⟩

end Predicate

end RecordFilter
