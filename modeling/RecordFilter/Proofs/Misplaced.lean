import RecordFilter.Proofs.Description
import RecordFilter.Proofs.Places

/-!
# Descriptions out of place

Strict conversion takes a list or a geometry as the operand of any operator, but only few places of
a tree admit one.  A converted tree can be evaluated exactly where no description in it, however far
inside, has an operand out of place.

    p.evaluate session record = .ok b → p.misfits = []                 (misfits_of_evaluate_ok)
    convertNested .strict budget j = .ok p → (p.misfits = [] ↔ WellPlaced j)  (misfits_eq_nil_iff)
-/

namespace RecordFilter

namespace Predicate

variable {p left right : Predicate} {items : List Predicate} {session : Variables}
  {record : Record} {kind : PredicateKind} {value : String}

/-! ## Trees with patterns -/

theorem misfitOperands_eq_nil_iff : misfitOperands items = [] ↔ ∀ p ∈ items, p.isLeaf = true := by
  simp [misfitOperands, List.filter_eq_nil_iff]

theorem isLeaf_of_leafValue_ok {v : Value} (h : leafValue session record p = .ok v) :
    p.isLeaf = true := by
  cases p with
  | field | var | string | integer | float | boolean | null => rfl
  | _ => cases h

theorem isLeaf_of_entered_ok {e : Entered} (h : entered session record items = .ok e) :
    ∀ p ∈ items, p.isLeaf = true := by
  induction items generalizing e with
  | nil => exact nofun
  | cons p ps ih =>
    rw [entered] at h
    obtain ⟨v, hv, h⟩ := bind_eq_ok.1 h
    obtain ⟨rest, hrest, -⟩ := bind_eq_ok.1 h
    exact List.forall_mem_cons.2 ⟨isLeaf_of_leafValue_ok hv, ih hrest⟩

/-- A tree that has a truth value, for whatever record, has no node out of place. -/
theorem misfits_of_evaluate_ok {b : Bool} (h : p.evaluate session record = .ok b) :
    p.misfits = [] := by
  induction p using operandInduction generalizing b with
  | step p ih =>
    cases p with
    | not inner =>
      obtain ⟨c, hc, -⟩ := bind_eq_ok.1 h
      exact ih inner (by simp [operands]) hc
    | join op left right =>
      obtain ⟨c, hc, h⟩ := bind_eq_ok.1 h
      obtain ⟨d, hd, -⟩ := bind_eq_ok.1 h
      rw [misfits_join, ih left (by simp [operands]) hc, ih right (by simp [operands]) hd]
      rfl
    | compare op left right =>
      obtain ⟨v, hv, h⟩ := bind_eq_ok.1 h
      obtain ⟨w, hw, -⟩ := bind_eq_ok.1 h
      rw [misfits_compare, misfitOperands_eq_nil_iff]
      simp [isLeaf_of_leafValue_ok hv, isLeaf_of_leafValue_ok hw]
    | isIn left right =>
      cases right with
      | list items =>
        obtain ⟨v, hv, h⟩ := bind_eq_ok.1 h
        obtain ⟨e, he, -⟩ := bind_eq_ok.1 h
        rw [misfits_isIn]
        refine misfitOperands_eq_nil_iff.2 (List.forall_mem_cons.2 ⟨?_, ?_⟩)
        · exact isLeaf_of_leafValue_ok hv
        · exact isLeaf_of_entered_ok he
      | _ => cases h
    | list | geometry | spatial => cases h
    | _ => rfl

theorem comparisonHolds_ne_unsupported (op : CompareOp) (v w : Value) :
    comparisonHolds op v w ≠ .error (.unsupported kind value) := by
  intro h
  obtain ⟨pattern, -, hp⟩ := (blames_comparisonHolds op v w).eq_error_iff.1 h
  cases hp

theorem misfitOperands_ne_nil_of_leafValue_error {e : EvalError} (hp : p ∈ items)
    (h : leafValue session record p = .error e) : misfitOperands items ≠ [] := by
  intro hnil
  rw [leafValue_of_isLeaf (misfitOperands_eq_nil_iff.1 hnil p hp)] at h
  cases h

theorem misfitOperands_ne_nil_of_entered_error {e : EvalError}
    (h : entered session record items = .error e) : misfitOperands items ≠ [] := by
  intro hnil
  rw [entered_of_isLeaf (misfitOperands_eq_nil_iff.1 hnil)] at h
  cases h

/-- A tree that is not supported, for whatever record, has a node out of place. -/
theorem misfits_ne_nil_of_evaluate_unsupported
    (h : p.evaluate session record = .error (.unsupported kind value)) : p.misfits ≠ [] := by
  induction p using operandInduction with
  | step p ih =>
    cases p with
    | not inner =>
      rcases bind_eq_error.1 h with h | ⟨b, -, h⟩
      · exact ih inner (by simp [operands]) h
      · cases h
    | join op left right =>
      rw [misfits_join, ne_eq, List.append_eq_nil_iff, not_and_or]
      rcases bind_eq_error.1 h with h | ⟨b, -, h⟩
      · exact .inl (ih left (by simp [operands]) h)
      · rcases bind_eq_error.1 h with h | ⟨c, -, h⟩
        · exact .inr (ih right (by simp [operands]) h)
        · cases h
    | compare op left right =>
      rw [misfits_compare]
      rcases bind_eq_error.1 h with h | ⟨v, -, h⟩
      · exact misfitOperands_ne_nil_of_leafValue_error (by simp) h
      · rcases bind_eq_error.1 h with h | ⟨w, -, h⟩
        · exact misfitOperands_ne_nil_of_leafValue_error (by simp) h
        · exact absurd h (comparisonHolds_ne_unsupported op v w)
    | isIn left right =>
      rw [misfits_isIn]
      cases right with
      | list items =>
        show misfitOperands ([left] ++ items) ≠ []
        rw [misfitOperands, List.filter_append, ne_eq, List.append_eq_nil_iff, not_and_or]
        rcases bind_eq_error.1 h with h | ⟨v, -, h⟩
        · exact .inl (misfitOperands_ne_nil_of_leafValue_error (List.mem_singleton_self left) h)
        · rcases bind_eq_error.1 h with h | ⟨e, -, h⟩
          · exact .inr (misfitOperands_ne_nil_of_entered_error h)
          · cases h
      | _ => simp [Place.admits]
    | list | geometry | spatial => simp [misfits, visits, Place.admits]
    | _ => cases h

end Predicate

namespace Description

variable {j k : Json} {h : Head} {p q : Predicate} {ps : List Predicate} {budget : Nat}

/-! ## Operands without a value -/

/-- An operand that is a geometry: it is no name of a field or variable. -/
def IsGeometry (j : Json) : Prop :=
  j.stringMember? "field" = none ∧ j.stringMember? "variable" = none ∧
    ∃ payload, j.member? "geometry" = some payload

/-- An operand that is a list or a geometry. -/
def IsCollective (j : Json) : Prop := (∃ items, j = .array items) ∨ IsGeometry j

theorem isLeaf_of_constant (hp : constant j = .ok p) : p.isLeaf = true :=
  Predicate.isLeaf_of_isOperand (isOperand_of_constant hp)

theorem isLeaf_of_constants {js : List Json} (hps : constants js = .ok ps) :
    ∀ p ∈ ps, p.isLeaf = true :=
  fun p hp => Predicate.isLeaf_of_isOperand (isOperand_of_constants hps p hp)

theorem isLeaf_iff_of_operand (hp : operand j = .ok p) : p.isLeaf = true ↔ ¬IsCollective j := by
  cases convertsOperand_of_operand hp with
  | list hps => exact iff_of_false nofun (not_not.2 (.inl ⟨_, rfl⟩))
  | field hf =>
    refine iff_of_true rfl ?_
    rintro (⟨items, rfl⟩ | ⟨hn, -⟩)
    · cases hf
    · rw [hf] at hn
      cases hn
  | var hf hv =>
    refine iff_of_true rfl ?_
    rintro (⟨items, rfl⟩ | ⟨-, hn, -⟩)
    · cases hv
    · rw [hv] at hn
      cases hn
  | geometry hf hv hg => exact iff_of_false nofun (not_not.2 (.inr ⟨hf, hv, _, hg⟩))
  | constant hj hf hv hg hc =>
    refine iff_of_true (isLeaf_of_constant hc) ?_
    rintro (⟨items, rfl⟩ | ⟨-, -, payload, hn⟩)
    · exact hj items rfl
    · rw [hg] at hn
      cases hn

theorem misfits_isIn_list_iff {l : Predicate} :
    (Predicate.isIn l (.list ps)).misfits = [] ↔ l.isLeaf = true ∧ ∀ p ∈ ps, p.isLeaf = true := by
  rw [Predicate.misfits_isIn]
  show Predicate.misfitOperands (l :: ps) = [] ↔ _
  rw [Predicate.misfitOperands_eq_nil_iff, List.forall_mem_cons]

/-- The list of a membership holds values, unless a geometry stands in place of the list. -/
theorem misfits_membership_iff {l : Predicate} (hp : operand j = .ok p) :
    (Predicate.membership l p).misfits = [] ↔ l.isLeaf = true ∧ ¬IsGeometry j := by
  by_cases hj : ∃ items, j = .array items
  · obtain ⟨items, rfl⟩ := hj
    obtain ⟨ps, hps, rfl⟩ := map_eq_ok.1 hp
    have hg : ¬IsGeometry (.array items) := by
      rintro ⟨-, -, payload, hn⟩
      cases hn
    rw [Predicate.membership, misfits_isIn_list_iff, and_iff_left (isLeaf_of_constants hps),
      and_iff_left hg]
  · have hne : ∀ items, j ≠ .array items := fun items he => hj ⟨items, he⟩
    have hleaf : p.isLeaf = true ↔ ¬IsGeometry j := by
      rw [isLeaf_iff_of_operand hp, IsCollective, or_iff_right hj]
    rw [membership_of_ne_list (ne_list_of_operand hne hp), misfits_isIn_list_iff,
      List.forall_mem_singleton, hleaf]

/-! ## Descriptions in a description -/

/-- `Within k j`: the description `k` is `j` or stands somewhere in its logical operands. -/
inductive Within (k : Json) : Json → Prop
  | self : Within k k
  | operand {j i : Json} {h : Head} : head j = .ok h → h.kind = "logical" → i ∈ h.operands →
      Within k i → Within k j

/-- A description that no record has a truth value for: a spatial one, or one with a list or a
geometry where a single value is asked for. -/
inductive Misplaced (h : Head) : Prop
  | spatial : h.kind = "spatial" ∨ h.kind = "geometry" → Misplaced h
  | compared {o : Json} : h.kind = "comparison" → o ∈ h.operands → IsCollective o → Misplaced h
  | member {left : Json} {rest : List Json} : h.kind = "function" → h.operands = left :: rest →
      IsCollective left → Misplaced h
  | candidates {left right : Json} : h.kind = "function" → h.operands = [left, right] →
      IsGeometry right → Misplaced h

/-- Whether no description in a description is out of place. -/
def WellPlaced (j : Json) : Prop := ∀ k h, Within k j → head k = .ok h → ¬Misplaced h

theorem wellPlaced_iff_of_ne (hh : head j = .ok h) (hk : h.kind ≠ "logical") :
    WellPlaced j ↔ ¬Misplaced h := by
  constructor
  · intro hj
    exact hj j h .self hh
  · intro hm k g hw hg
    cases hw with
    | self =>
      cases hh.symm.trans hg
      exact hm
    | operand hh' hl =>
      cases hh.symm.trans hh'
      exact absurd hl hk

theorem wellPlaced_logical_iff (hh : head j = .ok h) (hk : h.kind = "logical") :
    WellPlaced j ↔ ∀ i ∈ h.operands, WellPlaced i := by
  constructor
  · intro hj i hi k g hw
    exact hj k g (.operand hh hk hi hw)
  · intro hj k g hw hg
    cases hw with
    | self =>
      cases hh.symm.trans hg
      intro hm
      cases hm <;> simp_all
    | operand hh' hl hi hw =>
      cases hh.symm.trans hh'
      exact hj _ hi k g hw hg

theorem wellPlaced_bool (b : Bool) : WellPlaced (.bool b) := by
  intro k h hw hh
  cases hw with
  | self => cases hh
  | operand hh' => cases hh'

theorem misplaced_comparison_iff (hk : h.kind = "comparison") :
    Misplaced h ↔ ∃ o ∈ h.operands, IsCollective o := by
  constructor
  · intro hm
    cases hm with
    | compared _ ho hc => exact ⟨_, ho, hc⟩
    | spatial hk' => simp [hk] at hk'
    | member hk' | candidates hk' => simp [hk] at hk'
  · rintro ⟨o, ho, hc⟩
    exact .compared hk ho hc

theorem misplaced_function_iff {left : Json} {rest : List Json} (hk : h.kind = "function")
    (hs : h.operands = left :: rest) :
    Misplaced h ↔ IsCollective left ∨ ∃ right, rest = [right] ∧ IsGeometry right := by
  constructor
  · intro hm
    cases hm with
    | member _ hs' hc =>
      cases hs.symm.trans hs'
      exact .inl hc
    | candidates _ hs' hg =>
      cases hs.symm.trans hs'
      exact .inr ⟨_, rfl, hg⟩
    | spatial hk' => simp [hk] at hk'
    | compared hk' => simp [hk] at hk'
  · rintro (hc | ⟨right, rfl, hg⟩)
    · exact .member hk hs hc
    · exact .candidates hk hs hg

/-! ## Trees of well placed descriptions -/

theorem misfits_joined (op : JoinOp) (p : Predicate) (ps : List Predicate) :
    (joined op p ps).misfits = p.misfits ++ ps.flatMap Predicate.misfits := by
  induction ps generalizing p with
  | nil => exact (List.append_nil _).symm
  | cons q qs ih =>
    have hj : joined op p (q :: qs) = joined op (.join op p q) qs := rfl
    rw [hj, ih, Predicate.misfits_join, List.flatMap_cons, List.append_assoc]

/-- The nodes of a converted tree are all in place exactly when the descriptions are. -/
theorem misfits_eq_nil_iff (hp : convertNested .strict budget j = .ok p) :
    p.misfits = [] ↔ WellPlaced j := by
  induction budget generalizing j p with
  | zero => exact absurd hp (convertNested_zero_ne_ok j p)
  | succ budget ih =>
    cases converts_of_convertNested hp with
    | boolean b => exact iff_of_true rfl (wellPlaced_bool b)
    | compare op hh hk _ hs hl hr =>
      rw [wellPlaced_iff_of_ne hh (by simp [hk]), misplaced_comparison_iff hk, hs,
        Predicate.misfits_compare, Predicate.misfitOperands_eq_nil_iff, List.forall_mem_cons,
        List.forall_mem_singleton, isLeaf_iff_of_operand hl, isLeaf_iff_of_operand hr]
      simp
    | isIn hh hk hs hl hr =>
      rw [wellPlaced_iff_of_ne hh (by simp [hk]), misplaced_function_iff hk hs,
        misfits_membership_iff hr, isLeaf_iff_of_operand hl]
      simp
    | @isInAll _ left items _ l ps hh hk hs hlen hl hps =>
      have hone : ∀ right, items ≠ [right] := by
        rintro right rfl
        simp at hlen
      rw [wellPlaced_iff_of_ne hh (by simp [hk]), misplaced_function_iff hk hs,
        misfits_isIn_list_iff, and_iff_left (isLeaf_of_constants hps), isLeaf_iff_of_operand hl]
      simp [hone]
    | spatial hh hk =>
      rw [wellPlaced_iff_of_ne hh (by rcases hk with hk | hk <;> simp [hk])]
      exact iff_of_false nofun (not_not.2 (.spatial hk))
    | not hh hk hs hq =>
      rw [wellPlaced_logical_iff hh hk, hs, List.forall_mem_singleton, ← ih hq]
      rfl
    | join op hh hk hs _ hq hqs =>
      rw [wellPlaced_logical_iff hh hk, hs, List.forall_mem_cons, misfits_joined,
        List.append_eq_nil_iff, ih hq, forall_mem_iff_of_forall₂ hqs fun _ _ h => (ih h).symm,
        List.flatMap_eq_nil_iff]

/-! ## Evaluating converted descriptions -/

/-- **Which converted descriptions can be evaluated.**  Where no description is spatial or has a list
or a geometry in place of a single value, evaluation of the tree never meets an unsupported node.
Anywhere else it has no truth value for any record, and unless a pattern that is too large comes
first, it always fails at an unsupported node. -/
theorem evaluate_of_convert (hp : convert .strict j = .ok p) :
    (WellPlaced j → ∀ session record kind value,
      p.evaluate session record ≠ .error (.unsupported kind value)) ∧
    (¬WellPlaced j → (∀ session record b, p.evaluate session record ≠ .ok b) ∧
      (p.PatternFree → ∀ session record, ∃ kind value,
        p.evaluate session record = .error (.unsupported kind value))) := by
  have hiff := misfits_eq_nil_iff (convert_strict_eq_ok_iff.1 hp).1
  constructor
  · intro hj session record kind value herror
    exact Predicate.misfits_ne_nil_of_evaluate_unsupported herror (hiff.2 hj)
  · intro hj
    have hne : p.misfits ≠ [] := mt hiff.1 hj
    refine ⟨fun session record b hok => hne (Predicate.misfits_of_evaluate_ok hok), ?_⟩
    intro hfree session record
    obtain ⟨q, qs, hq⟩ := List.exists_cons_of_ne_nil hne
    exact ⟨q.kind, q.value, (Predicate.evaluate_eq_error_iff hfree).2 ⟨q, by rw [hq]; rfl, rfl⟩⟩

/-- The description of `[a] = (1)`, which no expression says -/
def comparedList : Json := described "comparison" "=" [fieldNamed "a", .array [.integer 1]]

def comparedListTree : Predicate := .compare .equal (.field "a") (.list [.integer 1])

theorem convert_comparedList : convert .strict comparedList = .ok comparedListTree := by
  refine convert_strict_eq_ok_iff.2 ⟨rfl, ?_⟩
  rw [Predicate.height_eq_levels]
  decide

theorem not_wellPlaced_comparedList : ¬WellPlaced comparedList := by
  intro hj
  refine hj comparedList ⟨"comparison", "=", _⟩ .self rfl ?_
  exact .compared rfl (List.mem_cons_of_mem _ List.mem_cons_self) (.inl ⟨_, rfl⟩)

theorem patternFree_comparedListTree : comparedListTree.PatternFree := by
  intro op left right hw
  rcases Predicate.within_iff.1 hw with h | ⟨q, hq, hw⟩
  · cases h
    decide
  · have hfree : ∀ q ∈ comparedListTree.operands, q.PatternFree :=
      List.forall_mem_cons.2 ⟨.of_operands_nil rfl, List.forall_mem_singleton.2 <|
        .of_operands nofun (List.forall_mem_singleton.2 (.of_operands_nil rfl))⟩
    exact hfree q hq op left right hw

/-- A list beside a comparison is converted, and then fails every record; with lists on the right of
memberships only, no record fails. -/
theorem evaluate_of_convert_comparedList :
    (convert .strict comparedList = .ok comparedListTree ∧ ¬WellPlaced comparedList ∧
      ∀ session record, ∃ kind value,
        comparedListTree.evaluate session record = .error (.unsupported kind value)) ∧
    (convert .strict alternatives = .ok alternativesTree ∧ WellPlaced alternatives ∧
      ∀ session record kind value,
        alternativesTree.evaluate session record ≠ .error (.unsupported kind value)) := by
  obtain ⟨-, hlist⟩ := evaluate_of_convert convert_comparedList
  obtain ⟨hwell, -⟩ := evaluate_of_convert convert_alternatives
  have hj : WellPlaced alternatives :=
    (misfits_eq_nil_iff (convert_strict_eq_ok_iff.1 convert_alternatives).1).1 rfl
  refine ⟨⟨convert_comparedList, not_wellPlaced_comparedList, ?_⟩, convert_alternatives, hj, hwell hj⟩
  exact (hlist not_wellPlaced_comparedList).2 patternFree_comparedListTree

end Description

end RecordFilter
