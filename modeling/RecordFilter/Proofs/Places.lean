import RecordFilter.Proofs.Failures
import RecordFilter.Proofs.Parts

/-!
# Places of nodes

Every node of a tree stands in a place: it is a condition, an operand or the right side of a
membership, and each place admits some kinds of nodes only.  A tree without patterns has a truth
value for every record, or else the same error for every record, which names the first node that
its place does not admit.

    Blames misplaced p.misfits (p.evaluate session record)                  (blames_misplaced)
    (k, q) ∈ p.visits ↔ Stands k q p                                              (mem_visits)
-/

namespace RecordFilter

/-- Where a node stands. -/
inductive Place
  | condition
  | operand
  | candidates
  deriving DecidableEq

/-- The nodes that may stand in a place: lists, geometries and spatial tests are no conditions, an
operand has a value of its own, and the right side of a membership is a list. -/
def Place.admits : Place → Predicate → Bool
  | condition, .list _ => false
  | condition, .geometry _ => false
  | condition, .spatial _ _ _ => false
  | condition, _ => true
  | operand, p => p.isLeaf
  | candidates, .list _ => true
  | candidates, _ => false

namespace Predicate

/-! ## Places in a tree -/

/-- `Stands k q p`: the node `q` stands in a place `k` of the condition `p`. -/
inductive Stands : Place → Predicate → Predicate → Prop
  | root (p : Predicate) : Stands .condition p p
  | not {k : Place} {q inner : Predicate} : Stands k q inner → Stands k q (.not inner)
  | join_left {k : Place} {q left right : Predicate} (op : JoinOp) :
      Stands k q left → Stands k q (.join op left right)
  | join_right {k : Place} {q left right : Predicate} (op : JoinOp) :
      Stands k q right → Stands k q (.join op left right)
  | compare_left (op : CompareOp) (left right : Predicate) :
      Stands .operand left (.compare op left right)
  | compare_right (op : CompareOp) (left right : Predicate) :
      Stands .operand right (.compare op left right)
  | isIn_left (left right : Predicate) : Stands .operand left (.isIn left right)
  | isIn_right (left right : Predicate) : Stands .candidates right (.isIn left right)
  | entry {item : Predicate} {items : List Predicate} (left : Predicate) :
      item ∈ items → Stands .operand item (.isIn left (.list items))

/-- The entries of a list. -/
def listed : Predicate → List Predicate
  | list items => items
  | _ => []

/-- The nodes of a condition with their places, from left to right; only that the right side of a
membership is a list comes before its left side. -/
def visits : Predicate → List (Place × Predicate)
  | .not inner => (.condition, .not inner) :: inner.visits
  | .join op left right => (.condition, .join op left right) :: (left.visits ++ right.visits)
  | .compare op left right =>
    (.condition, .compare op left right) :: [left, right].map (.operand, ·)
  | .isIn left right =>
    (.condition, .isIn left right) :: (.candidates, right) ::
      (left :: right.listed).map (.operand, ·)
  | p => [(.condition, p)]

variable {p q left right : Predicate} {k : Place} {items : List Predicate}

theorem mem_listed (h : q ∈ right.listed) : ∃ items, right = list items ∧ q ∈ items := by
  cases right with
  | list items => exact ⟨items, rfl, h⟩
  | _ => cases h

/-- The visited nodes are those that stand somewhere. -/
theorem mem_visits : (k, q) ∈ p.visits ↔ Stands k q p := by
  constructor
  · intro h
    induction p using operandInduction with
    | step p ih =>
      cases p with
      | not inner =>
        rcases List.mem_cons.1 h with h | h
        · cases h
          exact .root _
        · exact .not (ih inner (by simp [operands]) h)
      | join op left right =>
        rcases List.mem_cons.1 h with h | h
        · cases h
          exact .root _
        · rcases List.mem_append.1 h with h | h
          · exact .join_left op (ih left (by simp [operands]) h)
          · exact .join_right op (ih right (by simp [operands]) h)
      | compare op left right =>
        rcases List.mem_cons.1 h with h | h
        · cases h
          exact .root _
        · simp only [List.mem_map, List.mem_cons, List.not_mem_nil, or_false, Prod.mk.injEq] at h
          obtain ⟨_, rfl | rfl, rfl, rfl⟩ := h
          · exact .compare_left ..
          · exact .compare_right ..
      | isIn left right =>
        rcases List.mem_cons.1 h with h | h
        · cases h
          exact .root _
        · simp only [List.mem_map, List.mem_cons, Prod.mk.injEq] at h
          obtain ⟨rfl, rfl⟩ | ⟨_, rfl | hi, rfl, rfl⟩ := h
          · exact .isIn_right ..
          · exact .isIn_left ..
          · obtain ⟨items, rfl, hi⟩ := mem_listed hi
            exact .entry left hi
      | _ =>
        cases List.mem_singleton.1 h
        exact .root _
  · intro h
    induction h with
    | root p => cases p <;> exact List.mem_cons_self
    | not _ ih => exact List.mem_cons_of_mem _ ih
    | join_left _ _ ih => exact List.mem_cons_of_mem _ (List.mem_append_left _ ih)
    | join_right _ _ ih => exact List.mem_cons_of_mem _ (List.mem_append_right _ ih)
    | compare_left | compare_right | isIn_left | isIn_right => simp [visits]
    | entry left hi => simp [visits, listed, hi]

/-! ## Nodes out of place -/

/-- The nodes that their places do not admit, in the order of the visit. -/
def misfits (p : Predicate) : List Predicate :=
  (p.visits.filter fun v => !v.1.admits v.2).map Prod.snd

theorem mem_misfits : q ∈ p.misfits ↔ ∃ k, Stands k q p ∧ k.admits q = false := by
  simp only [misfits, List.mem_map, List.mem_filter, Bool.not_eq_true', Prod.exists, mem_visits]
  constructor
  · rintro ⟨k, q, h, rfl⟩
    exact ⟨k, h⟩
  · rintro ⟨k, h⟩
    exact ⟨k, q, h, rfl⟩

/-- Whether no `like` and no `ilike` stands in a tree. -/
def PatternFree (p : Predicate) : Prop :=
  ∀ op left right, (compare op left right).Within p → op ≠ .like ∧ op ≠ .ilike

theorem PatternFree.operand (h : p.PatternFree) (hq : q ∈ p.operands) : q.PatternFree :=
  fun op left right hc => h op left right (.operand hq hc)

theorem PatternFree.of_operands (hp : ∀ op left right, p ≠ compare op left right)
    (h : ∀ q ∈ p.operands, q.PatternFree) : p.PatternFree := by
  intro op left right hc
  rcases within_iff.1 hc with heq | ⟨q, hq, hc⟩
  · exact absurd heq.symm (hp op left right)
  · exact h q hq op left right hc

theorem PatternFree.of_operands_nil (h : p.operands = []) : p.PatternFree := by
  refine .of_operands ?_ (by rw [h]; exact nofun)
  rintro op left right rfl
  cases h

theorem PatternFree.relation?_isSome {op : CompareOp} (h : (compare op left right).PatternFree) :
    op.relation?.isSome = true := by
  obtain ⟨hl, hi⟩ := h op left right .self
  cases op with
  | like => exact absurd rfl hl
  | ilike => exact absurd rfl hi
  | _ => rfl

/-! ## Evaluation -/

variable {session : Variables} {record : Record}

/-- The operands that have no value. -/
def misfitOperands (ps : List Predicate) : List Predicate := ps.filter fun p => !p.isLeaf

theorem misfitOperands_cons (p : Predicate) (ps : List Predicate) :
    misfitOperands (p :: ps) = misfitOperands [p] ++ misfitOperands ps :=
  List.filter_append [p] ps

theorem blames_leafValue (p : Predicate) :
    Blames misplaced (misfitOperands [p]) (leafValue session record p) := by
  cases p with
  | field | var | string | integer | float | boolean | null => exact ⟨_, rfl⟩
  | _ => rfl

theorem blames_entered (items : List Predicate) :
    Blames misplaced (misfitOperands items) (entered session record items) := by
  induction items with
  | nil => exact ⟨_, rfl⟩
  | cons p ps ih =>
    rw [entered, misfitOperands_cons]
    exact (blames_leafValue p).bind fun _ _ => ih.bind_ok fun _ _ => ⟨_, rfl⟩

theorem misfits_operands (ps : List Predicate) :
    ((ps.map (Place.operand, ·)).filter fun v => !v.1.admits v.2).map Prod.snd =
      misfitOperands ps := by
  rw [List.filter_map, List.map_map]
  exact List.map_id _

theorem misfits_not (inner : Predicate) : (not inner).misfits = inner.misfits := rfl

theorem misfits_join (op : JoinOp) (left right : Predicate) :
    (join op left right).misfits = left.misfits ++ right.misfits := by
  show ((left.visits ++ right.visits).filter _).map _ = _
  rw [List.filter_append, List.map_append]
  rfl

theorem misfits_compare (op : CompareOp) (left right : Predicate) :
    (compare op left right).misfits = misfitOperands [left, right] :=
  misfits_operands [left, right]

theorem misfits_isIn (left right : Predicate) :
    (isIn left right).misfits =
      [right].filter (fun q => !Place.candidates.admits q) ++
        misfitOperands (left :: right.listed) := by
  rw [← misfits_operands]
  cases right <;> rfl

/-- **What a tree without patterns evaluates to.**  It has a truth value, unless a node is out of
place; then the error names the first such node. -/
theorem blames_misplaced (h : p.PatternFree) :
    Blames misplaced p.misfits (p.evaluate session record) := by
  induction p using operandInduction with
  | step p ih =>
    cases p with
    | not inner =>
      have hi : inner ∈ (not inner).operands := by simp [operands]
      rw [evaluate, misfits_not]
      exact (ih inner hi (h.operand hi)).bind_ok fun b _ => ⟨!b, rfl⟩
    | join op left right =>
      have hl : left ∈ (join op left right).operands := by simp [operands]
      have hr : right ∈ (join op left right).operands := by simp [operands]
      rw [evaluate, misfits_join]
      exact (ih left hl (h.operand hl)).bind fun a _ =>
        (ih right hr (h.operand hr)).bind_ok fun b _ => ⟨_, rfl⟩
    | compare op left right =>
      rw [evaluate, misfits_compare, misfitOperands_cons]
      exact (blames_leafValue left).bind fun v _ => (blames_leafValue right).bind_ok fun w _ =>
        exists_comparisonHolds h.relation?_isSome v w
    | isIn left right =>
      rw [evaluate, misfits_isIn]
      cases right with
      | list items =>
        show Blames misplaced (misfitOperands (left :: items)) _
        rw [membershipHolds, misfitOperands_cons]
        exact (blames_leafValue left).bind fun _ _ => (blames_entered items).bind_ok fun _ _ =>
          ⟨_, rfl⟩
      | _ => rfl
    | list | geometry | spatial => rfl
    | _ => exact ⟨_, rfl⟩

/-- The error of a tree without patterns does not depend on the record. -/
theorem evaluate_eq_error_iff (h : p.PatternFree) {e : EvalError} :
    p.evaluate session record = .error e ↔ ∃ q, p.misfits.head? = some q ∧ q.misplaced = e :=
  (blames_misplaced h).eq_error_iff

theorem head?_misfits : p.misfits.head? = some q ↔
    ∃ k, p.visits.find? (fun v => !v.1.admits v.2) = some (k, q) := by
  rw [misfits, List.head?_map, List.head?_filter, Option.map_eq_some_iff, Prod.exists]
  constructor
  · rintro ⟨k, q, h, rfl⟩
    exact ⟨k, h⟩
  · rintro ⟨k, h⟩
    exact ⟨k, q, h, rfl⟩

/-- **A node out of place fails every record.**  The evaluation of a tree without patterns meets an
unsupported node for one record and session if and only if it fails with this node for all of them.
It meets one exactly where the tree has a node that its place does not admit, and of these nodes it
names the first one. -/
theorem evaluate_unsupported_iff (h : p.PatternFree) :
    (∀ kind value,
      (∃ session record, p.evaluate session record = .error (.unsupported kind value)) ↔
        ∀ session record, p.evaluate session record = .error (.unsupported kind value)) ∧
    ((∃ session record kind value,
        p.evaluate session record = .error (.unsupported kind value)) ↔
      ∃ k q, Stands k q p ∧ k.admits q = false) ∧
    ∀ k q, p.visits.find? (fun v => !v.1.admits v.2) = some (k, q) →
      ∀ session record, p.evaluate session record = .error (.unsupported q.kind q.value) := by
  refine ⟨fun kind value => ⟨?_, fun hall => ⟨.empty, .empty, hall _ _⟩⟩, ?_, ?_⟩
  · rintro ⟨session, record, herror⟩ session' record'
    rw [evaluate_eq_error_iff h] at herror ⊢
    exact herror
  · constructor
    · rintro ⟨session, record, kind, value, herror⟩
      obtain ⟨q, hq, -⟩ := (evaluate_eq_error_iff h).1 herror
      obtain ⟨k, hk⟩ := mem_misfits.1 (List.mem_of_mem_head? hq)
      exact ⟨k, q, hk⟩
    · rintro ⟨k, q, hk⟩
      -- some node is out of place, so there is a first one
      obtain ⟨r, rs, hr⟩ := List.exists_cons_of_ne_nil (List.ne_nil_of_mem (mem_misfits.2 ⟨k, hk⟩))
      exact ⟨.empty, .empty, r.kind, r.value,
        (evaluate_eq_error_iff h).2 ⟨r, by rw [hr, List.head?_cons], rfl⟩⟩
  · intro k q hq session record
    exact (evaluate_eq_error_iff h).2 ⟨q, head?_misfits.2 ⟨k, hq⟩, rfl⟩

/-- `not intersects([a], null) & () in [b]`, which no expression says: three nodes are out of place,
and in the membership the right side comes first. -/
def misplacedTree : Predicate :=
  .join .and (.not (.spatial .intersects (.field "a") (.geometry .null)))
    (.isIn (.list []) (.field "b"))

theorem patternFree_misplacedTree : misplacedTree.PatternFree := by
  refine .of_operands nofun (List.forall_mem_cons.2 ⟨?_, List.forall_mem_singleton.2 ?_⟩)
  · refine .of_operands nofun (List.forall_mem_singleton.2 (.of_operands nofun ?_))
    exact List.forall_mem_cons.2
      ⟨.of_operands_nil rfl, List.forall_mem_singleton.2 (.of_operands_nil rfl)⟩
  · refine .of_operands nofun (List.forall_mem_cons.2 ⟨.of_operands_nil rfl, ?_⟩)
    exact List.forall_mem_singleton.2 (.of_operands_nil rfl)

theorem evaluate_unsupported_misplacedTree :
    misplacedTree.PatternFree ∧
      misplacedTree.misfits.map kind = [.spatial, .field, .operandList] ∧
      ∀ session record,
        misplacedTree.evaluate session record = .error (.unsupported .spatial "intersects") := by
  obtain ⟨-, -, hfirst⟩ := evaluate_unsupported_iff patternFree_misplacedTree
  exact ⟨patternFree_misplacedTree, rfl, hfirst .condition _ rfl⟩

end Predicate

end RecordFilter
