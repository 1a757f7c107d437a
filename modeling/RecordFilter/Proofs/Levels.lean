import RecordFilter.Proofs.Conversion

/-!
# The levels of a description

At its own level a description is a tree, an error, or a negation or connective of further
descriptions.  Both conversions go through a description level by level, and differ only in what
they make of an error.

    convertNested s (budget + 1) j = recover s ((form j).build (convertNested s budget))
                                                                             (convertNested_succ)
    convertNested .lenient budget j = .ok (mended budget j)               (convertNested_lenient)
-/

namespace RecordFilter

namespace Description

variable {convert : Json → Except ConvertError Predicate} {s : Strictness} {j : Json} {h : Head}
  {p : Predicate} {budget : Nat}

/-! ## Forms -/

/-- What a description is at its own level. -/
inductive Form
  | leaf (r : Except ConvertError Predicate)
  | negation (inner : Json)
  | connective (op : JoinOp) (first second : Json) (rest : List Json)

/-- Only a logical description with the operands that its operator takes is made of descriptions. -/
def formOfHead (h : Head) : Form :=
  match h.kind, h.operator, h.operands with
  | "logical", "not", [inner] => .negation inner
  | "logical", "and", first :: second :: rest => .connective .and first second rest
  | "logical", "or", first :: second :: rest => .connective .or first second rest
  | _, _, _ => .leaf (ofHead (fun _ => .ok (.boolean true)) h)

def form (j : Json) : Form :=
  match j with
  | .bool b => .leaf (.ok (.boolean b))
  | .object _ =>
    match head j with
    | .ok h => formOfHead h
    | .error e => .leaf (.error e)
  | j => .leaf (.error (.notAPredicate j.compact))

/-- The descriptions one level further in. -/
def Form.parts : Form → List Json
  | leaf _ => []
  | negation inner => [inner]
  | connective _ first second rest => first :: second :: rest

def Form.build (convert : Json → Except ConvertError Predicate) :
    Form → Except ConvertError Predicate
  | leaf r => r
  | negation inner => (convert inner).map .not
  | connective op first second rest => do
    let p ← convert first
    joinAll convert op p (second :: rest)

/-- A logical description that is none of other descriptions is an error, whatever converts them. -/
theorem logical_eq_of_forall_ne {other : Json → Except ConvertError Predicate}
    (hnot : ∀ inner, h.operator = "not" → h.operands ≠ [inner])
    (hand : ∀ first second rest, h.operator = "and" → h.operands ≠ first :: second :: rest)
    (hor : ∀ first second rest, h.operator = "or" → h.operands ≠ first :: second :: rest) :
    logical convert h = logical other h := by
  simp only [logical]
  split
  · rename_i ho
    split
    · rename_i inner hs
      exact absurd hs (hnot inner ho)
    · rfl
  · rename_i ho
    split
    · rename_i first second rest hs
      exact absurd hs (hand first second rest ho)
    · rfl
  · rename_i ho
    split
    · rename_i first second rest hs
      exact absurd hs (hor first second rest ho)
    · rfl
  · rfl

theorem ofHead_eq (convert : Json → Except ConvertError Predicate) (h : Head) :
    ofHead convert h = (formOfHead h).build convert := by
  unfold formOfHead
  split
  · rename_i hk ho hs
    simp only [ofHead, hk, logical, ho, hs, Form.build]
  · rename_i hk ho hs
    simp only [ofHead, hk, logical, ho, hs, Form.build]
  · rename_i hk ho hs
    simp only [ofHead, hk, logical, ho, hs, Form.build]
  · -- no operand is converted, so it does not matter how operands are converted
    rename_i hnot hand hor
    show _ = ofHead _ h
    by_cases hk : h.kind = "logical"
    · simp only [ofHead, hk]
      exact logical_eq_of_forall_ne (fun inner => hnot inner hk)
        (fun first second rest => hand first second rest hk)
        (fun first second rest => hor first second rest hk)
    · unfold ofHead
      split
      case h_5 hlogical => exact absurd hlogical hk
      all_goals rfl

theorem convertNested_succ (s : Strictness) (budget : Nat) (j : Json) :
    convertNested s (budget + 1) j = recover s ((form j).build (convertNested s budget)) := by
  cases j with
  | object members =>
    rw [convertNested, form]
    cases hh : head (.object members) with
    | ok h =>
      show recover s (ofHead _ h) = recover s ((formOfHead h).build _)
      rw [ofHead_eq]
    | error e => rfl
  | _ => rfl

theorem convertNested_strict_one (hj : form j = .leaf (.ok p)) :
    convertNested .strict 1 j = .ok p := by
  rw [convertNested_succ, hj, recover_strict]
  rfl

/-- The descriptions further in are operands of the description, which is a logical one. -/
theorem mem_operands_of_parts {k : Json} (hk : k ∈ (form j).parts) :
    ∃ h, head j = .ok h ∧ h.kind = "logical" ∧ k ∈ h.operands := by
  unfold form at hk
  split at hk
  · cases hk
  · split at hk
    · rename_i h hh
      refine ⟨h, hh, ?_⟩
      unfold formOfHead at hk
      split at hk
      · rename_i hl _ hs
        rw [hs]
        exact ⟨hl, hk⟩
      · rename_i hl _ hs
        rw [hs]
        exact ⟨hl, hk⟩
      · rename_i hl _ hs
        rw [hs]
        exact ⟨hl, hk⟩
      · cases hk
    · cases hk
  · cases hk

/-! ## Lenient conversion -/

/-- The tree of a description, with `true` for each part that is in error or too far in. -/
def mended : Nat → Json → Predicate
  | 0, _ => .boolean true
  | budget + 1, j =>
    match form j with
    | .leaf (.ok p) => p
    | .leaf (.error _) => .boolean true
    | .negation inner => .not (mended budget inner)
    | .connective op first second rest =>
      joined op (mended budget first) ((second :: rest).map (mended budget))

theorem mended_leaf {r : Except ConvertError Predicate} (hj : form j = .leaf r) (budget : Nat) :
    mended budget j = .boolean true ∨ r = .ok (mended budget j) := by
  cases budget with
  | zero => exact .inl rfl
  | succ budget =>
    rw [mended, hj]
    cases r with
    | ok p => exact .inr rfl
    | error e => exact .inl rfl

theorem mended_negation {inner : Json} (hj : form j = .negation inner) (budget : Nat) :
    mended (budget + 1) j = .not (mended budget inner) := by
  rw [mended, hj]

theorem mended_connective {op : JoinOp} {first second : Json} {rest : List Json}
    (hj : form j = .connective op first second rest) (budget : Nat) :
    mended (budget + 1) j =
      joined op (mended budget first) ((second :: rest).map (mended budget)) := by
  rw [mended, hj]

theorem joinAll_of_forall {f : Json → Predicate} {js : List Json}
    (h : ∀ k ∈ js, convert k = .ok (f k)) (op : JoinOp) (p : Predicate) :
    joinAll convert op p js = .ok (joined op p (js.map f)) := by
  induction js generalizing p with
  | nil => rfl
  | cons j js ih =>
    obtain ⟨hj, hjs⟩ := List.forall_mem_cons.1 h
    rw [joinAll, hj]
    exact ih hjs _

/-- Lenient conversion always has a tree. -/
theorem convertNested_lenient (budget : Nat) (j : Json) :
    convertNested .lenient budget j = .ok (mended budget j) := by
  induction budget generalizing j with
  | zero => rfl
  | succ budget ih =>
    rw [convertNested_succ, mended]
    cases form j with
    | leaf r => cases r <;> rfl
    | negation inner =>
      rw [Form.build, ih inner]
      rfl
    | connective op first second rest =>
      rw [Form.build, ih first]
      show recover .lenient (joinAll _ _ _ _) = _
      rw [joinAll_of_forall fun k _ => ih k]
      rfl

theorem convert_lenient (j : Json) :
    Description.convert .lenient j =
      .ok (if (mended Predicate.nestingLimit j).height ≤ Predicate.heightLimit
        then mended Predicate.nestingLimit j else .boolean true) := by
  rw [Description.convert, convertAnyHeight, convertNested_lenient]
  by_cases hh : (mended Predicate.nestingLimit j).height ≤ Predicate.heightLimit
  · rw [if_pos hh]
    exact if_pos hh
  · rw [if_neg hh]
    exact if_neg hh

theorem convertLenient_eq (j : Json) :
    convertLenient j = if (mended Predicate.nestingLimit j).height ≤ Predicate.heightLimit
      then mended Predicate.nestingLimit j else .boolean true := by
  rw [convertLenient, convert_lenient]

end Description

end RecordFilter
