import RecordFilter.Proofs.Description
import RecordFilter.Proofs.Levels

/-!
# Writing leniently converted descriptions

Where strict conversion gives up for want of a level, lenient conversion goes on with `true`, which
takes up a level of its own.  So the text of the tree may have one pair of parentheses or one `not`
more than the text of any strictly converted tree, and then it is refused.  `Reaches` tells which
descriptions have so many levels that count.

    (mended budget j).isJoin.toNat + (mended budget j).printedNesting ≤ budget
                             and less than budget exactly if not Reaches budget j   (nesting_mended)
    parse (convertLenient j).text is too deep ↔ Overreaches j           (parse_text_convertLenient)
-/

namespace RecordFilter

namespace Description

variable {j : Json} {p : Predicate} {ps : List Predicate} {op : JoinOp} {budget n : Nat}

/-! ## Nesting of joined trees -/

theorem printedNesting_joined_lt_iff {q : Predicate} :
    (joined op p (q :: ps)).printedNesting < n ↔
      (p.isJoinOtherThan op).toNat + p.printedNesting < n ∧
        ∀ r ∈ q :: ps, r.isJoin.toNat + r.printedNesting < n := by
  constructor
  · intro h
    induction ps generalizing p q with
    | nil =>
      have hmax : max ((p.isJoinOtherThan op).toNat + p.printedNesting)
        (q.isJoin.toNat + q.printedNesting) < n := h
      rw [Nat.max_lt] at hmax
      exact ⟨hmax.1, List.forall_mem_singleton.2 hmax.2⟩
    | cons r rs ih =>
      obtain ⟨hjoin, hrest⟩ := ih h
      have hsame : (Predicate.join op p q).isJoinOtherThan op = false := bne_self_eq_false op
      rw [hsame, Bool.toNat_false, Nat.zero_add, Predicate.printedNesting, Nat.max_lt] at hjoin
      exact ⟨hjoin.1, List.forall_mem_cons.2 ⟨hjoin.2, hrest⟩⟩
  · rintro ⟨hp, hps⟩
    exact printedNesting_joined_lt hp hps

theorem isJoin_joined {q : Predicate} : (joined op p (q :: ps)).isJoin = true := by
  induction ps generalizing p q with
  | nil => rfl
  | cons r rs ih => exact ih

theorem isJoinOtherThan_joined {q : Predicate} (other : JoinOp) :
    (joined op p (q :: ps)).isJoinOtherThan other = (op != other) := by
  induction ps generalizing p q with
  | nil => rfl
  | cons r rs ih => exact ih

/-! ## Levels that count -/

/-- `Reaches n j`: going in from `j`, there are `n` levels that each are a `not` or a pair of
parentheses of the text.  The first operand of a connective has no parentheses of its own if it is
a connective with the same operator. -/
def Reaches : Nat → Json → Prop
  | 0, _ => True
  | n + 1, j =>
    match form j with
    | .leaf _ => False
    | .negation inner => Reaches n inner
    | .connective op first second rest =>
      (Reaches n first ∧ ∀ first' second' rest', form first ≠ .connective op first' second' rest') ∨
        ∃ k ∈ second :: rest, Reaches n k

/-- What is converted at its own level is no join, and no clause in it is nested. -/
theorem nesting_leaf (hj : form j = .leaf (.ok p)) : p.isJoin = false ∧ p.printedNesting = 0 := by
  have hlt := printedNesting_lt_of_convertNested (convertNested_strict_one hj)
  rw [Nat.lt_one_iff, Nat.add_eq_zero_iff, Bool.toNat_eq_zero] at hlt
  exact hlt

theorem reaches_leaf {r : Except ConvertError Predicate} (hj : form j = .leaf r) :
    Reaches n j ↔ n = 0 := by
  cases n with
  | zero => exact iff_of_true trivial rfl
  | succ n =>
    rw [Reaches, hj]
    exact iff_of_false id (Nat.succ_ne_zero n)

theorem reaches_negation {inner : Json} (hj : form j = .negation inner) :
    Reaches (n + 1) j ↔ Reaches n inner := by
  rw [Reaches, hj]

theorem reaches_connective {first second : Json} {rest : List Json}
    (hj : form j = .connective op first second rest) : Reaches (n + 1) j ↔
      (Reaches n first ∧ ∀ first' second' rest', form first ≠ .connective op first' second' rest') ∨
        ∃ k ∈ second :: rest, Reaches n k := by
  rw [Reaches, hj]

theorem nesting_mended_leaf {r : Except ConvertError Predicate} (hj : form j = .leaf r)
    (budget : Nat) :
    (mended budget j).isJoin.toNat + (mended budget j).printedNesting = 0 := by
  rcases mended_leaf hj budget with hm | hm
  · rw [hm]
    rfl
  · obtain ⟨hjoin, hnesting⟩ := nesting_leaf (hj.trans (congrArg Form.leaf hm))
    rw [hjoin, hnesting]
    rfl

/-- On the left of a connective a connective with the same operator needs no parentheses, so its
text is not nested as deep as it could be. -/
theorem nesting_first_lt_iff
    (hle : (mended (budget + 1) j).isJoin.toNat + (mended (budget + 1) j).printedNesting ≤
      budget + 1)
    (hlt : (mended (budget + 1) j).isJoin.toNat + (mended (budget + 1) j).printedNesting <
      budget + 1 ↔ ¬Reaches (budget + 1) j) :
    ((mended (budget + 1) j).isJoinOtherThan op).toNat + (mended (budget + 1) j).printedNesting <
        budget + 1 ↔
      ¬(Reaches (budget + 1) j ∧
        ∀ first' second' rest', form j ≠ .connective op first' second' rest') := by
  cases hj : form j with
  | leaf r =>
    have hzero := nesting_mended_leaf hj (budget + 1)
    have hother := toNat_isJoinOtherThan_le op (mended (budget + 1) j)
    refine iff_of_true (by omega) ?_
    rw [reaches_leaf hj]
    exact fun h => Nat.succ_ne_zero budget h.1
  | negation inner =>
    have hsame : (mended (budget + 1) j).isJoinOtherThan op = (mended (budget + 1) j).isJoin := by
      rw [mended_negation hj]
      rfl
    rw [hsame, hlt, and_iff_left nofun]
  | connective op' first second rest =>
    have hm := mended_connective hj budget
    rw [List.map_cons] at hm
    have hjoin : (mended (budget + 1) j).isJoin = true := by rw [hm, isJoin_joined]
    have hother : (mended (budget + 1) j).isJoinOtherThan op = (op' != op) := by
      rw [hm, isJoinOtherThan_joined]
    by_cases hop : op' = op
    · -- the parentheses left out here are those that the level of the first operand stands for
      subst hop
      rw [hjoin, Bool.toNat_true] at hle
      rw [hother, bne_self_eq_false, Bool.toNat_false]
      exact iff_of_true (by omega) fun h => h.2 first second rest rfl
    · rw [hother, bne_iff_ne.2 hop, ← hjoin, hlt, and_iff_left]
      rintro first' second' rest' h
      cases h
      exact hop rfl

/-- Each level of a description adds at most one pair of parentheses or one `not` to the text.  So
many are added only where the description reaches as far. -/
theorem nesting_mended (budget : Nat) (j : Json) :
    (mended budget j).isJoin.toNat + (mended budget j).printedNesting ≤ budget ∧
      ((mended budget j).isJoin.toNat + (mended budget j).printedNesting < budget ↔
        ¬Reaches budget j) := by
  induction budget generalizing j with
  | zero => exact ⟨Nat.le_refl 0, iff_of_false (Nat.lt_irrefl 0) (not_not_intro trivial)⟩
  | succ budget ih =>
    cases hj : form j with
    | leaf r =>
      rw [nesting_mended_leaf hj, reaches_leaf hj]
      exact ⟨Nat.zero_le _, iff_of_true (Nat.succ_pos _) (Nat.succ_ne_zero _)⟩
    | negation inner =>
      have hnot : (Predicate.not (mended budget inner)).isJoin = false := rfl
      obtain ⟨hle, hlt⟩ := ih inner
      rw [mended_negation hj, reaches_negation hj, hnot, Predicate.printedNesting, Bool.toNat_false,
        Nat.zero_add, Nat.add_lt_add_iff_right]
      exact ⟨Nat.add_le_add_right hle 1, hlt⟩
    | connective op first second rest =>
      -- this level is the parentheses around the connective, its operands have the other ones
      have hother := toNat_isJoinOtherThan_le op (mended budget first)
      rw [mended_connective hj, List.map_cons, isJoin_joined, Bool.toNat_true, Nat.add_comm 1,
        reaches_connective hj, Nat.add_lt_add_iff_right]
      constructor
      · refine Nat.succ_le_succ (Nat.lt_succ_iff.1 (printedNesting_joined_lt_iff.2 ⟨?_, ?_⟩))
        · have hfirst := (ih first).1
          omega
        · rw [← List.map_cons, List.forall_mem_map]
          exact fun k _ => Nat.lt_succ_of_le (ih k).1
      · rw [printedNesting_joined_lt_iff, ← List.map_cons, List.forall_mem_map, not_or]
        have hrest : (∀ k ∈ second :: rest, (mended budget k).isJoin.toNat +
            (mended budget k).printedNesting < budget) ↔
            ¬∃ k ∈ second :: rest, Reaches budget k := by
          simp only [(ih _).2, not_exists, not_and]
        cases budget with
        | zero =>
          -- without a level left, also the other operands reach as far as they have to
          refine iff_of_false (fun h => Nat.not_lt_zero _ h.1) fun h => ?_
          exact h.2 ⟨second, List.mem_cons_self, trivial⟩
        | succ budget =>
          exact and_congr (nesting_first_lt_iff (ih first).1 (ih first).2) hrest

/-- The text of a whole tree has no parentheses around it, so only the text of a negation can be
nested as deep as its description. -/
theorem printedNesting_mended_lt_iff (budget : Nat) (j : Json) :
    (mended (budget + 1) j).printedNesting < budget + 1 ↔
      ¬∃ inner, form j = .negation inner ∧ Reaches budget inner := by
  cases hj : form j with
  | leaf r =>
    have hzero := nesting_mended_leaf hj (budget + 1)
    refine iff_of_true (by omega) ?_
    rintro ⟨inner, h, -⟩
    cases h
  | negation inner =>
    rw [mended_negation hj, Predicate.printedNesting, Nat.add_lt_add_iff_right,
      (nesting_mended budget inner).2, not_iff_not]
    constructor
    · exact fun h => ⟨inner, rfl, h⟩
    · rintro ⟨inner', h, hr⟩
      cases h
      exact hr
  | connective op first second rest =>
    have hle := (nesting_mended (budget + 1) j).1
    have hjoin : (mended (budget + 1) j).isJoin = true := by
      rw [mended_connective hj, List.map_cons, isJoin_joined]
    rw [hjoin, Bool.toNat_true] at hle
    refine iff_of_true (by omega) ?_
    rintro ⟨inner, h, -⟩
    cases h

/-! ## Numbers -/

theorem fits_of_parts (hj : j.Fits) : ∀ k ∈ (form j).parts, k.Fits := by
  intro k hk
  obtain ⟨h, hh, -, hk⟩ := mem_operands_of_parts hk
  exact fits_of_head hj hh k hk

theorem hasFiniteFloats_mended (hj : j.Fits) (budget : Nat) :
    (mended budget j).hasFiniteFloats = true := by
  induction budget generalizing j with
  | zero => rfl
  | succ budget ih =>
    have hparts := fits_of_parts hj
    cases hform : form j with
    | leaf r =>
      rcases mended_leaf hform (budget + 1) with hm | hm
      · rw [hm]
        rfl
      · exact hasFiniteFloats_of_convertNested hj
          (convertNested_strict_one (hform.trans (congrArg Form.leaf hm)))
    | negation inner =>
      rw [hform] at hparts
      rw [mended_negation hform, Predicate.hasFiniteFloats]
      exact ih (List.forall_mem_singleton.1 hparts)
    | connective op first second rest =>
      rw [hform] at hparts
      obtain ⟨hfirst, hrest⟩ := List.forall_mem_cons.1 hparts
      rw [mended_connective hform]
      exact hasFiniteFloats_joined (ih hfirst)
        (List.forall_mem_map.2 fun k hk => ih (hrest k hk))

/-! ## Reading written descriptions -/

/-- Whether a description is a negation with as many levels that count, itself included, as the
parser has levels for clauses.  A tree that is too high never gets so far: it is replaced as a
whole. -/
def Overreaches (j : Json) : Prop :=
  (mended Predicate.nestingLimit j).height ≤ Predicate.heightLimit ∧
    ∃ inner, form j = .negation inner ∧ Reaches (Predicate.nestingLimit - 1) inner

theorem height_negated (n : Nat) (b : Bool) :
    (Predicate.negated n (.boolean b)).height = n + 1 := by
  rw [Predicate.height_negated, Predicate.height_eq_levels]
  exact Nat.add_comm 1 n

theorem height_convertLenient_le (j : Json) :
    (convertLenient j).height ≤ Predicate.heightLimit := by
  rw [convertLenient_eq]
  split
  · assumption
  · exact (height_negated 0 true).trans_le (by decide)

theorem hasFiniteFloats_convertLenient (hj : j.Fits) :
    (convertLenient j).hasFiniteFloats = true := by
  rw [convertLenient_eq]
  split
  · exact hasFiniteFloats_mended hj _
  · rfl

theorem printedNesting_convertLenient_lt_iff (j : Json) :
    (convertLenient j).printedNesting < Predicate.nestingLimit ↔ ¬Overreaches j := by
  rw [convertLenient_eq, Overreaches]
  split
  · rename_i hh
    rw [and_iff_right hh]
    exact printedNesting_mended_lt_iff (Predicate.nestingLimit - 1) j
  · rename_i hh
    exact iff_of_true (by decide) fun h => hh h.1

/-- **What is lost of leniently converted descriptions.**  The text of the tree of a description is
refused as too deep exactly where the description overreaches: where it is a negation and goes in
so far that the converter gives up, by levels that each are a `not` or a pair of parentheses of the
text.  Otherwise the tree comes back. -/
theorem parse_text_convertLenient (hj : j.Fits) (he : (convertLenient j).Expressible) :
    ((∃ limit offset, Predicate.parse (convertLenient j).text = .error (.tooDeep limit offset)) ↔
        Overreaches j) ∧
      (¬Overreaches j → Predicate.parse (convertLenient j).text = .ok (convertLenient j)) := by
  have hf := hasFiniteFloats_convertLenient hj
  have hback : ¬Overreaches j →
      Predicate.parse (convertLenient j).text = .ok (convertLenient j) := by
    intro ho
    exact Predicate.parse_text he hf ((printedNesting_convertLenient_lt_iff j).2 ho)
      (height_convertLenient_le j)
  refine ⟨⟨fun ⟨limit, offset, hdeep⟩ => ?_, fun ho => ?_⟩, hback⟩
  · by_contra ho
    rw [hback ho] at hdeep
    cases hdeep
  · refine Predicate.parse_text_tooDeep he hf (.inl (Nat.le_of_not_lt fun hn => ?_))
    exact (printedNesting_convertLenient_lt_iff j).1 hn ho

/-- A description under `n` negations. -/
def negations : Nat → Json → Json
  | 0, j => j
  | n + 1, j => described "logical" "not" [negations n j]

theorem form_negations (n : Nat) (j : Json) :
    form (negations (n + 1) j) = .negation (negations n j) := rfl

theorem fits_negations (hj : j.Fits) (n : Nat) : (negations n j).Fits := by
  induction n with
  | zero => exact hj
  | succ n ih => exact fits_described (List.forall_mem_singleton.2 ih) _ _

theorem mended_negations (n budget : Nat) (j : Json) :
    mended (budget + n) (negations n j) = Predicate.negated n (mended budget j) := by
  induction n with
  | zero => rfl
  | succ n ih => rw [← Nat.add_assoc, mended_negation (form_negations n j), ih, Predicate.negated]

theorem reaches_negations (n m : Nat) (j : Json) :
    Reaches (m + n) (negations n j) ↔ Reaches m j := by
  induction n with
  | zero => rfl
  | succ n ih => rw [← Nat.add_assoc, reaches_negation (form_negations n j), ih]

theorem convertLenient_negations (budget : Nat) {n : Nat} {b : Bool}
    (hn : budget + n = Predicate.nestingLimit) (hm : mended budget j = .boolean b) :
    convertLenient (negations n j) = Predicate.negated n (.boolean b) := by
  have hlimit : n + 1 ≤ Predicate.heightLimit := by
    have hle : Predicate.nestingLimit + 1 ≤ Predicate.heightLimit := by decide
    omega
  rw [convertLenient_eq, ← hn, mended_negations, hm, height_negated, if_pos hlimit]

/-- `false` under as many negations as the parser takes comes back; under one more it is replaced by
`true`, and the text is too deep. -/
theorem parse_text_convertLenient_negations :
    (negations 100 (.bool false)).Fits ∧
      convertLenient (negations 100 (.bool false)) = Predicate.negated 100 (.boolean true) ∧
      (∃ limit offset, Predicate.parse (convertLenient (negations 100 (.bool false))).text =
        .error (.tooDeep limit offset)) ∧
      Predicate.parse (convertLenient (negations 99 (.bool false))).text =
        .ok (Predicate.negated 99 (.boolean false)) := by
  have hdeep : convertLenient (negations 100 (.bool false)) =
      Predicate.negated 100 (.boolean true) := convertLenient_negations 0 rfl rfl
  have hback : convertLenient (negations 99 (.bool false)) =
      Predicate.negated 99 (.boolean false) := convertLenient_negations 1 rfl rfl
  have hfits := fits_negations (.bool false)
  have hover : Overreaches (negations 100 (.bool false)) := by
    refine ⟨?_, _, form_negations 99 _, (reaches_negations 99 0 _).2 trivial⟩
    rw [show mended Predicate.nestingLimit (negations 100 (.bool false)) =
      Predicate.negated 100 (.boolean true) from mended_negations 100 0 _, height_negated]
    decide
  have hnot : ¬Overreaches (negations 99 (.bool false)) := by
    rintro ⟨-, inner, h, hr⟩
    cases h
    have hone := (reaches_leaf rfl).1 ((reaches_negations 98 1 (.bool false)).1 hr)
    cases hone
  obtain ⟨htoo, -⟩ := parse_text_convertLenient (hfits 100)
    (by rw [hdeep]; exact Predicate.expressible_negated (.boolean true) 100)
  obtain ⟨-, hparse⟩ := parse_text_convertLenient (hfits 99)
    (by rw [hback]; exact Predicate.expressible_negated (.boolean false) 99)
  exact ⟨hfits 100, hdeep, htoo.2 hover, (hparse hnot).trans (congrArg Except.ok hback)⟩

end Description

end RecordFilter
