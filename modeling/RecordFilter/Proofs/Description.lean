import RecordFilter.Proofs.Conversion
import RecordFilter.Proofs.Json.Numbers
import RecordFilter.Proofs.Number.Rounding
import RecordFilter.Proofs.RoundTrip

/-!
# Writing converted descriptions

Conversion takes names and lists as they come.  `Writable` says of a description that what it holds
has a place in an expression, and exactly then its tree comes back from its text: the levels of a
description bound the parentheses of the text, so the parser's limit is never in the way.

    convert .strict j = .ok p → p.printedNesting < nestingLimit      (printedNesting_lt_of_convert)
    convert .strict j = .ok p → (parse p.text = .ok p ↔ Writable j)       (parse_text_iff_writable)
-/

namespace RecordFilter

namespace Description

/-! ## Descriptions that can be written -/

/-- An operand that an expression can name: brackets end at the first bracket, and there is no
expression for a geometry or, outside of a membership, for a list. -/
def WritableOperand (j : Json) : Prop :=
  match j.stringMember? "field", j.stringMember? "variable", j.member? "geometry" with
  | some name, _, _ => name ≠ "" ∧ ']' ∉ name.toList
  | none, some name, _ => name ≠ "" ∧ '\x7b' ∉ name.toList ∧ '\x7d' ∉ name.toList
  | none, none, some _ => False
  | none, none, none => ∀ items, j ≠ .array items

/-- The right side of a membership, which may be a list that is not empty. -/
def WritableCandidates : Json → Prop
  | .array items => items ≠ []
  | j => WritableOperand j

/-- The descriptions whose trees an expression can say, given that they have trees. -/
inductive Writable : Json → Prop
  | boolean (b : Bool) : Writable (.bool b)
  | comparison {j : Json} {h : Head} : head j = .ok h → h.kind = "comparison" →
      (∀ k ∈ h.operands, WritableOperand k) → Writable j
  | function {j left : Json} {rest : List Json} {h : Head} : head j = .ok h → h.kind = "function" →
      h.operands = left :: rest → WritableOperand left →
      (∀ right, rest = [right] → WritableCandidates right) → Writable j
  | logical {j : Json} {h : Head} : head j = .ok h → h.kind = "logical" →
      (∀ k ∈ h.operands, Writable k) → Writable j

variable {j : Json} {h : Head}

/-- What the head of a description asks of its operands. -/
theorem writable_iff_of_head (hh : head j = .ok h) : Writable j ↔
    (h.kind = "comparison" ∧ ∀ k ∈ h.operands, WritableOperand k) ∨
    (h.kind = "function" ∧ ∃ left rest, h.operands = left :: rest ∧ WritableOperand left ∧
      ∀ right, rest = [right] → WritableCandidates right) ∨
    h.kind = "logical" ∧ ∀ k ∈ h.operands, Writable k := by
  constructor
  · intro hw
    cases hw with
    | boolean b => cases hh
    | comparison hh' hk ho =>
      cases hh.symm.trans hh'
      exact .inl ⟨hk, ho⟩
    | function hh' hk hs hl hr =>
      cases hh.symm.trans hh'
      exact .inr (.inl ⟨hk, _, _, hs, hl, hr⟩)
    | logical hh' hk ho =>
      cases hh.symm.trans hh'
      exact .inr (.inr ⟨hk, ho⟩)
  · rintro (⟨hk, ho⟩ | ⟨hk, left, rest, hs, hl, hr⟩ | ⟨hk, ho⟩)
    · exact .comparison hh hk ho
    · exact .function hh hk hs hl hr
    · exact .logical hh hk ho

theorem writable_comparison_iff (hh : head j = .ok h) (hk : h.kind = "comparison") :
    Writable j ↔ ∀ k ∈ h.operands, WritableOperand k := by
  rw [writable_iff_of_head hh, hk]
  simp

theorem writable_function_iff {left : Json} {rest : List Json} (hh : head j = .ok h)
    (hk : h.kind = "function") (hs : h.operands = left :: rest) :
    Writable j ↔ WritableOperand left ∧ ∀ right, rest = [right] → WritableCandidates right := by
  rw [writable_iff_of_head hh, hk, hs]
  simp

theorem writable_logical_iff (hh : head j = .ok h) (hk : h.kind = "logical") :
    Writable j ↔ ∀ k ∈ h.operands, Writable k := by
  rw [writable_iff_of_head hh, hk]
  simp

theorem not_writable_spatial (hh : head j = .ok h)
    (hk : h.kind = "spatial" ∨ h.kind = "geometry") : ¬Writable j := by
  rw [writable_iff_of_head hh]
  rcases hk with hk | hk <;> simp [hk]

/-! ## Constants and operands -/

variable {p : Predicate} {js : List Json} {ps : List Predicate}

theorem isOperand_of_constant (hp : constant j = .ok p) : p.IsOperand := by
  unfold constant at hp
  split at hp
  · cases hp
    trivial
  · split at hp <;> cases hp <;> trivial
  · cases hp
    trivial
  · split at hp <;> cases hp <;> trivial
  · cases hp
    trivial
  · split at hp
    · obtain ⟨date, -, rfl⟩ := map_eq_ok.1 hp
      trivial
    · cases hp
  · cases hp

theorem isOperand_of_constants (hps : constants js = .ok ps) : ∀ q ∈ ps, q.IsOperand := by
  refine forall_mem_of_forall₂ (forall₂_of_constants hps) ?_ fun _ _ => trivial
  exact fun _ _ hq _ => isOperand_of_constant hq

theorem writableOperand_iff (hp : operand j = .ok p) : WritableOperand j ↔ p.IsOperand := by
  cases convertsOperand_of_operand hp with
  | list hps =>
    constructor
    · intro hw
      exact absurd rfl (hw _)
    · exact False.elim
  | field hf =>
    rw [WritableOperand, hf]
    exact Iff.rfl
  | var hf hv =>
    rw [WritableOperand, hf, hv]
    exact Iff.rfl
  | geometry hf hv hg =>
    rw [WritableOperand, hf, hv, hg]
    exact Iff.rfl
  | constant hj hf hv hg hc =>
    rw [WritableOperand, hf, hv, hg]
    exact ⟨fun _ => isOperand_of_constant hc, fun _ => hj⟩

theorem ne_nil_iff_of_constants (hps : constants js = .ok ps) : ps ≠ [] ↔ js ≠ [] := by
  cases forall₂_of_constants hps with
  | nil => simp
  | cons => simp

/-- Only the lists among the operands are lists in the tree. -/
theorem ne_list_of_operand (hj : ∀ items, j ≠ .array items) (hp : operand j = .ok p) :
    ∀ ps, p ≠ .list ps := by
  rintro ps rfl
  cases convertsOperand_of_operand hp with
  | list => exact hj _ rfl
  | constant _ _ _ _ hc => exact isOperand_of_constant hc

theorem writableCandidates_of_ne_array (hj : ∀ items, j ≠ .array items) :
    WritableCandidates j ↔ WritableOperand j := by
  cases j with
  | array items => exact absurd rfl (hj items)
  | _ => exact Iff.rfl

theorem membership_eq_isIn (l r : Predicate) :
    ∃ items, Predicate.membership l r = .isIn l (.list items) := by
  cases r with
  | list items => exact ⟨items, rfl⟩
  | _ => exact ⟨_, rfl⟩

theorem membership_of_ne_list {l r : Predicate} (hr : ∀ ps, r ≠ .list ps) :
    Predicate.membership l r = .isIn l (.list [r]) := by
  cases r with
  | list ps => exact absurd rfl (hr ps)
  | _ => rfl

theorem expressible_membership_iff {l r : Predicate} (hr : ∀ ps, r ≠ .list ps) :
    (Predicate.membership l r).Expressible ↔ l.IsOperand ∧ r.IsOperand := by
  rw [membership_of_ne_list hr, Predicate.expressible_isIn_iff]
  simp

/-- What stands on the right of a membership becomes its list. -/
theorem writable_membership_iff {left right : Json} {l r : Predicate} (hl : operand left = .ok l)
    (hr : operand right = .ok r) :
    WritableOperand left ∧ WritableCandidates right ↔ (Predicate.membership l r).Expressible := by
  rw [writableOperand_iff hl]
  by_cases hright : ∃ items, right = .array items
  · obtain ⟨items, rfl⟩ := hright
    obtain ⟨ps, hps, rfl⟩ := map_eq_ok.1 hr
    rw [Predicate.membership, Predicate.expressible_isIn_iff, ne_nil_iff_of_constants hps,
      and_iff_left (isOperand_of_constants hps)]
    exact Iff.rfl
  · have hne : ∀ items, right ≠ .array items := fun items he => hright ⟨items, he⟩
    rw [writableCandidates_of_ne_array hne, writableOperand_iff hr,
      expressible_membership_iff (ne_list_of_operand hne hr)]

/-! ## Shapes of converted trees -/

theorem expressible_joined_iff {op : JoinOp} :
    (joined op p ps).Expressible ↔ p.Expressible ∧ ∀ q ∈ ps, q.Expressible := by
  induction ps generalizing p with
  | nil => simp [joined]
  | cons q qs ih =>
    have hj : joined op p (q :: qs) = joined op (.join op p q) qs := rfl
    rw [hj, ih, Predicate.expressible_join_iff, List.forall_mem_cons, and_assoc]

/-- A description can be written exactly when an expression can say its tree. -/
theorem writable_iff_of_convertNested {budget : Nat}
    (hp : convertNested .strict budget j = .ok p) : Writable j ↔ p.Expressible := by
  induction budget generalizing j p with
  | zero => exact absurd hp (convertNested_zero_ne_ok j p)
  | succ budget ih =>
    cases converts_of_convertNested hp with
    | boolean b => exact ⟨fun _ => .boolean b, fun _ => .boolean b⟩
    | compare op hh hk _ hs hl hr =>
      rw [writable_comparison_iff hh hk, hs, Predicate.expressible_compare_iff,
        ← writableOperand_iff hl, ← writableOperand_iff hr]
      simp
    | isIn hh hk hs hl hr =>
      rw [writable_function_iff hh hk hs, ← writable_membership_iff hl hr]
      simp
    | isInAll hh hk hs hlen hl hps =>
      rw [writable_function_iff hh hk hs, writableOperand_iff hl, Predicate.expressible_isIn_iff,
        ne_nil_iff_of_constants hps, and_iff_left (isOperand_of_constants hps)]
      refine and_congr_right fun _ => ⟨fun _ => ?_, fun _ right hone => ?_⟩
      · rintro rfl
        simp at hlen
      · rw [hone] at hlen
        simp at hlen
    | spatial hh hk => exact ⟨fun hw => absurd hw (not_writable_spatial hh hk), nofun⟩
    | not hh hk hs hq =>
      rw [writable_logical_iff hh hk, hs, Predicate.expressible_not_iff, ← ih hq]
      simp
    | join op hh hk hs _ hq hqs =>
      rw [writable_logical_iff hh hk, hs, expressible_joined_iff, List.forall_mem_cons, ih hq,
        forall_mem_iff_of_forall₂ hqs fun _ _ => ih]

/-! ## Nesting of converted trees -/

theorem toNat_isJoinOtherThan_le (op : JoinOp) (p : Predicate) :
    (p.isJoinOtherThan op).toNat ≤ p.isJoin.toNat := by
  cases p with
  | join inner left right => exact Bool.toNat_le _
  | _ => exact Nat.le_refl _

/-- The printer puts no parentheses around what is joined further to the left by the same
operator. -/
theorem printedNesting_joined_lt {op : JoinOp} {n : Nat}
    (hp : (p.isJoinOtherThan op).toNat + p.printedNesting < n)
    (hps : ∀ q ∈ ps, q.isJoin.toNat + q.printedNesting < n) :
    (joined op p ps).printedNesting < n := by
  induction ps generalizing p with
  | nil =>
    show p.printedNesting < n
    omega
  | cons q qs ih =>
    obtain ⟨hq, hqs⟩ := List.forall_mem_cons.1 hps
    refine ih ?_ hqs
    have hsame : (Predicate.join op p q).isJoinOtherThan op = false := bne_self_eq_false op
    rw [hsame, Predicate.printedNesting, Bool.toNat_false]
    omega

/-- Each level of a description is at most one pair of parentheses or one `not` of the text; the
last level is left over. -/
theorem printedNesting_lt_of_convertNested {budget : Nat}
    (hp : convertNested .strict budget j = .ok p) :
    p.isJoin.toNat + p.printedNesting < budget := by
  induction budget generalizing j p with
  | zero => exact absurd hp (convertNested_zero_ne_ok j p)
  | succ budget ih =>
    cases converts_of_convertNested hp with
    | boolean | compare | spatial | isInAll => exact Nat.succ_pos budget
    | isIn =>
      obtain ⟨items, hm⟩ := membership_eq_isIn _ _
      rw [hm]
      exact Nat.succ_pos budget
    | not _ _ _ hq =>
      have hlt := ih hq
      rw [Predicate.printedNesting]
      show false.toNat + _ < _
      rw [Bool.toNat_false]
      omega
    | @join _ _ _ _ q qs op _ _ _ _ hq hqs =>
      have hle := toNat_isJoinOtherThan_le op q
      have hlt := ih hq
      have hlts : ∀ r ∈ qs, r.isJoin.toNat + r.printedNesting < budget :=
        forall_mem_of_forall₂ hqs (fun _ _ hr _ => ih hr) fun _ _ => trivial
      have hjoined : (joined op q qs).printedNesting < budget :=
        printedNesting_joined_lt (by omega) hlts
      have hone := Bool.toNat_le (joined op q qs).isJoin
      omega

/-! ## Numbers of converted trees -/

theorem fits_of_head (hj : j.Fits) (hh : head j = .ok h) : ∀ k ∈ h.operands, k.Fits := by
  unfold head at hh
  split at hh
  · cases hh
  · cases hh
  · split at hh
    · rename_i items hm
      cases hh
      cases hj.member hm with
      | array hi => exact hi
    · cases hh
    · cases hh
      exact nofun

theorem hasFiniteFloats_of_constant (hj : j.Fits) (hp : constant j = .ok p) :
    p.hasFiniteFloats = true := by
  unfold constant at hp
  split at hp
  · cases hp
    rfl
  · split at hp <;> cases hp <;> rfl
  · cases hp
    rfl
  · split at hp
    · cases hp
      rfl
    · cases hp
      cases hj with
      | integer hlo hhi =>
        refine isFinite_ofInt (Nat.lt_of_le_of_lt (m := 0x10000000000000000) ?_ (by decide))
        omega
  · cases hp
    rfl
  · split at hp
    · obtain ⟨date, -, rfl⟩ := map_eq_ok.1 hp
      rfl
    · cases hp
  · cases hp

theorem hasFiniteFloats_of_constants (hjs : ∀ j ∈ js, j.Fits) (hps : constants js = .ok ps) :
    (Predicate.list ps).hasFiniteFloats = true := by
  rw [Predicate.hasFiniteFloats, Predicate.allFiniteFloats_iff]
  refine forall_mem_of_forall₂ (forall₂_of_constants hps) ?_ hjs
  exact fun _ _ hq hj => hasFiniteFloats_of_constant hj hq

theorem hasFiniteFloats_of_operand (hj : j.Fits) (hp : operand j = .ok p) :
    p.hasFiniteFloats = true := by
  cases convertsOperand_of_operand hp with
  | list hps =>
    cases hj with
    | array hi => exact hasFiniteFloats_of_constants hi hps
  | field | var | geometry => rfl
  | constant _ _ _ _ hc => exact hasFiniteFloats_of_constant hj hc

theorem hasFiniteFloats_membership (l r : Predicate) :
    (Predicate.membership l r).hasFiniteFloats = (l.hasFiniteFloats && r.hasFiniteFloats) := by
  cases r <;> simp [Predicate.membership, Predicate.hasFiniteFloats, Predicate.allFiniteFloats]

theorem hasFiniteFloats_joined {op : JoinOp} (hp : p.hasFiniteFloats = true)
    (hps : ∀ q ∈ ps, q.hasFiniteFloats = true) : (joined op p ps).hasFiniteFloats = true := by
  induction ps generalizing p with
  | nil => exact hp
  | cons q qs ih =>
    obtain ⟨hq, hqs⟩ := List.forall_mem_cons.1 hps
    refine ih ?_ hqs
    rw [Predicate.hasFiniteFloats, hp, hq]
    rfl

/-- Numbers of 64 bits become finite numbers. -/
theorem hasFiniteFloats_of_convertNested {budget : Nat} (hj : j.Fits)
    (hp : convertNested .strict budget j = .ok p) : p.hasFiniteFloats = true := by
  induction budget generalizing j p with
  | zero => exact absurd hp (convertNested_zero_ne_ok j p)
  | succ budget ih =>
    -- of whatever kind a node is, its operands come of the head, which holds numbers that fit
    have hfits : ∀ {h : Head}, head j = .ok h → ∀ k ∈ h.operands, k.Fits := fits_of_head hj
    cases converts_of_convertNested hp with
    | boolean b => rfl
    | compare _ hh _ _ hs hl hr | spatial hh _ hs hl hr | isIn hh _ hs hl hr =>
      have hks := hfits hh
      rw [hs] at hks
      have hfl := hasFiniteFloats_of_operand (hks _ (by simp)) hl
      have hfr := hasFiniteFloats_of_operand (hks _ (by simp)) hr
      simp [Predicate.hasFiniteFloats, hasFiniteFloats_membership, hfl, hfr]
    | isInAll hh _ hs _ hl hps =>
      have hks := hfits hh
      rw [hs] at hks
      obtain ⟨hleft, hitems⟩ := List.forall_mem_cons.1 hks
      rw [Predicate.hasFiniteFloats, hasFiniteFloats_of_operand hleft hl,
        hasFiniteFloats_of_constants hitems hps]
      rfl
    | not hh _ hs hq =>
      have hks := hfits hh
      rw [hs] at hks
      rw [Predicate.hasFiniteFloats]
      exact ih (List.forall_mem_singleton.1 hks) hq
    | join op hh _ hs _ hq hqs =>
      have hks := hfits hh
      rw [hs] at hks
      obtain ⟨hfirst, hrest⟩ := List.forall_mem_cons.1 hks
      refine hasFiniteFloats_joined (ih hfirst hq) ?_
      exact forall_mem_of_forall₂ hqs (fun _ _ hr hk => ih hk hr) hrest

/-! ## Reading written descriptions -/

theorem convert_strict_eq_ok_iff : convert .strict j = .ok p ↔
    convertNested .strict Predicate.nestingLimit j = .ok p ∧
      p.height ≤ Predicate.heightLimit := by
  constructor
  · intro hp
    obtain ⟨q, hq, hp⟩ := bind_eq_ok.1 hp
    split at hp
    · rename_i hh
      cases hp
      exact ⟨hq, hh⟩
    · cases hp
  · rintro ⟨hp, hh⟩
    refine bind_eq_ok.2 ⟨p, hp, ?_⟩
    rw [if_pos hh]
    rfl

/-- The converter counts the levels of a description as the parser counts parentheses and `not`s. -/
theorem printedNesting_lt_of_convert (hp : convert .strict j = .ok p) :
    p.printedNesting < Predicate.nestingLimit := by
  have hlt := printedNesting_lt_of_convertNested (convert_strict_eq_ok_iff.1 hp).1
  omega

/-- A converted tree comes back from its text exactly when its description can be written. -/
theorem parse_text_iff_writable (hj : j.Fits) (hp : convert .strict j = .ok p) :
    Predicate.parse p.text = .ok p ↔ Writable j := by
  have hn := printedNesting_lt_of_convert hp
  obtain ⟨hp, hh⟩ := convert_strict_eq_ok_iff.1 hp
  rw [writable_iff_of_convertNested hp]
  constructor
  · intro hparse
    exact (Predicate.expressible_of_parse hparse).1
  · intro he
    exact Predicate.parse_text he (hasFiniteFloats_of_convertNested hj hp) hn hh

/-- **The nesting limit of the converter is enough for the parser.**  However the descriptions of a
tree are nested and however many operands each of them has, the text of the tree has fewer
parentheses and `not`s above each clause than the parser allows.  So the tree comes back, provided
that what the description holds can be written at all; its whole numbers have 64 bits, as those of
a JSON text have (`Json.fits_of_parse?`). -/
theorem parse_text_of_convert (hj : j.Fits) (hp : convert .strict j = .ok p) :
    p.printedNesting < Predicate.nestingLimit ∧
      (Writable j → Predicate.parse p.text = .ok p) :=
  ⟨printedNesting_lt_of_convert hp, (parse_text_iff_writable hj hp).2⟩

/-- An object that describes a predicate. -/
def described (kind operator : String) (operands : List Json) : Json :=
  .object [("operands", .array operands), ("operator", .string operator), ("type", .string kind)]

/-- `[name]` -/
def fieldNamed (name : String) : Json := .object [("field", .string name)]

/-- The description of `not ([a] = 1 | true | [b] in ('x'))` -/
def alternatives : Json :=
  described "logical" "not" [described "logical" "OR" [
    described "comparison" "=" [fieldNamed "a", .integer 1], .bool true,
    described "function" "in" [fieldNamed "b", .array [.string "x"]]]]

def alternativesTree : Predicate :=
  .not (.join .or (.join .or (.compare .equal (.field "a") (.integer 1)) (.boolean true))
    (.isIn (.field "b") (.list [.string "x"])))

theorem convert_alternatives : convert .strict alternatives = .ok alternativesTree := by
  refine convert_strict_eq_ok_iff.2 ⟨rfl, ?_⟩
  rw [Predicate.height_eq_levels]
  decide

theorem fits_described {operands : List Json} (h : ∀ k ∈ operands, k.Fits)
    (kind operator : String) : (described kind operator operands).Fits := by
  refine .object ?_
  simp only [List.forall_mem_cons]
  exact ⟨.array h, .string _, .string _, nofun⟩

theorem fits_alternatives : alternatives.Fits := by
  have hfield : ∀ name, (fieldNamed name).Fits := by
    intro name
    exact .object (List.forall_mem_singleton.2 (.string name))
  refine fits_described (List.forall_mem_singleton.2 (fits_described ?_ _ _)) _ _
  simp only [List.forall_mem_cons]
  refine ⟨fits_described ?_ _ _, .bool true, fits_described ?_ _ _, nofun⟩
  · simp only [List.forall_mem_cons]
    exact ⟨hfield "a", .integer (by decide) (by decide), nofun⟩
  · simp only [List.forall_mem_cons]
    exact ⟨hfield "b", .array (List.forall_mem_singleton.2 (.string "x")), nofun⟩

theorem expressible_alternativesTree : alternativesTree.Expressible :=
  .not (.join .or (.join .or (.compare .equal ⟨by decide, by decide⟩ trivial) (.boolean true))
    (.isIn ⟨by decide, by decide⟩ (by simp) (List.forall_mem_singleton.2 trivial)))

/-- A negation of three alternatives, converted and read back. -/
theorem parse_text_alternatives :
    alternatives.Fits ∧ convert .strict alternatives = .ok alternativesTree ∧
      Writable alternatives ∧
      Predicate.parse "not ([a] = 1 | true | [b] in ('x'))" = .ok alternativesTree := by
  have hw : Writable alternatives :=
    (writable_iff_of_convertNested (convert_strict_eq_ok_iff.1 convert_alternatives).1).2
      expressible_alternativesTree
  obtain ⟨-, hparse⟩ := parse_text_of_convert fits_alternatives convert_alternatives
  exact ⟨fits_alternatives, convert_alternatives, hw, hparse hw⟩

end Description

end RecordFilter
