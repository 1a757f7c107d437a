import RecordFilter.Proofs.Description
import RecordFilter.Proofs.Faults

/-!
# Mending descriptions

Lenient conversion puts `true` in the place of each outermost part that is faulty or too far in,
and leaves the rest as the description says it.  Where there is no such part strict conversion has
the same tree, and where there is one it has none.

    level + budget = nestingLimit → (Mends level j p ↔ p = mended budget j)           (mends_iff)
    convertNested .strict budget j = .ok p → Sound level j                  (sound_of_convertNested)
    Sound level j → convertNested .strict budget j = .ok (mended budget j)  (convertNested_of_sound)
-/

namespace RecordFilter

namespace Description

variable {j k : Json} {h : Head} {p : Predicate} {level budget : Nat}

/-! ## Bad parts -/

/-- A description at a level where it is not converted, be it faulty or too far in. -/
def Bad (level : Nat) (j : Json) : Prop :=
  Predicate.nestingLimit ≤ level ∨ Faulty j

/-- `Holds level j inner k`: where `j` is at the level `level`, going in through the operands of
logical descriptions leads to `k` at the level `inner`. -/
inductive Holds : Nat → Json → Nat → Json → Prop
  | self {level : Nat} {j : Json} : Holds level j level j
  | operand {level inner : Nat} {j i k : Json} {h : Head} : head j = .ok h → h.kind = "logical" →
      i ∈ h.operands → Holds (level + 1) i inner k → Holds level j inner k

/-- No part is bad. -/
def Sound (level : Nat) (j : Json) : Prop :=
  ∀ inner k, Holds level j inner k → ¬Bad inner k

/-- `Mends level j p`: `p` is what the description `j` says at the level `level`, with `true` in
the place of each bad part that is in no other bad part. -/
inductive Mends : Nat → Json → Predicate → Prop
  | bad {level : Nat} {j : Json} : Bad level j → Mends level j (.boolean true)
  | leaf {level : Nat} {j : Json} {p : Predicate} : ¬Bad level j → Says j (.leaf (.ok p)) →
      Mends level j p
  | negation {level : Nat} {j inner : Json} {q : Predicate} : ¬Bad level j →
      Says j (.negation inner) → Mends (level + 1) inner q → Mends level j (.not q)
  | connective {level : Nat} {j first second : Json} {rest : List Json} {op : JoinOp}
      {tree : Json → Predicate} : ¬Bad level j → Says j (.connective op first second rest) →
      (∀ k ∈ first :: second :: rest, Mends (level + 1) k (tree k)) →
      Mends level j (joined op (tree first) ((second :: rest).map tree))

/-! ## Lenient conversion -/

theorem mended_of_bad (hlevel : level + budget = Predicate.nestingLimit) (hj : Bad level j) :
    mended budget j = .boolean true := by
  cases budget with
  | zero => rfl
  | succ budget =>
    rcases hj with hj | hj
    · omega
    · obtain ⟨e, he⟩ := faulty_iff_form.1 hj
      rw [mended, he]

theorem mended_eq_of_mends (hlevel : level + budget = Predicate.nestingLimit)
    (hp : Mends level j p) : p = mended budget j := by
  induction budget generalizing level j p with
  | zero =>
    have hbad : Bad level j := .inl (by omega)
    cases hp with
    | bad => rfl
    | leaf hj | negation hj | connective hj => exact absurd hbad hj
  | succ budget ih =>
    cases hp with
    | bad hj => exact (mended_of_bad hlevel hj).symm
    | leaf _ hs => rw [mended, hs.form_eq]
    | negation _ hs hq =>
      rw [mended_negation hs.form_eq, ← ih (by omega) hq]
    | connective _ hs hks =>
      obtain ⟨hfirst, hrest⟩ := List.forall_mem_cons.1 hks
      have hmap := List.map_congr_left fun k hk => ih (by omega) (hrest k hk)
      rw [mended_connective hs.form_eq, ← ih (by omega) hfirst, hmap]

theorem mends_mended (hlevel : level + budget = Predicate.nestingLimit) (j : Json) :
    Mends level j (mended budget j) := by
  induction budget generalizing level j with
  | zero => exact .bad (.inl (by omega))
  | succ budget ih =>
    by_cases hj : Bad level j
    · rw [mended_of_bad hlevel hj]
      exact .bad hj
    · obtain ⟨f, hs⟩ := says_of_not_faulty fun hf => hj (.inr hf)
      have hform := hs.form_eq
      cases f with
      | leaf r =>
        obtain ⟨p, rfl⟩ : ∃ p, r = .ok p := by
          cases hs <;> exact ⟨_, rfl⟩
        rw [mended, hform]
        exact .leaf hj hs
      | negation inner =>
        rw [mended_negation hform]
        exact .negation hj hs (ih (by omega) inner)
      | connective op first second rest =>
        rw [mended_connective hform]
        exact .connective hj hs fun k _ => ih (by omega) k

/-- A description is mended in one way. -/
theorem mends_iff (hlevel : level + budget = Predicate.nestingLimit) :
    Mends level j p ↔ p = mended budget j := by
  constructor
  · exact mended_eq_of_mends hlevel
  · rintro rfl
    exact mends_mended hlevel j

/-! ## Strict conversion -/

/-- The operands of a faultless logical description are its parts. -/
theorem mem_parts_of_logical (hj : ¬Faulty j) (hh : head j = .ok h) (hk : h.kind = "logical")
    (hmem : k ∈ h.operands) : k ∈ (form j).parts := by
  obtain ⟨f, hs⟩ := says_of_not_faulty hj
  rw [hs.form_eq]
  cases hs with
  | boolean b => cases hh
  | compare hh' hk' | isIn hh' hk' | isInAll hh' hk' =>
    cases hh.symm.trans hh'
    rw [hk] at hk'
    exact absurd hk' (by decide)
  | spatial hh' hk' =>
    cases hh.symm.trans hh'
    rw [hk] at hk'
    exact absurd hk' (by decide)
  | not hh' _ _ hs | and hh' _ _ hs | or hh' _ _ hs =>
    cases hh.symm.trans hh'
    rw [hs] at hmem
    exact hmem

/-- What holds no bad part is not bad, and neither does any of its parts hold one. -/
theorem Sound.parts (hj : Sound level j) : ∀ k ∈ (form j).parts, Sound (level + 1) k := by
  intro k hk inner k' hk'
  obtain ⟨h, hh, hl, hmem⟩ := mem_operands_of_parts hk
  exact hj inner k' (.operand hh hl hmem hk')

theorem convertNested_of_sound (hlevel : level + budget = Predicate.nestingLimit)
    (hj : Sound level j) : convertNested .strict budget j = .ok (mended budget j) := by
  induction budget generalizing level j with
  | zero => exact absurd (.inl (by omega)) (hj level j .self)
  | succ budget ih =>
    have hparts : ∀ k ∈ (form j).parts, convertNested .strict budget k = .ok (mended budget k) :=
      fun k hk => ih (by omega) (hj.parts k hk)
    rw [convertNested_succ, recover_strict]
    cases hform : form j with
    | leaf r =>
      rw [mended, hform]
      cases r with
      | ok p => rfl
      | error e => exact absurd (.inr (faulty_iff_form.2 ⟨e, hform⟩)) (hj level j .self)
    | negation inner =>
      rw [hform] at hparts
      rw [Form.build, mended_negation hform, hparts inner List.mem_cons_self]
      rfl
    | connective op first second rest =>
      rw [hform] at hparts
      obtain ⟨hfirst, hrest⟩ := List.forall_mem_cons.1 hparts
      rw [Form.build, mended_connective hform, hfirst]
      exact joinAll_of_forall hrest op _

theorem exists_of_build_eq_ok {convert : Json → Except ConvertError Predicate} {f : Form}
    (hp : f.build convert = .ok p) : ∀ k ∈ f.parts, ∃ q, convert k = .ok q := by
  cases f with
  | leaf r => exact nofun
  | negation inner =>
    obtain ⟨q, hq, -⟩ := map_eq_ok.1 hp
    exact List.forall_mem_singleton.2 ⟨q, hq⟩
  | connective op first second rest =>
    obtain ⟨q, hq, hp⟩ := bind_eq_ok.1 hp
    obtain ⟨qs, hqs, -⟩ := joinAll_eq_ok hp
    refine List.forall_mem_cons.2 ⟨⟨q, hq⟩, ?_⟩
    exact forall_mem_of_forall₂ (P := fun _ => True) hqs.flip (fun q _ hk _ => ⟨q, hk⟩)
      fun _ _ => trivial

theorem sound_of_convertNested (hlevel : level + budget = Predicate.nestingLimit)
    (hp : convertNested .strict budget j = .ok p) : Sound level j := by
  induction budget generalizing level j p with
  | zero => exact absurd hp (convertNested_zero_ne_ok j p)
  | succ budget ih =>
    rw [convertNested_succ, recover_strict] at hp
    have hfaultless : ¬Faulty j := by
      intro hf
      obtain ⟨e, he⟩ := faulty_iff_form.1 hf
      rw [he] at hp
      cases hp
    intro inner k hk
    cases hk with
    | self =>
      rintro (hdeep | hf)
      · omega
      · exact hfaultless hf
    | operand hh hl hmem hk =>
      obtain ⟨q, hq⟩ := exists_of_build_eq_ok hp _ (mem_parts_of_logical hfaultless hh hl hmem)
      exact ih (by omega) hq inner k hk

/-- Strict conversion has the mended tree, where nothing had to be mended. -/
theorem convertNested_strict_iff (hlevel : level + budget = Predicate.nestingLimit) :
    convertNested .strict budget j = .ok p ↔ Sound level j ∧ p = mended budget j := by
  constructor
  · intro hp
    have hj := sound_of_convertNested hlevel hp
    exact ⟨hj, Except.ok.inj (hp.symm.trans (convertNested_of_sound hlevel hj))⟩
  · rintro ⟨hj, rfl⟩
    exact convertNested_of_sound hlevel hj

/-! ## Both conversions -/

/-- **Lenient conversion is strict conversion with the bad parts replaced.**  Every description is
mended to one tree.  Lenient conversion always succeeds, with that tree or, if it is too high, with
`true`.  Strict conversion succeeds exactly if no part is bad and the height fits, and then with
the tree of lenient conversion. -/
theorem convert_lenient_refines_strict (j : Json) :
    ∃ tree, (∀ p, Mends 0 j p ↔ p = tree) ∧
      convert .lenient j =
        .ok (if tree.height ≤ Predicate.heightLimit then tree else .boolean true) ∧
      ((∃ p, convert .strict j = .ok p) ↔ Sound 0 j ∧ tree.height ≤ Predicate.heightLimit) ∧
      ∀ p, convert .strict j = .ok p → p = tree ∧ convert .lenient j = .ok p := by
  have hlevel : 0 + Predicate.nestingLimit = Predicate.nestingLimit := Nat.zero_add _
  refine ⟨mended Predicate.nestingLimit j, fun p => mends_iff hlevel, convert_lenient j, ?_, ?_⟩
  · constructor
    · rintro ⟨p, hp⟩
      obtain ⟨hp, hh⟩ := convert_strict_eq_ok_iff.1 hp
      obtain ⟨hj, rfl⟩ := (convertNested_strict_iff hlevel).1 hp
      exact ⟨hj, hh⟩
    · rintro ⟨hj, hh⟩
      exact ⟨_, convert_strict_eq_ok_iff.2 ⟨(convertNested_strict_iff hlevel).2 ⟨hj, rfl⟩, hh⟩⟩
  · intro p hp
    obtain ⟨hp, hh⟩ := convert_strict_eq_ok_iff.1 hp
    obtain ⟨-, rfl⟩ := (convertNested_strict_iff hlevel).1 hp
    exact ⟨rfl, by rw [convert_lenient, if_pos hh]⟩

end Description

end RecordFilter
