import RecordFilter.Description
import RecordFilter.Proofs.Results

/-!
# What strict conversion builds

One level of a strict conversion, as a relation between a description and its tree.
The relation says all that a level can do, so what holds of every converted tree is
shown by one induction over the levels, with one case for each kind of node.

    convertNested .strict (budget + 1) j = .ok p → Converts (convertNested .strict budget) j p
                                                                 (converts_of_convertNested)
-/

namespace RecordFilter

namespace Description

/-! ## Operands -/

theorem forall₂_of_constants {js : List Json} {ps : List Predicate}
    (hps : constants js = .ok ps) : List.Forall₂ (fun j p => constant j = .ok p) js ps := by
  induction js generalizing ps with
  | nil =>
    cases hps
    exact .nil
  | cons j js ih =>
    rw [constants] at hps
    obtain ⟨q, hq, hps⟩ := bind_eq_ok.1 hps
    obtain ⟨qs, hqs, hps⟩ := bind_eq_ok.1 hps
    cases hps
    exact .cons hq (ih hqs)

/-- `ConvertsOperand j p`: the operand `p` comes of `j`, by the first of its members that says what
it is. -/
inductive ConvertsOperand : Json → Predicate → Prop
  | list {items : List Json} {ps : List Predicate} :
      constants items = .ok ps → ConvertsOperand (.array items) (.list ps)
  | field {j : Json} {name : String} :
      j.stringMember? "field" = some name → ConvertsOperand j (.field name)
  | var {j : Json} {name : String} : j.stringMember? "field" = none →
      j.stringMember? "variable" = some name → ConvertsOperand j (.var name)
  | geometry {j payload : Json} : j.stringMember? "field" = none →
      j.stringMember? "variable" = none → j.member? "geometry" = some payload →
      ConvertsOperand j (.geometry payload)
  | constant {j : Json} {p : Predicate} : (∀ items, j ≠ .array items) →
      j.stringMember? "field" = none → j.stringMember? "variable" = none →
      j.member? "geometry" = none → constant j = .ok p → ConvertsOperand j p

theorem convertsOperand_of_operand {j : Json} {p : Predicate} (hp : operand j = .ok p) :
    ConvertsOperand j p := by
  cases j with
  | array items =>
    obtain ⟨ps, hps, rfl⟩ := map_eq_ok.1 hp
    exact .list hps
  | object members =>
    simp only [operand] at hp
    split at hp
    · rename_i hf
      cases hp
      exact .field hf
    · rename_i hf hv
      cases hp
      exact .var hf hv
    · rename_i hf hv hg
      cases hp
      exact .geometry hf hv hg
    · rename_i hf hv hg
      exact .constant nofun hf hv hg hp
  | null | bool | integer | float | string => exact .constant nofun rfl rfl rfl hp

/-! ## Operators -/

theorem comparison_eq_ok {h : Head} {p : Predicate} (hp : comparison h = .ok p) :
    ∃ op left right l r, CompareOp.ofSymbol? h.operator = some op ∧ h.operands = [left, right] ∧
      operand left = .ok l ∧ operand right = .ok r ∧ p = .compare op l r := by
  unfold comparison at hp
  split at hp
  · cases hp
  · rename_i op hop
    split at hp
    · rename_i left right hs
      obtain ⟨l, hl, hp⟩ := bind_eq_ok.1 hp
      obtain ⟨r, hr, hp⟩ := bind_eq_ok.1 hp
      exact ⟨op, left, right, l, r, hop, hs, hl, hr, (Except.ok.inj hp).symm⟩
    · cases hp

/-- A membership has one list, or its entries behind its left operand. -/
theorem function_eq_ok {h : Head} {p : Predicate} (hp : function h = .ok p) :
    (∃ left right l r, h.operands = [left, right] ∧ operand left = .ok l ∧ operand right = .ok r ∧
      p = .membership l r) ∨
    ∃ left items l ps, h.operands = left :: items ∧ 2 ≤ items.length ∧ operand left = .ok l ∧
      constants items = .ok ps ∧ p = .isIn l (.list ps) := by
  unfold function at hp
  split at hp
  · cases hp
  · split at hp
    · rename_i left right hs
      obtain ⟨l, hl, hp⟩ := bind_eq_ok.1 hp
      obtain ⟨r, hr, hp⟩ := bind_eq_ok.1 hp
      exact .inl ⟨left, right, l, r, hs, hl, hr, (Except.ok.inj hp).symm⟩
    · rename_i left first second rest hs
      obtain ⟨ps, hps, hp⟩ := bind_eq_ok.1 hp
      obtain ⟨l, hl, hp⟩ := bind_eq_ok.1 hp
      have hlen : 2 ≤ (first :: second :: rest).length := by simp
      exact .inr ⟨left, first :: second :: rest, l, ps, hs, hlen, hl, hps, (Except.ok.inj hp).symm⟩
    · cases hp

theorem spatial_eq_ok {h : Head} {p : Predicate} (hp : spatial h = .ok p) :
    ∃ left right l r, h.operands = [left, right] ∧ operand left = .ok l ∧ operand right = .ok r ∧
      p = .spatial .intersects l r := by
  unfold spatial at hp
  split at hp
  · cases hp
  · split at hp
    · rename_i left right hs
      obtain ⟨l, hl, hp⟩ := bind_eq_ok.1 hp
      obtain ⟨r, hr, hp⟩ := bind_eq_ok.1 hp
      exact ⟨left, right, l, r, hs, hl, hr, (Except.ok.inj hp).symm⟩
    · cases hp

/-! ## Connectives -/

variable {convert : Json → Except ConvertError Predicate}

/-- Trees joined to the right of another one, the leftmost innermost. -/
def joined (op : JoinOp) (p : Predicate) (ps : List Predicate) : Predicate :=
  ps.foldl (.join op) p

theorem joinAll_eq_ok {op : JoinOp} {p q : Predicate} {js : List Json}
    (h : joinAll convert op p js = .ok q) :
    ∃ ps, List.Forall₂ (fun j p => convert j = .ok p) js ps ∧ q = joined op p ps := by
  induction js generalizing p with
  | nil => exact ⟨[], .nil, (Except.ok.inj h).symm⟩
  | cons j js ih =>
    rw [joinAll] at h
    obtain ⟨r, hr, h⟩ := bind_eq_ok.1 h
    obtain ⟨ps, hps, rfl⟩ := ih h
    exact ⟨r :: ps, .cons hr hps, rfl⟩

/-- A logical description is a negation, or it joins two operands or more. -/
theorem logical_eq_ok {h : Head} {p : Predicate} (hp : logical convert h = .ok p) :
    (∃ inner q, h.operands = [inner] ∧ convert inner = .ok q ∧ p = .not q) ∨
    ∃ op first rest q qs, h.operands = first :: rest ∧ rest ≠ [] ∧ convert first = .ok q ∧
      List.Forall₂ (fun j p => convert j = .ok p) rest qs ∧ p = joined op q qs := by
  -- what a connective makes of two operands or more
  have hjoin : ∀ op first rest, h.operands = first :: rest → rest ≠ [] →
      (do let q ← convert first
          joinAll convert op q rest) = .ok p →
      ∃ op first rest q qs, h.operands = first :: rest ∧ rest ≠ [] ∧ convert first = .ok q ∧
        List.Forall₂ (fun j p => convert j = .ok p) rest qs ∧ p = joined op q qs := by
    intro op first rest hs hne hp
    obtain ⟨q, hq, hp⟩ := bind_eq_ok.1 hp
    obtain ⟨qs, hqs, rfl⟩ := joinAll_eq_ok hp
    exact ⟨op, first, rest, q, qs, hs, hne, hq, hqs, rfl⟩
  simp only [logical] at hp
  split at hp
  · split at hp
    · rename_i inner hs
      obtain ⟨q, hq, rfl⟩ := map_eq_ok.1 hp
      exact .inl ⟨inner, q, hs, hq, rfl⟩
    · cases hp
  · split at hp
    · rename_i first second rest hs
      exact .inr (hjoin .and first (second :: rest) hs (by simp) hp)
    · cases hp
  · split at hp
    · rename_i first second rest hs
      exact .inr (hjoin .or first (second :: rest) hs (by simp) hp)
    · cases hp
  · cases hp

/-! ## One level -/

/-- `Converts convert j p`: a description `j` has the tree `p`, if `convert` gives the trees of the
descriptions one level further in. -/
inductive Converts (convert : Json → Except ConvertError Predicate) : Json → Predicate → Prop
  | boolean (b : Bool) : Converts convert (.bool b) (.boolean b)
  | compare {j left right : Json} {h : Head} {l r : Predicate} (op : CompareOp) :
      head j = .ok h → h.kind = "comparison" → CompareOp.ofSymbol? h.operator = some op →
      h.operands = [left, right] → operand left = .ok l → operand right = .ok r →
      Converts convert j (.compare op l r)
  | isIn {j left right : Json} {h : Head} {l r : Predicate} :
      head j = .ok h → h.kind = "function" → h.operands = [left, right] → operand left = .ok l →
      operand right = .ok r → Converts convert j (.membership l r)
  | isInAll {j left : Json} {items : List Json} {h : Head} {l : Predicate} {ps : List Predicate} :
      head j = .ok h → h.kind = "function" → h.operands = left :: items → 2 ≤ items.length →
      operand left = .ok l → constants items = .ok ps → Converts convert j (.isIn l (.list ps))
  | spatial {j left right : Json} {h : Head} {l r : Predicate} :
      head j = .ok h → h.kind = "spatial" ∨ h.kind = "geometry" → h.operands = [left, right] →
      operand left = .ok l → operand right = .ok r →
      Converts convert j (.spatial .intersects l r)
  | not {j inner : Json} {h : Head} {q : Predicate} :
      head j = .ok h → h.kind = "logical" → h.operands = [inner] → convert inner = .ok q →
      Converts convert j (.not q)
  | join {j first : Json} {rest : List Json} {h : Head} {q : Predicate} {qs : List Predicate}
      (op : JoinOp) :
      head j = .ok h → h.kind = "logical" → h.operands = first :: rest → rest ≠ [] →
      convert first = .ok q → List.Forall₂ (fun j p => convert j = .ok p) rest qs →
      Converts convert j (joined op q qs)

theorem converts_of_ofHead {j : Json} {h : Head} {p : Predicate} (hh : head j = .ok h)
    (hp : ofHead convert h = .ok p) : Converts convert j p := by
  unfold ofHead at hp
  split at hp
  · rename_i hk
    obtain ⟨op, left, right, l, r, hop, hs, hl, hr, rfl⟩ := comparison_eq_ok hp
    exact .compare op hh hk hop hs hl hr
  · rename_i hk
    obtain ⟨left, right, l, r, hs, hl, hr, rfl⟩ | ⟨left, items, l, ps, hs, hlen, hl, hps, rfl⟩ :=
      function_eq_ok hp
    · exact .isIn hh hk hs hl hr
    · exact .isInAll hh hk hs hlen hl hps
  · rename_i hk
    obtain ⟨left, right, l, r, hs, hl, hr, rfl⟩ := spatial_eq_ok hp
    exact .spatial hh (.inl hk) hs hl hr
  · rename_i hk
    obtain ⟨left, right, l, r, hs, hl, hr, rfl⟩ := spatial_eq_ok hp
    exact .spatial hh (.inr hk) hs hl hr
  · rename_i hk
    obtain ⟨inner, q, hs, hq, rfl⟩ | ⟨op, first, rest, q, qs, hs, hne, hq, hqs, rfl⟩ :=
      logical_eq_ok hp
    · exact .not hh hk hs hq
    · exact .join op hh hk hs hne hq hqs
  · cases hp

theorem recover_strict (r : Except ConvertError Predicate) : recover .strict r = r := by
  cases r <;> rfl

/-- A strict conversion that succeeds is one level on top of strict conversions that succeed. -/
theorem converts_of_convertNested {budget : Nat} {j : Json} {p : Predicate}
    (h : convertNested .strict (budget + 1) j = .ok p) :
    Converts (convertNested .strict budget) j p := by
  unfold convertNested at h
  rw [recover_strict] at h
  split at h
  · rename_i b
    cases h
    exact .boolean b
  · obtain ⟨hd, hh, h⟩ := bind_eq_ok.1 h
    exact converts_of_ofHead hh h
  · cases h

/-- Without a level left, nothing is converted. -/
theorem convertNested_zero_ne_ok (j : Json) (p : Predicate) : convertNested .strict 0 j ≠ .ok p :=
  nofun

end Description

end RecordFilter
