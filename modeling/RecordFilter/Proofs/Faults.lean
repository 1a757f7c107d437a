import RecordFilter.Proofs.Levels

/-!
# Faulty descriptions

What can be wrong with a description at its own level, said without the converter, and what a
description says where nothing is wrong.

    Faulty j ↔ ∃ e, form j = .leaf (.error e)                                   (faulty_iff_form)
    ¬Faulty j → ∃ f, Says j f                                                (says_of_not_faulty)
    Says j f → form j = f                                                          (Says.form_eq)
-/

namespace RecordFilter

namespace Description

variable {j k : Json} {h : Head} {p q : Predicate} {level : Nat}

/-! ## Faults -/

/-- An operator that its type of description does not have. -/
inductive UnknownOperator (h : Head) : Prop
  | comparison : h.kind = "comparison" → CompareOp.ofSymbol? h.operator = none → UnknownOperator h
  | function : h.kind = "function" → h.operator ≠ "in" → UnknownOperator h
  | spatial : h.kind = "spatial" ∨ h.kind = "geometry" → h.operator ≠ "intersects" →
      UnknownOperator h
  | logical : h.kind = "logical" → h.operator ∉ ["not", "and", "or"] → UnknownOperator h

/-- As many operands as the operator does not take. -/
inductive WrongArity (h : Head) : Prop
  | two : h.kind ∈ ["comparison", "spatial", "geometry"] → h.operands.length ≠ 2 → WrongArity h
  | function : h.kind = "function" → h.operands.length < 2 → WrongArity h
  | not : h.kind = "logical" → h.operator = "not" → h.operands.length ≠ 1 → WrongArity h
  | join : h.kind = "logical" → h.operator ∈ ["and", "or"] → h.operands.length < 2 → WrongArity h

/-- An operand that is none.  Where a function has more than one behind its left operand, these are
the entries of its list and have to be constants. -/
inductive Unconvertible (h : Head) : Prop
  | operand {k : Json} {e : ConvertError} : h.kind ≠ "logical" → k ∈ h.operands →
      operand k = .error e → Unconvertible h
  | constant {k : Json} {e : ConvertError} : h.kind = "function" → 2 < h.operands.length →
      k ∈ h.operands.tail → constant k = .error e → Unconvertible h

/-- A description that fails for a reason of its own, whatever its logical operands are. -/
inductive Faulty : Json → Prop
  | notAPredicate {j : Json} : (∀ b, j ≠ .bool b) → (∀ members, j ≠ .object members) → Faulty j
  | noType {members : List (String × Json)} :
      (Json.object members).stringMember? "type" = none → Faulty (.object members)
  | noOperator {members : List (String × Json)} :
      (Json.object members).stringMember? "operator" = none → Faulty (.object members)
  | noOperands {members : List (String × Json)} {other : Json} :
      (Json.object members).member? "operands" = some other → (∀ items, other ≠ .array items) →
      Faulty (.object members)
  | unknownType {j : Json} {h : Head} : head j = .ok h →
      h.kind ∉ ["comparison", "function", "spatial", "geometry", "logical"] → Faulty j
  | unknownOperator {j : Json} {h : Head} : head j = .ok h → UnknownOperator h → Faulty j
  | arity {j : Json} {h : Head} : head j = .ok h → WrongArity h → Faulty j
  | operand {j : Json} {h : Head} : head j = .ok h → Unconvertible h → Faulty j

/-! ## What faultless descriptions say -/

/-- `Says j f`: with nothing wrong at its own level, the description says `f`. -/
inductive Says : Json → Form → Prop
  | boolean (b : Bool) : Says (.bool b) (.leaf (.ok (.boolean b)))
  | compare {j left right : Json} {h : Head} {op : CompareOp} {l r : Predicate} :
      head j = .ok h → h.kind = "comparison" → CompareOp.ofSymbol? h.operator = some op →
      h.operands = [left, right] → operand left = .ok l → operand right = .ok r →
      Says j (.leaf (.ok (.compare op l r)))
  | isIn {j left right : Json} {h : Head} {l r : Predicate} :
      head j = .ok h → h.kind = "function" → h.operator = "in" → h.operands = [left, right] →
      operand left = .ok l → operand right = .ok r → Says j (.leaf (.ok (.membership l r)))
  | isInAll {j left first second : Json} {rest : List Json} {h : Head} {l : Predicate}
      {ps : List Predicate} :
      head j = .ok h → h.kind = "function" → h.operator = "in" →
      h.operands = left :: first :: second :: rest → operand left = .ok l →
      List.Forall₂ (fun k p => constant k = .ok p) (first :: second :: rest) ps →
      Says j (.leaf (.ok (.isIn l (.list ps))))
  | spatial {j left right : Json} {h : Head} {l r : Predicate} :
      head j = .ok h → h.kind = "spatial" ∨ h.kind = "geometry" → h.operator = "intersects" →
      h.operands = [left, right] → operand left = .ok l → operand right = .ok r →
      Says j (.leaf (.ok (.spatial .intersects l r)))
  | not {j inner : Json} {h : Head} :
      head j = .ok h → h.kind = "logical" → h.operator = "not" → h.operands = [inner] →
      Says j (.negation inner)
  | and {j first second : Json} {rest : List Json} {h : Head} :
      head j = .ok h → h.kind = "logical" → h.operator = "and" →
      h.operands = first :: second :: rest → Says j (.connective .and first second rest)
  | or {j first second : Json} {rest : List Json} {h : Head} :
      head j = .ok h → h.kind = "logical" → h.operator = "or" →
      h.operands = first :: second :: rest → Says j (.connective .or first second rest)

/-! ## Either a fault or a reading -/

theorem faulty_of_head_error {members : List (String × Json)} {e : ConvertError}
    (hh : head (.object members) = .error e) : Faulty (.object members) := by
  unfold head at hh
  split at hh
  · rename_i ht
    exact .noType ht
  · rename_i ho
    exact .noOperator ho
  · split at hh
    · cases hh
    · rename_i other hne hm
      exact .noOperands hm hne
    · cases hh

theorem exists_forall₂_constant {ks : List Json} (h : ∀ k ∈ ks, ∃ p, constant k = .ok p) :
    ∃ ps, List.Forall₂ (fun k p => constant k = .ok p) ks ps := by
  induction ks with
  | nil => exact ⟨[], .nil⟩
  | cons k ks ih =>
    obtain ⟨⟨p, hp⟩, hks⟩ := List.forall_mem_cons.1 h
    obtain ⟨ps, hps⟩ := ih hks
    exact ⟨p :: ps, .cons hp hps⟩

/-- Without an unconvertible operand, all operands of a description that is not logical convert. -/
theorem convertible_of_not (hu : ¬Unconvertible h) (hk : h.kind ≠ "logical") :
    ∀ k ∈ h.operands, ∃ p, operand k = .ok p := by
  intro k hmem
  cases ho : operand k with
  | ok p => exact ⟨p, rfl⟩
  | error e => exact absurd (.operand hk hmem ho) hu

/-- Two operands that convert. -/
theorem exists_pair (hlen : h.operands.length = 2)
    (hc : ∀ k ∈ h.operands, ∃ p, operand k = .ok p) :
    ∃ left right l r, h.operands = [left, right] ∧ operand left = .ok l ∧ operand right = .ok r := by
  obtain ⟨left, right, hs⟩ := List.length_eq_two.1 hlen
  rw [hs, List.forall_mem_cons, List.forall_mem_singleton] at hc
  obtain ⟨⟨l, hl⟩, r, hr⟩ := hc
  exact ⟨left, right, l, r, hs, hl, hr⟩

theorem exists_two_le {ks : List Json} (hlen : ¬ks.length < 2) :
    ∃ first second rest, ks = first :: second :: rest := by
  match ks, hlen with
  | first :: second :: rest, _ => exact ⟨first, second, rest, rfl⟩
  | [_], hlen | [], hlen => exact absurd (by simp) hlen

theorem says_comparison (hh : head j = .ok h) (hk : h.kind = "comparison")
    (ho : ¬UnknownOperator h) (ha : ¬WrongArity h) (hu : ¬Unconvertible h) : ∃ f, Says j f := by
  cases hop : CompareOp.ofSymbol? h.operator with
  | none => exact absurd (.comparison hk hop) ho
  | some op =>
    have hlen : h.operands.length = 2 := by
      by_contra hlen
      exact ha (.two (by rw [hk]; simp) hlen)
    obtain ⟨left, right, l, r, hs, hl, hr⟩ :=
      exists_pair hlen (convertible_of_not hu (by rw [hk]; decide))
    exact ⟨_, .compare hh hk hop hs hl hr⟩

theorem says_function (hh : head j = .ok h) (hk : h.kind = "function")
    (ho : ¬UnknownOperator h) (ha : ¬WrongArity h) (hu : ¬Unconvertible h) : ∃ f, Says j f := by
  have hop : h.operator = "in" := by
    by_contra hop
    exact ho (.function hk hop)
  have hc := convertible_of_not hu (by rw [hk]; decide)
  obtain ⟨left, right, rest, hs⟩ := exists_two_le fun hlen => ha (.function hk hlen)
  cases rest with
  | nil =>
    obtain ⟨_, _, l, r, hs', hl, hr⟩ := exists_pair (by rw [hs]; rfl) hc
    exact ⟨_, .isIn hh hk hop hs' hl hr⟩
  | cons third rest =>
    obtain ⟨l, hl⟩ := hc left (by rw [hs]; exact List.mem_cons_self)
    obtain ⟨ps, hps⟩ : ∃ ps, List.Forall₂ (fun k p => constant k = .ok p)
        (right :: third :: rest) ps := by
      refine exists_forall₂_constant fun k hmem => ?_
      cases hconst : constant k with
      | ok p => exact ⟨p, rfl⟩
      | error e =>
        exact absurd (.constant hk (by rw [hs]; simp) (by rw [hs]; exact hmem) hconst) hu
    exact ⟨_, .isInAll hh hk hop hs hl hps⟩

theorem says_spatial (hh : head j = .ok h) (hk : h.kind = "spatial" ∨ h.kind = "geometry")
    (ho : ¬UnknownOperator h) (ha : ¬WrongArity h) (hu : ¬Unconvertible h) : ∃ f, Says j f := by
  have hop : h.operator = "intersects" := by
    by_contra hop
    exact ho (.spatial hk hop)
  have hlen : h.operands.length = 2 := by
    by_contra hlen
    exact ha (.two (by rcases hk with hk | hk <;> simp [hk]) hlen)
  obtain ⟨left, right, l, r, hs, hl, hr⟩ :=
    exists_pair hlen (convertible_of_not hu (by rcases hk with hk | hk <;> simp [hk]))
  exact ⟨_, .spatial hh hk hop hs hl hr⟩

theorem says_logical (hh : head j = .ok h) (hk : h.kind = "logical")
    (ho : ¬UnknownOperator h) (ha : ¬WrongArity h) : ∃ f, Says j f := by
  have hop : h.operator ∈ ["not", "and", "or"] := by
    by_contra hop
    exact ho (.logical hk hop)
  simp only [List.mem_cons, List.not_mem_nil, or_false] at hop
  rcases hop with hop | hop | hop
  · have hlen : h.operands.length = 1 := by
      by_contra hlen
      exact ha (.not hk hop hlen)
    obtain ⟨inner, hs⟩ := List.length_eq_one_iff.1 hlen
    exact ⟨_, .not hh hk hop hs⟩
  · obtain ⟨first, second, rest, hs⟩ :=
      exists_two_le fun hlen => ha (.join hk (by rw [hop]; simp) hlen)
    exact ⟨_, .and hh hk hop hs⟩
  · obtain ⟨first, second, rest, hs⟩ :=
      exists_two_le fun hlen => ha (.join hk (by rw [hop]; simp) hlen)
    exact ⟨_, .or hh hk hop hs⟩

/-- A description in which nothing is wrong says something. -/
theorem says_of_not_faulty (hj : ¬Faulty j) : ∃ f, Says j f := by
  cases j with
  | bool b => exact ⟨_, .boolean b⟩
  | null | integer | float | string | array => exact absurd (.notAPredicate nofun nofun) hj
  | object members =>
    cases hh : head (.object members) with
    | error e => exact absurd (faulty_of_head_error hh) hj
    | ok h =>
      have ho : ¬UnknownOperator h := fun ho => hj (.unknownOperator hh ho)
      have ha : ¬WrongArity h := fun ha => hj (.arity hh ha)
      have hu : ¬Unconvertible h := fun hu => hj (.operand hh hu)
      have hkind : h.kind ∈ ["comparison", "function", "spatial", "geometry", "logical"] := by
        by_contra hkind
        exact hj (.unknownType hh hkind)
      simp only [List.mem_cons, List.not_mem_nil, or_false] at hkind
      rcases hkind with hk | hk | hk | hk | hk
      · exact says_comparison hh hk ho ha hu
      · exact says_function hh hk ho ha hu
      · exact says_spatial hh (.inl hk) ho ha hu
      · exact says_spatial hh (.inr hk) ho ha hu
      · exact says_logical hh hk ho ha

/-! ## The converter's view -/

theorem form_of_head (hh : head j = .ok h) : form j = formOfHead h := by
  cases j with
  | object members => simp only [form, hh]
  | _ => cases hh

theorem formOfHead_of_ne (hk : h.kind ≠ "logical") :
    formOfHead h = .leaf (ofHead (fun _ => .ok (.boolean true)) h) := by
  unfold formOfHead
  split
  · rename_i hl _ _
    exact absurd hl hk
  · rename_i hl _ _
    exact absurd hl hk
  · rename_i hl _ _
    exact absurd hl hk
  · rfl

theorem constants_of_forall₂ {ks : List Json} {ps : List Predicate}
    (hps : List.Forall₂ (fun k p => constant k = .ok p) ks ps) : constants ks = .ok ps := by
  induction hps with
  | nil => rfl
  | cons hk _ ih => exact bind_eq_ok.2 ⟨_, hk, bind_eq_ok.2 ⟨_, ih, rfl⟩⟩

/-- The converter takes a faultless description for what it says. -/
theorem Says.form_eq {f : Form} (hf : Says j f) : form j = f := by
  cases hf with
  | boolean b => rfl
  | compare hh hk hop hs hl hr =>
    rw [form_of_head hh, formOfHead_of_ne (by rw [hk]; decide)]
    simp only [ofHead, hk, comparison, hop, hs, hl, hr]
    rfl
  | isIn hh hk hop hs hl hr =>
    rw [form_of_head hh, formOfHead_of_ne (by rw [hk]; decide)]
    simp only [ofHead, hk, function, hop, hs, hl, hr]
    rfl
  | isInAll hh hk hop hs hl hps =>
    rw [form_of_head hh, formOfHead_of_ne (by rw [hk]; decide)]
    simp only [ofHead, hk, function, hop, hs, hl, constants_of_forall₂ hps]
    rfl
  | spatial hh hk hop hs hl hr =>
    rw [form_of_head hh]
    rcases hk with hk | hk
    · rw [formOfHead_of_ne (by rw [hk]; decide)]
      simp only [ofHead, hk, Description.spatial, hop, hs, hl, hr]
      rfl
    · rw [formOfHead_of_ne (by rw [hk]; decide)]
      simp only [ofHead, hk, Description.spatial, hop, hs, hl, hr]
      rfl
  | not hh hk hop hs | and hh hk hop hs | or hh hk hop hs =>
    rw [form_of_head hh]
    simp only [formOfHead, hk, hop, hs]

theorem not_unconvertible_pair {left right : Json} {l r : Predicate}
    (hs : h.operands = [left, right]) (hl : operand left = .ok l) (hr : operand right = .ok r) :
    ¬Unconvertible h := by
  rintro (⟨-, hmem, he⟩ | ⟨-, hlen, -, -⟩)
  · rw [hs, List.mem_cons, List.mem_singleton] at hmem
    rcases hmem with rfl | rfl
    · rw [hl] at he
      cases he
    · rw [hr] at he
      cases he
  · rw [hs] at hlen
    exact Nat.lt_irrefl 2 hlen

/-- Every constant is an operand. -/
theorem exists_operand_of_constant (hp : constant k = .ok p) : ∃ q, operand k = .ok q := by
  cases k with
  | array items => cases hp
  | object members =>
    rw [operand]
    split
    · exact ⟨_, rfl⟩
    · exact ⟨_, rfl⟩
    · exact ⟨_, rfl⟩
    · exact ⟨p, hp⟩
  | null | bool | integer | float | string => exact ⟨p, hp⟩

theorem not_unconvertible_list {left : Json} {items : List Json} {l : Predicate}
    {ps : List Predicate} (hs : h.operands = left :: items) (hl : operand left = .ok l)
    (hps : constants items = .ok ps) : ¬Unconvertible h := by
  have hitems : ∀ k ∈ items, ∃ p, constant k = .ok p :=
    forall_mem_of_forall₂ (P := fun _ => True) (forall₂_of_constants hps).flip
      (fun p _ hk _ => ⟨p, hk⟩) (fun _ _ => trivial)
  rintro (⟨-, hmem, he⟩ | ⟨-, -, hmem, he⟩)
  · rw [hs, List.mem_cons] at hmem
    rcases hmem with rfl | hmem
    · rw [hl] at he
      cases he
    · obtain ⟨p, hp⟩ := hitems _ hmem
      obtain ⟨q, hq⟩ := exists_operand_of_constant hp
      rw [hq] at he
      cases he
  · rw [hs] at hmem
    obtain ⟨p, hp⟩ := hitems _ hmem
    rw [hp] at he
    cases he

/-- A fault of a description that has a type, an operator and operands. -/
def Fault (h : Head) : Prop :=
  UnknownOperator h ∨ WrongArity h ∨ Unconvertible h

theorem comparison_ne_ok (hk : h.kind = "comparison") (hf : Fault h) : comparison h ≠ .ok p := by
  intro hp
  obtain ⟨op, left, right, l, r, hop, hs, hl, hr, -⟩ := comparison_eq_ok hp
  rcases hf with hf | hf | hf
  · cases hf <;> simp_all
  · cases hf <;> simp_all
  · exact not_unconvertible_pair hs hl hr hf

theorem function_ne_ok (hk : h.kind = "function") (hf : Fault h) : function h ≠ .ok p := by
  intro hp
  have hop : h.operator = "in" := by
    by_contra hop
    rw [function, if_pos hop] at hp
    cases hp
  have hlen : ¬h.operands.length < 2 := by
    obtain ⟨left, right, l, r, hs, -⟩ | ⟨left, items, l, ps, hs, hlen, -⟩ := function_eq_ok hp
    · rw [hs]
      exact Nat.lt_irrefl 2
    · rw [hs, List.length_cons]
      omega
  rcases hf with hf | hf | hf
  · cases hf <;> simp_all
  · cases hf <;> simp_all
  · obtain ⟨left, right, l, r, hs, hl, hr, -⟩ | ⟨left, items, l, ps, hs, -, hl, hps, -⟩ :=
      function_eq_ok hp
    · exact not_unconvertible_pair hs hl hr hf
    · exact not_unconvertible_list hs hl hps hf

theorem spatial_ne_ok (hk : h.kind = "spatial" ∨ h.kind = "geometry") (hf : Fault h) :
    spatial h ≠ .ok p := by
  intro hp
  have hop : h.operator = "intersects" := by
    by_contra hop
    rw [spatial, if_pos hop] at hp
    cases hp
  obtain ⟨left, right, l, r, hs, hl, hr, -⟩ := spatial_eq_ok hp
  rcases hf with hf | hf | hf
  · rcases hk with hk | hk <;> cases hf <;> simp_all
  · rcases hk with hk | hk <;> cases hf <;> simp_all
  · exact not_unconvertible_pair hs hl hr hf

theorem not_fault_not {inner : Json} (hk : h.kind = "logical") (hop : h.operator = "not")
    (hs : h.operands = [inner]) : ¬Fault h := by
  rintro (hf | hf | hf) <;> cases hf <;> simp_all

theorem not_fault_join {first second : Json} {rest : List Json} (hk : h.kind = "logical")
    (hop : h.operator ∈ ["and", "or"]) (hs : h.operands = first :: second :: rest) : ¬Fault h := by
  have hne : h.operator ≠ "not" := by
    intro hnot
    rw [hnot] at hop
    exact absurd hop (by decide)
  have hmem : h.operator ∈ ["not", "and", "or"] := List.mem_cons_of_mem "not" hop
  rintro (hf | hf | hf)
  · cases hf <;> simp_all
  · cases hf with
    | join _ _ hlen =>
      rw [hs, List.length_cons, List.length_cons] at hlen
      omega
    | _ => simp_all
  · cases hf <;> simp_all

/-- A faulty logical description is an error before its operands are looked at. -/
theorem formOfHead_logical (hk : h.kind = "logical") (hf : Fault h) :
    ∃ e, formOfHead h = .leaf (.error e) := by
  unfold formOfHead
  split
  · rename_i hop hs
    exact absurd hf (not_fault_not hk hop hs)
  · rename_i hop hs
    exact absurd hf (not_fault_join hk (by rw [hop]; simp) hs)
  · rename_i hop hs
    exact absurd hf (not_fault_join hk (by rw [hop]; simp) hs)
  · rename_i hnot hand hor
    simp only [ofHead, hk, logical]
    split
    · rename_i hop
      split
      · rename_i inner hs
        exact (hnot inner hk hop hs).elim
      · exact ⟨_, rfl⟩
    · rename_i hop
      split
      · rename_i first second rest hs
        exact (hand first second rest hk hop hs).elim
      · exact ⟨_, rfl⟩
    · rename_i hop
      split
      · rename_i first second rest hs
        exact (hor first second rest hk hop hs).elim
      · exact ⟨_, rfl⟩
    · exact ⟨_, rfl⟩

theorem exists_error {r : Except ConvertError Predicate} (hr : ∀ p, r ≠ .ok p) :
    ∃ e, Form.leaf r = .leaf (.error e) := by
  cases r with
  | ok p => exact absurd rfl (hr p)
  | error e => exact ⟨e, rfl⟩

theorem formOfHead_of_fault (hf : Fault h) : ∃ e, formOfHead h = .leaf (.error e) := by
  by_cases hk : h.kind = "logical"
  · exact formOfHead_logical hk hf
  · rw [formOfHead_of_ne hk]
    refine exists_error fun p => ?_
    unfold ofHead
    split
    · rename_i hk
      exact comparison_ne_ok hk hf
    · rename_i hk
      exact function_ne_ok hk hf
    · rename_i hk
      exact spatial_ne_ok (.inl hk) hf
    · rename_i hk
      exact spatial_ne_ok (.inr hk) hf
    · rename_i hlogical
      exact absurd hlogical hk
    · exact nofun

theorem head_of_noOperator {members : List (String × Json)}
    (ho : (Json.object members).stringMember? "operator" = none) :
    ∃ e, head (.object members) = .error e := by
  unfold head
  rw [ho]
  split
  · exact ⟨_, rfl⟩
  · exact ⟨_, rfl⟩
  · rename_i heq
    cases heq

theorem head_of_noOperands {members : List (String × Json)} {other : Json}
    (hm : (Json.object members).member? "operands" = some other)
    (hne : ∀ items, other ≠ .array items) : ∃ e, head (.object members) = .error e := by
  unfold head
  rw [hm]
  split
  · exact ⟨_, rfl⟩
  · exact ⟨_, rfl⟩
  · cases other with
    | array items => exact absurd rfl (hne items)
    | _ => exact ⟨_, rfl⟩

theorem form_of_head_error {members : List (String × Json)}
    (hh : ∃ e, head (.object members) = .error e) :
    ∃ e, form (.object members) = .leaf (.error e) := by
  obtain ⟨e, hh⟩ := hh
  exact ⟨e, by simp only [form, hh]⟩

/-- **Faults.**  What the converter cannot convert, whatever it makes of the operands of logical
descriptions, is what is faulty. -/
theorem faulty_iff_form : Faulty j ↔ ∃ e, form j = .leaf (.error e) := by
  constructor
  · intro hj
    cases hj with
    | notAPredicate hb ho =>
      cases j with
      | bool b => exact absurd rfl (hb b)
      | object members => exact absurd rfl (ho members)
      | _ => exact ⟨_, rfl⟩
    | noType ht => exact form_of_head_error ⟨.missingMember "type", by simp only [head, ht]⟩
    | noOperator ho => exact form_of_head_error (head_of_noOperator ho)
    | noOperands hm hne => exact form_of_head_error (head_of_noOperands hm hne)
    | @unknownType _ h hh hk =>
      simp only [List.mem_cons, List.not_mem_nil, or_false, not_or] at hk
      obtain ⟨hc, hfun, hsp, hg, hl⟩ := hk
      rw [form_of_head hh, formOfHead_of_ne hl]
      refine exists_error fun p => ?_
      unfold ofHead
      split
      · exact absurd ‹_› hc
      · exact absurd ‹_› hfun
      · exact absurd ‹_› hsp
      · exact absurd ‹_› hg
      · exact absurd ‹_› hl
      · exact nofun
    | unknownOperator hh hf =>
      rw [form_of_head hh]
      exact formOfHead_of_fault (.inl hf)
    | arity hh hf =>
      rw [form_of_head hh]
      exact formOfHead_of_fault (.inr (.inl hf))
    | operand hh hf =>
      rw [form_of_head hh]
      exact formOfHead_of_fault (.inr (.inr hf))
  · rintro ⟨e, he⟩
    by_contra hj
    obtain ⟨f, hf⟩ := says_of_not_faulty hj
    rw [hf.form_eq] at he
    subst he
    cases hf

end Description

end RecordFilter
