import RecordFilter.Proofs.Grammar
import RecordFilter.Proofs.Parser.Equations

/-!
# The parser and the grammar

The parser accepts exactly what the grammar derives within the two limits, and
builds the tree of the derivation.  Both directions go from the operands up: what
a reader takes off a stream is derived, and what is derived is read.  A clause
that may open `b` more levels reads the derivations nested less than `b` deep and
refuses all others as too deep.

    Derives .expression m ts p → Derives .expression n ts q → m = n ∧ p = q  (derives_unique)
    parse s = .ok p ↔ ∃ ts n, tokenize s = .ok (ts ++ [.eof]) ∧ Derives .expression n ts p ∧
      n < nestingLimit ∧ p.height ≤ heightLimit                    (parse_eq_ok_iff_derives)
-/

namespace RecordFilter

namespace Predicate

/-! ## What is read is derived -/

theorem ofToken?_eq_some_iff {t : Token} {p : Predicate} :
    ofToken? t = some p ↔ DerivesOperand t p := by
  constructor
  · intro h
    cases t with
    | field | var | string | integer | float | boolean | null =>
      cases h
      constructor
    | _ => cases h
  · intro h
    cases h <;> rfl

theorem expect_delivers {t : Token} {s rest : TokenStream} {u : Unit}
    (h : expect t s = .ok u rest) : Delivers s [t] rest := by
  unfold expect at h
  split at h
  · split at h
    · rename_i ht
      cases h
      subst ht
      exact .one _ _ _
    · exact absurd h failAt_ne_ok
  · exact absurd h failAt_ne_ok

theorem operand_derives {s rest : TokenStream} {p : Predicate} (h : operand.run s = .ok p rest) :
    ∃ t, Delivers s [t] rest ∧ DerivesOperand t p := by
  simp only [operand, operandRun] at h
  split at h
  · split at h
    · rename_i t _ _ _ _ hp
      cases h
      exact ⟨t, .one _ _ _, ofToken?_eq_some_iff.1 hp⟩
    · exact absurd h failAt_ne_ok
  · exact absurd h failAt_ne_ok

/-- The tail of a list ends it, or goes on with a comma and more operands. -/
theorem listTail_derives {items : List Predicate} {s rest : TokenStream} {p : Predicate}
    (h : listTail items s = .ok p rest) :
    (p = .list items ∧ Delivers s [.rightParen] rest) ∨
    ∃ ts ps, p = .list (items ++ ps) ∧ DerivesItems ts ps ∧
      Delivers s (.comma :: ts ++ [.rightParen]) rest := by
  fun_induction listTail items s with
  | case1 items offset rest₁ q rest₂ hq ih =>
    obtain ⟨t, hd, ht⟩ := operand_derives hq
    refine .inr ?_
    obtain ⟨rfl, hr⟩ | ⟨ts, ps, rfl, hps, hr⟩ := ih h
    · exact ⟨[t], [q], rfl, .one ht, .cons (hd.append hr)⟩
    · exact ⟨t :: .comma :: ts, q :: ps, by simp, .more ht hps, .cons (hd.append hr)⟩
  | case2 => simp at h
  | case3 =>
    rename_i he _
    rw [he] at h
    cases h
    exact .inl ⟨rfl, expect_delivers he⟩
  | case4 =>
    rename_i he _
    rw [he] at h
    simp at h

/-- Behind `in` stands one operand, or a list in parentheses. -/
theorem listRun_derives {s rest : TokenStream} {p : Predicate} (h : listRun s = .ok p rest) :
    (∃ t, Delivers s [t] rest ∧ DerivesOperand t p) ∨
    ∃ ts ps, p = .list ps ∧ DerivesItems ts ps ∧
      Delivers s (.leftParen :: ts ++ [.rightParen]) rest := by
  unfold listRun at h
  split at h
  · split at h
    · rename_i offset _ q rest' hq
      obtain ⟨t, hd, ht⟩ := operand_derives hq
      refine .inr ?_
      obtain ⟨rfl, hr⟩ | ⟨ts, ps, rfl, hps, hr⟩ := listTail_derives h
      · exact ⟨[t], [q], rfl, .one ht, .cons (hd.append hr)⟩
      · exact ⟨t :: .comma :: ts, q :: ps, rfl, .more ht hps, .cons (hd.append hr)⟩
    · simp at h
  · exact .inl (operand_derives h)

theorem membership_eq_of_derivesOperand {t : Token} {left p : Predicate}
    (h : DerivesOperand t p) : membership left p = .isIn left (.list [p]) := by
  cases h <;> rfl

theorem conditionRun_derives {s rest : TokenStream} {p : Predicate}
    (h : conditionRun s = .ok p rest) : ∃ ts, Delivers s ts rest ∧ DerivesCondition ts p := by
  unfold conditionRun at h
  split at h
  · rename_i left mid hl
    obtain ⟨t, hd, ht⟩ := operand_derives hl
    unfold conditionTail at h
    split at h
    · split at h
      · rename_i op _ _ _ right rest' hr
        cases h
        obtain ⟨u, hd', hu⟩ := operand_derives hr
        exact ⟨[t, .comparison op, u], hd.append (.cons hd'), .compare op ht hu⟩
      · simp at h
    · split at h
      · rename_i candidates rest' hr
        cases h
        obtain ⟨u, hd', hu⟩ | ⟨us, ps, rfl, hps, hd'⟩ := listRun_derives hr
        · rw [membership_eq_of_derivesOperand hu]
          exact ⟨[t, .isIn, u], hd.append (.cons hd'), .inOperand ht hu⟩
        · exact ⟨t :: .isIn :: .leftParen :: us ++ [.rightParen], hd.append (.cons hd'),
            .inList ht hps⟩
      · simp at h
    · simp at h
    · cases h
      cases ht
      exact ⟨_, hd, .boolean _⟩
    · exact absurd h failAt_ne_ok
  · simp at h

/-- Items that are derived, joined by `op`, are derived: `C` holds of what is joined so far, and
goes on holding with one item more. -/
theorem joinTail_derives {item : Reader Predicate} {op : JoinOp} {b : Nat}
    {I C : Nat → List Token → Predicate → Prop}
    (hitem : ∀ {s rest p}, item.run s = .ok p rest → ∃ n ts, n < b ∧ Delivers s ts rest ∧ I n ts p)
    (hjoin : ∀ {m n ts us p q}, C m ts p → I n us q →
      C (max m n) (ts ++ .join op :: us) (.join op p q))
    {left p : Predicate} {s rest : TokenStream} (h : joinTail item op left s = .ok p rest)
    {m : Nat} {us : List Token} (hm : m < b) (hleft : C m us left) :
    ∃ n ts, n < b ∧ Delivers s ts rest ∧ C n (us ++ ts) p := by
  fun_induction joinTail item op left s generalizing m us with
  | case1 left offset rest₁ right rest₂ hr ih =>
    obtain ⟨n, ts, hn, hd, hi⟩ := hitem hr
    obtain ⟨k, vs, hk, hd', hc⟩ := ih h (by omega : max m n < b) (hjoin hleft hi)
    exact ⟨k, .join op :: ts ++ vs, hk, .cons (hd.append hd'), by simpa using hc⟩
  | case2 => simp at h
  | case3 => cases h; exact ⟨m, [], hm, .nil _, by simpa using hleft⟩
  | case4 => simp at h
  | case5 => cases h; exact ⟨m, [], hm, .nil _, by simpa using hleft⟩

theorem joined_derives {item : Reader Predicate} {op : JoinOp} {b : Nat}
    {I C : Nat → List Token → Predicate → Prop}
    (hitem : ∀ {s rest p}, item.run s = .ok p rest → ∃ n ts, n < b ∧ Delivers s ts rest ∧ I n ts p)
    (hone : ∀ {n ts p}, I n ts p → C n ts p)
    (hjoin : ∀ {m n ts us p q}, C m ts p → I n us q →
      C (max m n) (ts ++ .join op :: us) (.join op p q))
    {s rest : TokenStream} {p : Predicate} (h : (joined item op).run s = .ok p rest) :
    ∃ n ts, n < b ∧ Delivers s ts rest ∧ C n ts p := by
  simp only [joined] at h
  split at h
  · rename_i left mid hl
    obtain ⟨m, us, hm, hd, hi⟩ := hitem hl
    obtain ⟨n, ts, hn, hd', hc⟩ := joinTail_derives hitem hjoin h hm (hone hi)
    exact ⟨n, us ++ ts, hn, hd.append hd', hc⟩
  · simp at h

theorem expressionOf_derives {item : Reader Predicate} {b : Nat}
    (hitem : ∀ {s rest p}, item.run s = .ok p rest →
      ∃ n ts, n < b ∧ Delivers s ts rest ∧ Derives .clause n ts p)
    {s rest : TokenStream} {p : Predicate} (h : (expressionOf item).run s = .ok p rest) :
    ∃ n ts, n < b ∧ Delivers s ts rest ∧ Derives .expression n ts p :=
  joined_derives (joined_derives hitem .clause .and) .conjunction .or h

theorem clause_derives {b : Nat} {s rest : TokenStream} {p : Predicate}
    (h : (clause b).run s = .ok p rest) :
    ∃ n ts, n < b ∧ Delivers s ts rest ∧ Derives .clause n ts p := by
  induction b generalizing s rest p with
  | zero =>
    simp only [clause] at h
    exact absurd h failAt_ne_ok
  | succ b ih =>
    simp only [clause, clauseRun] at h
    split at h
    · split at h
      · rename_i q rest' hq
        cases h
        obtain ⟨n, ts, hn, hd, hc⟩ := ih hq
        exact ⟨n + 1, .not :: ts, by omega, .cons hd, .not hc⟩
      · simp at h
    · split at h
      · rename_i q rest' hq
        obtain ⟨n, ts, hn, hd, he⟩ := expressionOf_derives ih hq
        split at h
        · rename_i hp
          cases h
          exact ⟨n + 1, .leftParen :: ts ++ [.rightParen], by omega,
            .cons (hd.append (expect_delivers hp)), .parens he⟩
        · simp at h
      · simp at h
    · obtain ⟨ts, hd, hc⟩ := conditionRun_derives h
      exact ⟨0, ts, by omega, hd, .condition hc⟩

/-! ## What is derived is read -/

theorem operand_run_of_derives {t : Token} {p : Predicate} (h : DerivesOperand t p) (offset : Nat)
    (rest : TokenStream) : operand.run (.token t offset rest) = .ok p rest := by
  simp only [operand, operandRun, ofToken?_eq_some_iff.2 h]

theorem operand_run_of_delivers {t : Token} {p : Predicate} {s rest : TokenStream}
    (hd : Delivers s [t] rest) (h : DerivesOperand t p) : operand.run s = .ok p rest := by
  cases hd with
  | cons hd =>
    cases hd
    exact operand_run_of_derives h _ _

theorem listTail_rightParen (items : List Predicate) (offset : Nat) (rest : TokenStream) :
    listTail items (.token .rightParen offset rest) = .ok (.list items) rest := by
  simp [listTail, expect]

theorem listTail_comma {items : List Predicate} {offset : Nat} {s rest : TokenStream}
    {p : Predicate} (h : operand.run s = .ok p rest) :
    listTail items (.token .comma offset s) = listTail (items ++ [p]) rest := by
  rw [listTail_more, h]
  rfl

theorem listTail_of_derives {ts : List Token} {ps : List Predicate} (h : DerivesItems ts ps)
    (items : List Predicate) (offset : Nat) {s rest : TokenStream}
    (hd : Delivers s (ts ++ [.rightParen]) rest) :
    listTail items (.token .comma offset s) = .ok (.list (items ++ ps)) rest := by
  induction h generalizing items offset s with
  | one ht =>
    obtain ⟨mid, hd, hd'⟩ := hd.split
    rw [listTail_comma (operand_run_of_delivers hd ht)]
    cases hd' with
    | cons hd' =>
      cases hd'
      exact listTail_rightParen _ _ _
  | @more t p ts ps ht _ ih =>
    obtain ⟨mid, hd, hd'⟩ := hd.uncons
    rw [listTail_comma (operand_run_of_delivers hd ht)]
    cases hd' with
    | cons hd' =>
      rw [ih (items ++ [p]) _ hd']
      simp

theorem listRun_of_derives {ts : List Token} {ps : List Predicate} (h : DerivesItems ts ps)
    {s rest : TokenStream} (hd : Delivers s (.leftParen :: ts ++ [.rightParen]) rest) :
    listRun s = .ok (.list ps) rest := by
  cases hd with
  | cons hd =>
    cases h with
    | one ht =>
      obtain ⟨mid, hd, hd'⟩ := hd.split
      cases hd' with
      | cons hd' =>
        cases hd'
        simp only [listRun, operand_run_of_delivers hd ht]
        exact listTail_rightParen _ _ _
    | @more t p ts ps ht hps =>
      obtain ⟨mid, hd, hd'⟩ := hd.uncons
      cases hd' with
      | cons hd' =>
        simp only [listRun, operand_run_of_delivers hd ht]
        exact listTail_of_derives hps [p] _ hd'

theorem listRun_of_operand {t : Token} {p : Predicate} {s rest : TokenStream}
    (hd : Delivers s [t] rest) (h : DerivesOperand t p) : listRun s = .ok p rest := by
  cases hd with
  | cons hd =>
    cases hd
    cases h <;> rfl

/-- What may stand behind a clause: a connective, a closing parenthesis or the end. -/
inductive Closes : TokenStream → Prop
  | join (op : JoinOp) (offset : Nat) (rest : TokenStream) : Closes (.token (.join op) offset rest)
  | rightParen (offset : Nat) (rest : TokenStream) : Closes (.token .rightParen offset rest)
  | eof (offset : Nat) : Closes (.eof offset)

theorem conditionRun_of_derives {ts : List Token} {p : Predicate} (h : DerivesCondition ts p)
    {s rest : TokenStream} (hd : Delivers s ts rest) (hc : Closes rest) :
    conditionRun s = .ok p rest := by
  cases h with
  | boolean b =>
    rw [conditionRun, operand_run_of_delivers hd (.boolean b)]
    cases hc <;> rfl
  | @compare t u p q op ht hu =>
    obtain ⟨mid, hd, hd'⟩ := hd.uncons
    cases hd' with
    | cons hd' =>
      simp only [conditionRun, operand_run_of_delivers hd ht, conditionTail,
        operand_run_of_delivers hd' hu]
  | @inOperand t u p q ht hu =>
    obtain ⟨mid, hd, hd'⟩ := hd.uncons
    cases hd' with
    | cons hd' =>
      simp only [conditionRun, operand_run_of_delivers hd ht, conditionTail,
        listRun_of_operand hd' hu, membership_eq_of_derivesOperand hu]
  | @inList t p us qs ht hqs =>
    obtain ⟨mid, hd, hd'⟩ := hd.uncons
    cases hd' with
    | cons hd' =>
      simp only [conditionRun, operand_run_of_delivers hd ht, conditionTail,
        listRun_of_derives hqs hd']
      rfl

theorem joined_run_ok {item : Reader Predicate} {left : Predicate} {s rest : TokenStream}
    (h : item.run s = .ok left rest) (op : JoinOp) :
    (joined item op).run s = joinTail item op left rest := by
  rw [joined_run, h]
  rfl

theorem joined_run_error {item : Reader Predicate} {e : ParseError} {s rest : TokenStream}
    (h : item.run s = .error e rest) (op : JoinOp) : (joined item op).run s = .error e rest := by
  rw [joined_run, h]
  rfl

theorem joinTail_join {item : Reader Predicate} {op : JoinOp} {left right : Predicate}
    {offset : Nat} {s rest : TokenStream} (h : item.run s = .ok right rest) :
    joinTail item op left (.token (.join op) offset s) =
      joinTail item op (.join op left right) rest := by
  rw [joinTail_more, h]
  rfl

theorem joinTail_join_error {item : Reader Predicate} {op : JoinOp} {left : Predicate}
    {offset : Nat} {s rest : TokenStream} {e : ParseError} (h : item.run s = .error e rest) :
    joinTail item op left (.token (.join op) offset s) = .error e rest := by
  rw [joinTail_more, h]
  rfl

/-- A chain of `op` ends at whatever may stand behind a clause but `op` itself. -/
theorem joinTail_of_closes {item : Reader Predicate} {op : JoinOp} {left : Predicate}
    {s : TokenStream} (hc : Closes s) (hne : ∀ offset rest, s ≠ .token (.join op) offset rest) :
    joinTail item op left s = .ok left s := by
  cases hc with
  | join | rightParen | eof => exact joinTail_end item left nofun hne

/-- What may stand behind a phrase; the connective of a phrase does not end it. -/
def Ends : Category → TokenStream → Prop
  | .expression, s => Closes s ∧ ∀ offset rest, s ≠ .token (.join .and) offset rest
  | _, s => Closes s

/-- The reader of a part of the grammar whose clauses may open `b` more levels. -/
def phrase (b : Nat) : Category → Reader Predicate
  | .expression => expressionOf (clause b)
  | .conjunction => joined (clause b) .and
  | .clause => clause b

/-- What the reader of a phrase goes on with when it has read `p`: the phrase may be the beginning
of a longer one. -/
def continueWith (b : Nat) : Category → Predicate → TokenStream → Outcome Predicate
  | .expression, p, rest => joinTail (phrase b .conjunction) .or p rest
  | .conjunction, p, rest => joinTail (phrase b .clause) .and p rest
  | .clause, p, rest => .ok p rest

theorem clause_run_condition {ts : List Token} {p : Predicate} (h : DerivesCondition ts p)
    {b : Nat} {s rest : TokenStream} (hd : Delivers s ts rest) :
    (clause (b + 1)).run s = conditionRun s := by
  cases h with
  | boolean | compare _ ht | inOperand ht | inList ht =>
    cases hd with
    | cons hd => first | rfl | (cases ht <;> rfl)

theorem continueWith_of_ends {b : Nat} {p : Predicate} {rest : TokenStream}
    (he : Ends .expression rest) : continueWith b .conjunction p rest = .ok p rest :=
  joinTail_of_closes he.1 he.2

theorem phrase_run_of_derives {c : Category} {n : Nat} {ts : List Token} {p : Predicate}
    (h : Derives c n ts p) {b : Nat} (hn : n < b) {s rest : TokenStream} (hd : Delivers s ts rest)
    (he : Ends c rest) : (phrase b c).run s = continueWith b c p rest := by
  induction h generalizing b s rest with
  | condition hc =>
    obtain ⟨b, rfl⟩ : ∃ k, b = k + 1 := ⟨b - 1, by omega⟩
    exact (clause_run_condition hc hd).trans (conditionRun_of_derives hc hd he)
  | not _ ih =>
    obtain ⟨b, rfl⟩ : ∃ k, b = k + 1 := ⟨b - 1, by omega⟩
    cases hd with
    | cons hd =>
      have hi := ih (b := b) (by omega) hd he
      simp only [phrase, continueWith] at hi ⊢
      simp only [clause, clauseRun, hi]
  | parens _ ih =>
    obtain ⟨b, rfl⟩ : ∃ k, b = k + 1 := ⟨b - 1, by omega⟩
    cases hd with
    | cons hd =>
      obtain ⟨mid, hd, hd'⟩ := hd.split
      cases hd' with
      | cons hd' =>
        cases hd'
        have hi := ih (b := b) (by omega) hd ⟨.rightParen _ _, by simp⟩
        rw [continueWith, joinTail_of_closes (.rightParen _ _) (by simp)] at hi
        simp only [phrase, continueWith] at hi ⊢
        simp only [clause, clauseRun, hi, expect, if_true]
  | clause _ ih => exact joined_run_ok (ih hn hd he) .and
  | and _ _ ih₁ ih₂ =>
    obtain ⟨mid, hd, hd'⟩ := hd.split
    cases hd' with
    | cons hd' =>
      have h₁ := ih₁ (b := b) (by omega) hd (.join _ _ _)
      have h₂ := ih₂ (b := b) (by omega) hd' he
      exact h₁.trans (joinTail_join h₂)
  | conjunction _ ih =>
    exact joined_run_ok ((ih hn hd he.1).trans (continueWith_of_ends he)) .or
  | or _ _ ih₁ ih₂ =>
    obtain ⟨mid, hd, hd'⟩ := hd.split
    cases hd' with
    | cons hd' =>
      have h₁ := ih₁ (b := b) (by omega) hd ⟨.join _ _ _, by simp⟩
      have h₂ := (ih₂ (b := b) (by omega) hd' he.1).trans (continueWith_of_ends he)
      exact h₁.trans (joinTail_join h₂)

/-! ## What is nested too deep is refused -/

theorem ne_nil_of_derives {c : Category} {n : Nat} {ts : List Token} {p : Predicate}
    (h : Derives c n ts p) : ts ≠ [] := by
  induction h with
  | condition hc => cases hc <;> simp
  | not => simp
  | parens => simp
  | clause _ ih => exact ih
  | and => simp
  | conjunction _ ih => exact ih
  | or => simp

theorem clause_zero_run {ts : List Token} {s rest : TokenStream} (hd : Delivers s ts rest)
    (hne : ts ≠ []) : ∃ offset, (clause 0).run s = .error (.tooDeep nestingLimit offset) s := by
  cases hd with
  | nil => exact absurd rfl hne
  | cons hd => exact ⟨_, rfl⟩

theorem phrase_run_of_tooDeep {c : Category} {n : Nat} {ts : List Token} {p : Predicate}
    (h : Derives c n ts p) {b : Nat} (hn : b ≤ n) {s rest : TokenStream} (hd : Delivers s ts rest)
    (he : Ends c rest) :
    ∃ offset rest', (phrase b c).run s = .error (.tooDeep nestingLimit offset) rest' := by
  induction h generalizing b s rest with
  | condition hc =>
    obtain rfl : b = 0 := by omega
    obtain ⟨offset, ho⟩ := clause_zero_run hd (ne_nil_of_derives (.condition hc))
    exact ⟨offset, s, ho⟩
  | not _ ih =>
    cases b with
    | zero =>
      obtain ⟨offset, ho⟩ := clause_zero_run hd (by simp)
      exact ⟨offset, s, ho⟩
    | succ b =>
      cases hd with
      | cons hd =>
        obtain ⟨offset, rest', hi⟩ := ih (b := b) (by omega) hd he
        simp only [phrase] at hi ⊢
        exact ⟨offset, rest', by simp only [clause, clauseRun, hi]⟩
  | parens _ ih =>
    cases b with
    | zero =>
      obtain ⟨offset, ho⟩ := clause_zero_run hd (by simp)
      exact ⟨offset, s, ho⟩
    | succ b =>
      cases hd with
      | cons hd =>
        obtain ⟨mid, hd, hd'⟩ := hd.split
        cases hd' with
        | cons hd' =>
          obtain ⟨offset, rest', hi⟩ := ih (b := b) (by omega) hd ⟨.rightParen _ _, by simp⟩
          simp only [phrase] at hi ⊢
          exact ⟨offset, rest', by simp only [clause, clauseRun, hi]⟩
  | clause _ ih =>
    obtain ⟨offset, rest', hi⟩ := ih hn hd he
    exact ⟨offset, rest', joined_run_error hi .and⟩
  | @and m n ts us p q h₁ h₂ ih₁ ih₂ =>
    obtain ⟨mid, hd, hd'⟩ := hd.split
    cases hd' with
    | cons hd' =>
      rcases Nat.lt_or_ge m b with hm | hm
      · -- the left side is read, so the clause on the right is the one too deep
        have hl := phrase_run_of_derives h₁ hm hd (.join _ _ _)
        obtain ⟨offset, rest', hr⟩ := ih₂ (b := b) (by omega) hd' he
        exact ⟨offset, rest', hl.trans (joinTail_join_error hr)⟩
      · exact ih₁ hm hd (.join _ _ _)
  | conjunction _ ih =>
    obtain ⟨offset, rest', hi⟩ := ih hn hd he.1
    exact ⟨offset, rest', joined_run_error hi .or⟩
  | @or m n ts us p q h₁ h₂ ih₁ ih₂ =>
    obtain ⟨mid, hd, hd'⟩ := hd.split
    cases hd' with
    | cons hd' =>
      rcases Nat.lt_or_ge m b with hm | hm
      · have hl := phrase_run_of_derives h₁ hm hd ⟨.join _ _ _, by simp⟩
        obtain ⟨offset, rest', hr⟩ := ih₂ (b := b) (by omega) hd' he.1
        exact ⟨offset, rest', hl.trans (joinTail_join_error hr)⟩
      · exact ih₁ hm hd ⟨.join _ _ _, by simp⟩

/-! ## Tokens have one derivation -/

theorem ends_eof (offset : Nat) : Ends .expression (.eof offset) := ⟨.eof offset, by simp⟩

/-- A phrase before the end of the text is read as it is derived, if it may be nested deep enough. -/
theorem phrase_run_eof {n : Nat} {ts : List Token} {p : Predicate} (h : Derives .expression n ts p)
    {b : Nat} (hn : n < b) {s : TokenStream} {offset : Nat} (hd : Delivers s ts (.eof offset)) :
    (phrase b .expression).run s = .ok p (.eof offset) :=
  (phrase_run_of_derives h hn hd (ends_eof offset)).trans
    (joinTail_of_closes (.eof offset) (by simp))

/-- No derivation is nested deeper than another one of the same tokens: a reader that may open just
the levels of the flatter one reads it, and would refuse the deeper one. -/
theorem le_of_derives {m n : Nat} {ts : List Token} {p q : Predicate}
    (h : Derives .expression m ts p) (h' : Derives .expression n ts q) : n ≤ m := by
  refine Nat.le_of_not_lt fun hlt => ?_
  obtain ⟨s, hd⟩ := Delivers.exists_stream ts
  have hok := phrase_run_eof h hlt hd
  obtain ⟨offset, rest, herr⟩ :=
    phrase_run_of_tooDeep h' (Nat.le_refl n) hd (ends_eof 0)
  rw [hok] at herr
  cases herr

/-- The grammar is unambiguous: the tokens of an expression determine its tree and its nesting. -/
theorem derives_unique {m n : Nat} {ts : List Token} {p q : Predicate}
    (h : Derives .expression m ts p) (h' : Derives .expression n ts q) : m = n ∧ p = q := by
  obtain ⟨s, hd⟩ := Delivers.exists_stream ts
  have hp := phrase_run_eof h (by omega : m < max m n + 1) hd
  have hq := phrase_run_eof h' (by omega : n < max m n + 1) hd
  rw [hp] at hq
  cases hq
  exact ⟨Nat.le_antisymm (le_of_derives h' h) (le_of_derives h h'), rfl⟩

/-! ## Whole texts -/

/-- A derivation within the nesting limit is read to the end of its text. -/
theorem expression_run_of_derives {n : Nat} {ts : List Token} {p : Predicate} {s : TokenStream}
    {offset : Nat} (h : Derives .expression n ts p) (hn : n < nestingLimit)
    (hd : Delivers s ts (.eof offset)) : expression.run s = .ok p (.eof offset) :=
  phrase_run_eof h hn hd

theorem parse_of_delivers {n : Nat} {ts : List Token} {p : Predicate} {text : String} {offset : Nat}
    (h : Derives .expression n ts p) (hd : Delivers (Lexer.ofString text).stream ts (.eof offset))
    (hn : n < nestingLimit) (hh : p.height ≤ heightLimit) : parse text = .ok p := by
  simp only [parse, parseStream, expression_run_of_derives h hn hd, if_pos hh]

/-- A derived text that breaks one of the limits is refused for its depth and for nothing else. -/
theorem parse_tooDeep_of_delivers {n : Nat} {ts : List Token} {p : Predicate} {text : String}
    {offset : Nat} (h : Derives .expression n ts p)
    (hd : Delivers (Lexer.ofString text).stream ts (.eof offset))
    (hb : nestingLimit ≤ n ∨ heightLimit < p.height) :
    ∃ limit offset, parse text = .error (.tooDeep limit offset) := by
  rcases Nat.lt_or_ge n nestingLimit with hn | hn
  · have hh : ¬p.height ≤ heightLimit := by omega
    exact ⟨heightLimit, offset, by
      simp only [parse, parseStream, expression_run_of_derives h hn hd, if_neg hh]⟩
  · obtain ⟨o, rest, hr⟩ := phrase_run_of_tooDeep h hn hd (ends_eof offset)
    replace hr : expression.run _ = _ := hr
    exact ⟨nestingLimit, o, by simp only [parse, parseStream, hr]⟩

theorem derives_of_parse {text : String} {p : Predicate} (h : parse text = .ok p) :
    ∃ ts n offset, Delivers (Lexer.ofString text).stream ts (.eof offset) ∧
      Derives .expression n ts p ∧ n < nestingLimit ∧ p.height ≤ heightLimit := by
  simp only [parse, parseStream] at h
  split at h
  · rename_i q rest hs
    split at hs
    · cases hs
    · rename_i q' rest' he
      obtain ⟨n, ts, hn, hd, hp⟩ := expressionOf_derives clause_derives he
      split at hs
      · rename_i offset
        split at hs
        · rename_i hh
          cases hs
          cases h
          exact ⟨ts, n, offset, hd, hp, hn, hh⟩
        · cases hs
      · exact absurd hs failAt_ne_ok
  · cases h

/-- **What the parser accepts.**  A text is an expression exactly when its tokens derive from the
grammar within both limits, and then its tree is the tree of the derivation. -/
theorem parse_eq_ok_iff_derives (text : String) (p : Predicate) :
    parse text = .ok p ↔
      ∃ ts n, tokenize text = .ok (ts ++ [.eof]) ∧ Derives .expression n ts p ∧
        n < nestingLimit ∧ p.height ≤ heightLimit := by
  constructor
  · intro h
    obtain ⟨ts, n, offset, hd, hp, hn, hh⟩ := derives_of_parse h
    exact ⟨ts, n, hd.tokens_eq, hp, hn, hh⟩
  · rintro ⟨ts, n, ht, hp, hn, hh⟩
    obtain ⟨offset, hd⟩ := Delivers.of_tokens_eq ht
    exact parse_of_delivers hp hd hn hh

end Predicate

end RecordFilter
