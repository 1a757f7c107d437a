import RecordFilter.Proofs.Sql.Writing

/-!
# Reading written conditions

A written condition is read as the search condition that it stands for: its
parentheses keep connectives apart, and a negation takes the one clause behind it.

    c.Plain → read (c.text d) = some (c.search d)                    (read_text)
-/

namespace RecordFilter

/-! ## What terms and conditions stand for -/

/-- A constant or a column. -/
def Term.operand (d : Dialect) : Term → Sql.Operand
  | column name _ => .column ((splitParts '.' name.toList).map String.ofList)
  | null => .constant .null
  | boolean b =>
    match d with
    | .sql => .constant (.number b.toNat 0)
    | .cql => .constant (.boolean b)
  | integer n => .constant (.number n.toInt 0)
  | number negative m =>
    .constant (.number (applySign negative (m.shortest .up).numerator) (m.shortest .up).places)
  | string s => .constant (.text s)

namespace Condition

def constantSearch : Dialect → Bool → Sql.Search
  | .sql, b => .compare .equal (.constant (.number 1 0)) (.constant (.number b.toNat 0))
  | .cql, b => .constant b

def blankSearch (d : Dialect) (subject : Term) : Sql.Search :=
  .or (.isNull (subject.operand d)) (.compare .equal (subject.operand d) (.constant (.text "")))

def listSearch (d : Dialect) (subject : Term) (items : List Term) : Sql.Search :=
  .isIn (subject.operand d) (items.map (·.operand d))

def oneOfSearch (d : Dialect) (subject : Term) (items : List Term) (orBlank : Bool) : Sql.Search :=
  if orBlank then
    if items.isEmpty then blankSearch d subject
    else .or (blankSearch d subject) (listSearch d subject items)
  else if items.isEmpty then constantSearch d false
  else listSearch d subject items

def joinSearch : JoinOp → Sql.Search → Sql.Search → Sql.Search
  | .and => .and
  | .or => .or

/-- The search condition of a condition. -/
def search (d : Dialect) : Condition → Sql.Search
  | constant b => constantSearch d b
  | compare op left right =>
    .compare (op.relation?.getD .equal) (left.operand d) (right.operand d)
  | missing subject => .isNull (subject.operand d)
  | present subject => .isNotNull (subject.operand d)
  | oneOf subject items orBlank => oneOfSearch d subject items orBlank
  | not inner => .not (inner.search d)
  | join op left right => joinSearch op (left.search d) (right.search d)
  | verbatim _ => .constant false

end Condition

namespace Sql

variable {d : Dialect} {ts rest : List Token}

/-! ## Operands -/

/-- Whether tokens do not go on with a dotted name. -/
def NoDot (ts : List Token) : Prop := ∀ us, ts ≠ .dot :: us

theorem readParts_of_noDot (h : NoDot rest) : readParts rest = ([], rest) := by
  unfold readParts
  split
  · rename_i us
    exact absurd rfl (h _)
  · rfl

theorem readParts_columnTokens {parts : List (List Char)} (hne : parts ≠ []) (h : NoDot rest) :
    readParts (.dot :: Term.columnTokens parts ++ rest) = (parts.map String.ofList, rest) := by
  induction parts with
  | nil => exact absurd rfl hne
  | cons part parts ih =>
    cases parts with
    | nil =>
      show readParts (.dot :: .name (String.ofList part) :: rest) = _
      rw [readParts, readParts_of_noDot h]
      rfl
    | cons q qs =>
      show readParts (.dot :: .name (String.ofList part) ::
        (.dot :: Term.columnTokens (q :: qs) ++ rest)) = _
      rw [readParts, ih (by simp)]
      rfl

theorem splitParts_ne_nil (sep : Char) (cs : List Char) : splitParts sep cs ≠ [] := by
  cases cs with
  | nil => simp [splitParts]
  | cons c cs =>
    rw [splitParts]
    split
    · simp
    · split <;> simp

theorem readOperand_columnTokens {parts : List (List Char)} (hne : parts ≠ []) (h : NoDot rest) :
    readOperand (Term.columnTokens parts ++ rest) =
      some (.column (parts.map String.ofList), rest) := by
  obtain ⟨part, parts, rfl⟩ := List.exists_cons_of_ne_nil hne
  cases parts with
  | nil =>
    show readOperand (.name (String.ofList part) :: rest) = _
    rw [readOperand, readParts_of_noDot h]
    rfl
  | cons q qs =>
    show readOperand (.name (String.ofList part) :: (.dot :: Term.columnTokens (q :: qs) ++ rest)) = _
    rw [readOperand, readParts_columnTokens (by simp) h]
    rfl

theorem readOperand_numberTokens (negative : Bool) (n k : Nat) :
    readOperand (Term.numberTokens negative n k ++ rest) =
      some (.constant (.number (applySign negative n) k), rest) := by
  cases negative <;> rfl

theorem readOperand_tokens (t : Term) (h : NoDot rest) :
    readOperand (t.tokens d ++ rest) = some (t.operand d, rest) := by
  cases t with
  | column name castType => exact readOperand_columnTokens (splitParts_ne_nil '.' _) h
  | null => rfl
  | boolean b => cases d <;> cases b <;> rfl
  | integer n =>
    have hn : applySign (n.toInt < 0) n.toInt.natAbs = n.toInt := by
      unfold applySign
      by_cases hn : n.toInt < 0
      · rw [if_pos (by simpa using hn)]
        omega
      · rw [if_neg (by simpa using hn)]
        omega
    rw [Term.tokens, readOperand_numberTokens, hn]
    rfl
  | number negative m => exact readOperand_numberTokens _ _ _
  | string s => rfl

theorem readItems_separated {items : List Term} (hne : items ≠ []) {n : Nat}
    (hn : items.length ≤ n) :
    readItems n (Condition.separatedTokens d items ++ .rightParen :: rest) =
      some (items.map (·.operand d), rest) := by
  induction items generalizing n with
  | nil => exact absurd rfl hne
  | cons t ts ih =>
    obtain ⟨n, rfl⟩ : ∃ k, n = k + 1 := ⟨n - 1, by simp at hn; omega⟩
    cases ts with
    | nil =>
      show readItems (n + 1) (t.tokens d ++ .rightParen :: rest) = _
      rw [readItems, readOperand_tokens t (by simp [NoDot])]
      rfl
    | cons u us =>
      have hs : Condition.separatedTokens d (t :: u :: us) ++ .rightParen :: rest =
          t.tokens d ++ .comma :: (Condition.separatedTokens d (u :: us) ++ .rightParen :: rest) := by
        simp [Condition.separatedTokens]
      rw [hs, readItems, readOperand_tokens t (by simp [NoDot])]
      simp only [ih (by simp) (Nat.le_of_succ_le_succ hn)]
      rfl

theorem columnTokens_ne_nil {parts : List (List Char)} (h : parts ≠ []) :
    Term.columnTokens parts ≠ [] := by
  obtain ⟨part, parts, rfl⟩ := List.exists_cons_of_ne_nil h
  cases parts <;> simp [Term.columnTokens]

theorem tokens_ne_nil (t : Term) : t.tokens d ≠ [] := by
  cases t with
  | column name => exact columnTokens_ne_nil (splitParts_ne_nil '.' _)
  | boolean b => cases d <;> simp [Term.tokens]
  | integer n =>
    simp only [Term.tokens, Term.numberTokens]
    split <;> simp
  | number negative m =>
    simp only [Term.tokens, Term.numberTokens]
    split <;> simp
  | _ => simp [Term.tokens]

theorem length_le_separated (items : List Term) :
    items.length ≤ (Condition.separatedTokens d items).length := by
  induction items with
  | nil => exact Nat.le_refl 0
  | cons t ts ih =>
    have ht := List.length_pos_iff.2 (tokens_ne_nil (d := d) t)
    cases ts with
    | nil =>
      show 1 ≤ (t.tokens d).length
      omega
    | cons u us =>
      simp only [Condition.separatedTokens, List.length_append, List.length_cons] at ih ⊢
      omega

/-! ## Predicates -/

/-- What stands behind a clause: the end, a closing parenthesis or a connective. -/
inductive Ends : List Token → Prop
  | nil : Ends []
  | rightParen (ts : List Token) : Ends (.rightParen :: ts)
  | join (op : JoinOp) (ts : List Token) : Ends (.word op.keyword :: ts)

theorem Ends.noDot (h : Ends rest) : NoDot rest := by
  cases h <;> simp [NoDot]

theorem readTail_boolean (b : Bool) (h : Ends rest) :
    readTail (.constant (.boolean b)) rest = some (.constant b, rest) := by
  cases h with
  | nil => rfl
  | rightParen => rfl
  | join op => cases op <;> rfl

theorem readTail_relation (x : Operand) (r : Relation) (t : Term) (h : Ends rest) :
    readTail x (.relation r :: t.tokens d ++ rest) = some (.compare r x (t.operand d), rest) := by
  show (readOperand (t.tokens d ++ rest)).map _ = _
  rw [readOperand_tokens t h.noDot]
  rfl

theorem readTail_list (x : Operand) {items : List Term} (hne : items ≠ []) (rest : List Token) :
    readTail x (.word "IN" :: .leftParen :: Condition.separatedTokens d items ++ .rightParen :: rest) =
      some (.isIn x (items.map (·.operand d)), rest) := by
  have hn : items.length ≤ (Condition.separatedTokens d items ++ .rightParen :: rest).length := by
    have h := length_le_separated (d := d) items
    rw [List.length_append]
    omega
  show (readItems (Condition.separatedTokens d items ++ .rightParen :: rest).length
    (Condition.separatedTokens d items ++ .rightParen :: rest)).map _ = _
  rw [readItems_separated hne hn]
  rfl

theorem readPredicate_tokens (t : Term) (h : NoDot ts) :
    readPredicate (t.tokens d ++ ts) = readTail (t.operand d) ts := by
  rw [readPredicate, readOperand_tokens t h]

/-- A term begins neither with a negation nor with a parenthesis. -/
theorem readClause_term (n : Nat) (t : Term) (ts : List Token) :
    readClause (n + 1) (t.tokens d ++ ts) = readPredicate (t.tokens d ++ ts) := by
  cases t with
  | column name =>
    obtain ⟨part, parts, hp⟩ := List.exists_cons_of_ne_nil (splitParts_ne_nil '.' name.toList)
    rw [Term.tokens, hp]
    cases parts <;> rfl
  | null => rfl
  | boolean b => cases d <;> cases b <;> rfl
  | integer n =>
    simp only [Term.tokens, Term.numberTokens]
    split <;> rfl
  | number negative m => cases negative <;> rfl
  | string s => rfl

/-! ## Chains -/

variable {item : Reader} {keyword : String} {join : Search → Search → Search}
  {c e : Search} {us : List Token}

/-- Whether tokens do not go on with a keyword. -/
def Stops (keyword : String) (ts : List Token) : Prop := ∀ us, ts ≠ .word keyword :: us

theorem readChain_of_stops (n : Nat) (h : Stops keyword ts) :
    readChain item keyword join n c ts = some (c, ts) := by
  unfold readChain
  split
  · rename_i w us
    rw [if_neg]
    rintro rfl
    exact h _ rfl
  · rfl

theorem readChain_word (n : Nat) (h : item us = some (e, ts)) :
    readChain item keyword join (n + 1) c (.word keyword :: us) =
      readChain item keyword join n (join c e) ts := by
  rw [readChain, if_pos rfl, h]

theorem readJoined_one (h : item ts = some (c, us)) (hs : Stops keyword us) :
    readJoined item keyword join ts = some (c, us) := by
  simp only [readJoined, h]
  exact readChain_of_stops _ hs

theorem readJoined_two (hl : ts ≠ []) (h : item ts = some (c, .word keyword :: us))
    (hr : item us = some (e, rest)) (hs : Stops keyword rest) :
    readJoined item keyword join ts = some (join c e, rest) := by
  obtain ⟨n, hn⟩ : ∃ n, ts.length = n + 1 :=
    ⟨ts.length - 1, by have := List.length_pos_iff.2 hl; omega⟩
  simp only [readJoined, h, hn]
  rw [readChain_word n hr]
  exact readChain_of_stops _ hs

theorem stops_rightParen (keyword : String) (ts : List Token) :
    Stops keyword (.rightParen :: ts) := by
  intro us h
  cases h

theorem stops_nil (keyword : String) : Stops keyword [] := by
  intro us h
  cases h

theorem stops_word {w : String} (h : w ≠ keyword) (ts : List Token) :
    Stops keyword (.word w :: ts) := by
  intro us hw
  obtain ⟨hw, -⟩ := List.cons_eq_cons.1 hw
  exact h (Token.word.inj hw)

/-- Three conditions joined by a keyword are joined from the left. -/
theorem readJoined_three {f : Search} {vs : List Token} (hl : 2 ≤ ts.length)
    (h : item ts = some (c, .word keyword :: us)) (h' : item us = some (e, .word keyword :: vs))
    (hr : item vs = some (f, rest)) (hs : Stops keyword rest) :
    readJoined item keyword join ts = some (join (join c e) f, rest) := by
  obtain ⟨n, hn⟩ : ∃ n, ts.length = n + 2 := ⟨ts.length - 2, by omega⟩
  simp only [readJoined, h, hn]
  rw [readChain_word (n + 1) h', readChain_word n hr]
  exact readChain_of_stops _ hs

/-! ## Clauses -/

theorem readClause_null (n : Nat) (t : Term) (rest : List Token) :
    readClause (n + 1) (Condition.nullTokens d t ++ rest) = some (.isNull (t.operand d), rest) := by
  rw [Condition.nullTokens, List.append_assoc, readClause_term,
    readPredicate_tokens t (by simp [NoDot])]
  rfl

theorem readClause_notNull (n : Nat) (t : Term) (rest : List Token) :
    readClause (n + 1) (t.tokens d ++ [.word "IS", .word "NOT", .word "NULL"] ++ rest) =
      some (.isNotNull (t.operand d), rest) := by
  rw [List.append_assoc, readClause_term, readPredicate_tokens t (by simp [NoDot])]
  rfl

theorem readClause_relation (n : Nat) (r : Relation) (t u : Term) (h : Ends rest) :
    readClause (n + 1) (t.tokens d ++ (.relation r :: u.tokens d ++ rest)) =
      some (.compare r (t.operand d) (u.operand d), rest) := by
  rw [readClause_term, readPredicate_tokens t (by simp [NoDot])]
  exact readTail_relation _ r u h

theorem readClause_list (n : Nat) (t : Term) {items : List Term} (hne : items ≠ [])
    (rest : List Token) :
    readClause (n + 1) (Condition.listTokens d t items ++ rest) =
      some (Condition.listSearch d t items, rest) := by
  have hs : Condition.listTokens d t items ++ rest = t.tokens d ++
      (.word "IN" :: .leftParen :: Condition.separatedTokens d items ++ .rightParen :: rest) := by
    simp [Condition.listTokens]
  rw [hs, readClause_term, readPredicate_tokens t (by simp [NoDot])]
  exact readTail_list _ hne rest

theorem readClause_constant (n : Nat) (b : Bool) (h : Ends rest) :
    readClause (n + 1) (Condition.constantTokens d b ++ rest) =
      some (Condition.constantSearch d b, rest) := by
  cases d with
  | sql => rfl
  | cql =>
    cases b with
    | true => exact readTail_boolean true h
    | false => exact readTail_boolean false h

/-- One clause as a whole conjunct. -/
theorem readJoined_and {n : Nat} (h : readClause n ts = some (c, us)) (hs : Stops "AND" us) :
    readJoined (readClause n) "AND" .and ts = some (c, us) := readJoined_one h hs

theorem readClause_parens {n : Nat}
    (h : readSearch (readClause n) ts = some (c, .rightParen :: rest)) :
    readClause (n + 1) (.leftParen :: ts) = some (c, rest) := by
  rw [readClause]
  simp only [h]

theorem readClause_oneOf (n : Nat) (t : Term) (items : List Term) (orBlank : Bool) (h : Ends rest) :
    readClause (n + 2) (Condition.oneOfTokens d t items orBlank ++ rest) =
      some (Condition.oneOfSearch d t items orBlank, rest) := by
  unfold Condition.oneOfTokens Condition.oneOfSearch
  cases orBlank with
  | false =>
    by_cases hi : items.isEmpty = true
    · simp only [hi, if_true, Bool.false_eq_true, if_false]
      exact readClause_constant (n + 1) false h
    · simp only [hi, Bool.false_eq_true, if_false]
      exact readClause_list (n + 1) t (by simpa using hi) rest
  | true =>
    -- the tests for blank values, in front of what follows them
    have hnull : ∀ us, readJoined (readClause (n + 1)) "AND" .and
        (Condition.nullTokens d t ++ .word "OR" :: us) =
          some (.isNull (t.operand d), .word "OR" :: us) := fun us =>
      readJoined_and (readClause_null n t _) (stops_word (by decide) us)
    have hempty : ∀ us, Ends us → Stops "AND" us → readJoined (readClause (n + 1)) "AND" .and
        (t.tokens d ++ (.relation .equal :: .text "" :: us)) =
          some (.compare .equal (t.operand d) (.constant (.text "")), us) := fun us he hs =>
      readJoined_and (readClause_relation n .equal t (.string "") he) hs
    by_cases hi : items.isEmpty = true
    · simp only [hi, if_true]
      have hs : .leftParen :: Condition.blankTokens d t ++ [.rightParen] ++ rest =
          .leftParen :: (Condition.nullTokens d t ++
            .word "OR" :: (t.tokens d ++ (.relation .equal :: .text "" :: .rightParen :: rest))) := by
        simp [Condition.blankTokens]
      rw [hs]
      exact readClause_parens (readJoined_two (by simp [Condition.nullTokens]) (hnull _)
        (hempty _ (.rightParen rest) (stops_rightParen _ _)) (stops_rightParen _ _))
    · simp only [hi, if_true, Bool.false_eq_true, if_false]
      have hs : .leftParen :: (Condition.blankTokens d t ++
          .word "OR" :: Condition.listTokens d t items) ++ [.rightParen] ++ rest =
          .leftParen :: (Condition.nullTokens d t ++
            .word "OR" :: (t.tokens d ++ (.relation .equal :: .text "" ::
              .word "OR" :: (Condition.listTokens d t items ++ .rightParen :: rest)))) := by
        simp [Condition.blankTokens]
      have hlist := readJoined_and (readClause_list (d := d) n t (by simpa using hi)
        (.rightParen :: rest)) (stops_rightParen "AND" rest)
      rw [hs]
      exact readClause_parens (readJoined_three (by simp [Condition.nullTokens]; omega) (hnull _)
        (hempty _ (.join .or _) (stops_word (by decide) _)) hlist (stops_rightParen _ _))

theorem readSearch_join (op : JoinOp) {n : Nat} (hl : ts ≠ [])
    (h : readClause n ts = some (c, .word op.keyword :: us))
    (hr : readClause n us = some (e, .rightParen :: rest)) :
    readSearch (readClause n) ts = some (Condition.joinSearch op c e, .rightParen :: rest) := by
  cases op with
  | and => exact readJoined_one (readJoined_two hl h hr (stops_rightParen _ _)) (stops_rightParen _ _)
  | or =>
    exact readJoined_two hl (readJoined_and h (stops_word (by decide) us))
      (readJoined_and hr (stops_rightParen _ _)) (stops_rightParen _ _)

theorem tokens_ne_nil_of_plain {c : Condition} (h : c.Plain) : c.tokens d ≠ [] := by
  cases c with
  | constant b => cases d <;> simp [Condition.tokens, Condition.constantTokens]
  | oneOf t items orBlank =>
    simp only [Condition.tokens, Condition.oneOfTokens]
    split
    · simp
    · split
      · cases d <;> simp [Condition.constantTokens]
      · simp [Condition.listTokens]
  | compare op left right =>
    rw [Condition.tokens, Condition.comparisonTokens_of_relation h.1]
    simp [tokens_ne_nil]
  | verbatim => exact absurd h id
  | _ => simp [Condition.tokens, Condition.nullTokens, tokens_ne_nil]

/-- A condition is read off its tokens, whatever ends it. -/
theorem readClause_tokens {c : Condition} (h : c.Plain) {n : Nat} (hn : (c.tokens d).length < n)
    (he : Ends rest) : readClause n (c.tokens d ++ rest) = some (c.search d, rest) := by
  induction c generalizing n rest with
  | constant b =>
    obtain ⟨n, rfl⟩ : ∃ k, n = k + 1 := ⟨n - 1, by omega⟩
    exact readClause_constant n b he
  | compare op left right =>
    obtain ⟨n, rfl⟩ : ∃ k, n = k + 1 := ⟨n - 1, by omega⟩
    obtain ⟨r, hr⟩ := Option.isSome_iff_exists.1 h.1
    have hs : (Condition.compare op left right).tokens d ++ rest =
        left.tokens d ++ (.relation r :: right.tokens d ++ rest) := by
      rw [Condition.tokens, Condition.comparisonTokens_of_relation h.1]
      simp [Condition.relationTokens, hr]
    rw [hs, readClause_relation n r left right he, Condition.search, hr]
    rfl
  | missing subject =>
    obtain ⟨n, rfl⟩ : ∃ k, n = k + 1 := ⟨n - 1, by omega⟩
    exact readClause_null n subject rest
  | present subject =>
    obtain ⟨n, rfl⟩ : ∃ k, n = k + 1 := ⟨n - 1, by omega⟩
    exact readClause_notNull n subject rest
  | oneOf subject items orBlank =>
    have hl := List.length_pos_iff.2 (tokens_ne_nil_of_plain (d := d) h)
    obtain ⟨n, rfl⟩ : ∃ k, n = k + 2 := ⟨n - 2, by omega⟩
    exact readClause_oneOf n subject items orBlank he
  | not inner ih =>
    simp only [Condition.tokens, List.length_cons] at hn
    obtain ⟨n, rfl⟩ : ∃ k, n = k + 1 := ⟨n - 1, by omega⟩
    show (readClause n (inner.tokens d ++ rest)).map _ = _
    rw [ih h (by omega) he]
    rfl
  | join op left right ihl ihr =>
    simp only [Condition.tokens, List.length_append, List.length_cons, List.length_nil] at hn
    obtain ⟨n, rfl⟩ : ∃ k, n = k + 1 := ⟨n - 1, by omega⟩
    have hs : (Condition.join op left right).tokens d ++ rest = .leftParen ::
        (left.tokens d ++ .word op.keyword :: (right.tokens d ++ .rightParen :: rest)) := by
      simp [Condition.tokens]
    have hl := ihl (n := n) h.1 (by omega) (.join op (right.tokens d ++ .rightParen :: rest))
    have hr := ihr (n := n) h.2 (by omega) (.rightParen rest)
    rw [hs]
    exact readClause_parens (readSearch_join op (by simp) hl hr)
  | verbatim => exact absurd h id

/-- The text of a condition is read as the search condition that it stands for. -/
theorem read_text {c : Condition} (h : c.Plain) (d : Dialect) :
    read (c.text d) = some (c.search d) := by
  have hc := readClause_tokens (d := d) h (Nat.lt_succ_self _) .nil
  rw [List.append_nil] at hc
  have hs : readSearch (readClause ((c.tokens d).length + 1)) (c.tokens d) =
      some (c.search d, []) :=
    readJoined_one (readJoined_and hc (stops_nil _)) (stops_nil _)
  simp only [read, scan_text h.uncast, hs]

end Sql

end RecordFilter
