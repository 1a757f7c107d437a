import RecordFilter.Proofs.Height
import RecordFilter.Proofs.Parsing
import RecordFilter.Proofs.Printing

/-!
# Reading printed trees

What becomes of a tree when its text is read again: an expressible tree comes back
where its numbers are finite and the printer's parentheses and the tree's height stay
within the limits.  Without a limit in the way the text is refused as too deep; a
number that is not finite is no token of the text.

    parse s = .ok p →
      (parse p.text = .ok p ↔ p.hasFiniteFloats ∧ p.printedNesting < nestingLimit)
                                                                        (parse_text_eq_ok_iff)
    p.text = q.text → p = q                                             (eq_of_text_eq)
-/

namespace RecordFilter

namespace Predicate

variable {p : Predicate}

theorem delivers_of_spelled_nil {s : String} {ts : List Token} (h : Spelled (s.toList ++ []) ts [])
    (hf : ∀ t ∈ ts, t.isFinite = true) :
    ∃ offset, Delivers (Lexer.ofString s).stream ts (.eof offset) := by
  obtain ⟨position, hd⟩ := delivers_of_spelled h hf 0
  rw [streamFrom_nil, List.append_nil] at hd
  exact ⟨position, hd⟩

/-- The lexer finds the tokens of the tree in its text. -/
theorem delivers_text (h : p.Expressible) (hf : p.hasFiniteFloats = true) :
    ∃ offset, Delivers (Lexer.ofString p.text).stream p.tokens (.eof offset) :=
  delivers_of_spelled_nil (spelled_text h .nil) ((isFinite_tokens h).2 hf)

theorem parse_text (h : p.Expressible) (hf : p.hasFiniteFloats = true)
    (hn : p.printedNesting < nestingLimit) (hh : p.height ≤ heightLimit) :
    parse p.text = .ok p := by
  obtain ⟨offset, hd⟩ := delivers_text h hf
  exact parse_of_delivers (derives_expression (derives_tokens h)) hd hn hh

theorem parse_text_tooDeep (h : p.Expressible) (hf : p.hasFiniteFloats = true)
    (hb : nestingLimit ≤ p.printedNesting ∨ heightLimit < p.height) :
    ∃ limit offset, parse p.text = .error (.tooDeep limit offset) := by
  obtain ⟨offset, hd⟩ := delivers_text h hf
  exact parse_tooDeep_of_delivers (derives_expression (derives_tokens h)) hd hb

theorem tokens_failed {s : TokenStream} {ts : List Token} {e : LexError}
    (h : Delivers s ts (.failed e)) : s.tokens = .error e := by
  generalize hr : TokenStream.failed e = rest at h
  induction h with
  | nil s =>
    subst hr
    rfl
  | cons _ ih =>
    rw [TokenStream.tokens, ih hr]
    rfl

/-- The text of a number that is not finite has no tokens at all. -/
theorem parse_text_of_infinite (h : p.Expressible) (hf : p.hasFiniteFloats = false)
    (q : Predicate) : parse p.text ≠ .ok q := by
  intro hq
  have hs := spelled_text h .nil
  rw [List.append_nil] at hs
  obtain ⟨us, e, hu⟩ := failed_of_spelled hs (by rw [isFinite_tokens h, hf]; decide) 0
  obtain ⟨ts, _, _, hd, _⟩ := derives_of_parse hq
  have he := hd.tokens_eq.symm.trans (tokens_failed hu)
  cases he

/-- Whatever is read from a text has the shape that can be printed, and is not too high. -/
theorem expressible_of_parse {s : String} (h : parse s = .ok p) :
    p.Expressible ∧ p.height ≤ heightLimit := by
  obtain ⟨ts, n, offset, hd, hp, -, hh⟩ := derives_of_parse h
  exact ⟨expressible_of_derives hp (isWord_of_delivers hd), hh⟩

/-! ## Under many negations -/

/-- A tree under `n` negations. -/
def negated : Nat → Predicate → Predicate
  | 0, p => p
  | n + 1, p => not (negated n p)

def negatedText : Nat → String → String
  | 0, s => s
  | n + 1, s => "not " ++ negatedText n s

theorem derives_negated {m : Nat} {ts : List Token} (h : Derives .clause m ts p) (n : Nat) :
    Derives .clause (m + n) (List.replicate n .not ++ ts) (negated n p) := by
  induction n with
  | zero => exact h
  | succ n ih => exact .not ih

theorem spelled_negated {ts : List Token} {s : String} {rest : List Char}
    (h : Spelled (s.toList ++ rest) ts rest) (n : Nat) :
    Spelled ((negatedText n s).toList ++ rest) (List.replicate n .not ++ ts) rest := by
  induction n with
  | zero => exact h
  | succ n ih =>
    rw [negatedText, String.toList_append, List.append_assoc]
    exact .word (t := .not) trivial (.space _) (.blank ih)

theorem height_negated (n : Nat) (p : Predicate) : (negated n p).height = p.height + n := by
  induction n with
  | zero => rfl
  | succ n ih => rw [negated, height_not, ih, Nat.add_assoc]

theorem printedNesting_negated (n : Nat) (p : Predicate) :
    (negated (n + 1) p).printedNesting = n + 1 + p.isJoin.toNat + p.printedNesting := by
  induction n with
  | zero =>
    simp only [negated, printedNesting]
    omega
  | succ n ih =>
    rw [negated, printedNesting, ih]
    show false.toNat + _ + 1 = _
    rw [Bool.toNat_false]
    omega

/-- `[a] = 1 & [b] = 2` -/
def deepLeft : Predicate :=
  .join .and (.compare .equal (.field "a") (.integer 1)) (.compare .equal (.field "b") (.integer 2))

/-- `[c] = 3` -/
def deepRight : Predicate := .compare .equal (.field "c") (.integer 3)

theorem expressible_deepLeft : deepLeft.Expressible :=
  .join .and (.compare .equal ⟨by decide, by decide⟩ trivial)
    (.compare .equal ⟨by decide, by decide⟩ trivial)

theorem expressible_deepRight : deepRight.Expressible :=
  .compare .equal ⟨by decide, by decide⟩ trivial

def deepTree : Predicate := negated 98 (.join .or deepLeft deepRight)

/-- As many negations as the parser takes in front of an alternative in parentheses.  The printer
puts the conjunction on its left in parentheses as well. -/
def deepText : String :=
  negatedText 98 (parenthesized (deepLeft.text ++ " | " ++ deepRight.text))

theorem expressible_negated (h : p.Expressible) (n : Nat) : (negated n p).Expressible := by
  induction n with
  | zero => exact h
  | succ n ih => exact .not ih

theorem height_deepTree : deepTree.height ≤ heightLimit := by
  rw [deepTree, height_negated, height_eq_levels]
  decide

theorem nestingLimit_le_deepTree : nestingLimit ≤ deepTree.printedNesting := by
  rw [deepTree, printedNesting_negated]
  decide

theorem spelled_alternative (rest : List Char) :
    Spelled ((deepLeft.text ++ " | " ++ deepRight.text).toList ++ ')' :: rest)
      (deepLeft.tokens ++ .join .or :: deepRight.tokens) (')' :: rest) := by
  have hor : " | " = " " ++ ((Token.join .or).spelling ++ " ") := by decide
  rw [hor, ← String.append_assoc, ← String.append_assoc]
  exact spelled_operator (.join .or) trivial (fun _ => spelled_text expressible_deepLeft)
    (spelled_text expressible_deepRight (.rightParen rest))

theorem parse_deepText : parse deepText = .ok deepTree := by
  have hp : Spelled ((parenthesized (deepLeft.text ++ " | " ++ deepRight.text)).toList ++ [])
      (.leftParen :: (deepLeft.tokens ++ .join .or :: deepRight.tokens) ++ [.rightParen]) [] := by
    rw [parenthesized_toList, List.append_nil]
    exact .leftParen ((spelled_alternative []).append (.word (t := .rightParen) trivial .nil (.nil [])))
  have hd : Derives .clause (1 + 98) _ deepTree :=
    derives_negated (.parens (.or (derives_expression (derives_tokens expressible_deepLeft))
      (.clause (derives_tokens expressible_deepRight)))) 98
  have hn : ∀ t ∈ List.replicate 98 Token.not, t.isFinite = true := by
    intro t ht
    rw [List.eq_of_mem_replicate ht]
    rfl
  obtain ⟨offset, hs⟩ := delivers_of_spelled_nil (spelled_negated hp 98)
    (List.forall_mem_append.2 ⟨hn, by decide⟩)
  rw [deepText]
  exact parse_of_delivers (.conjunction (.clause hd)) hs (by decide) height_deepTree

/-- A tree that was read survives being printed and read again exactly where its numbers are finite
and the parentheses of the printer stay within the limit of the parser. -/
theorem parse_text_eq_ok_iff {s : String} (h : parse s = .ok p) :
    parse p.text = .ok p ↔ p.hasFiniteFloats = true ∧ p.printedNesting < nestingLimit := by
  obtain ⟨he, hh⟩ := expressible_of_parse h
  constructor
  · intro hp
    by_cases hf : p.hasFiniteFloats = true
    · refine ⟨hf, ?_⟩
      by_contra hn
      obtain ⟨limit, offset, hd⟩ := parse_text_tooDeep he hf (.inl (Nat.le_of_not_lt hn))
      rw [hp] at hd
      cases hd
    · exact absurd hp (parse_text_of_infinite he (Bool.eq_false_iff.2 hf) p)
  · rintro ⟨hf, hn⟩
    exact parse_text he hf hn hh

/-- A condition comes back, the deep tree does not. -/
theorem parse_text_deepTree_ne :
    parse deepRight.text = .ok deepRight ∧ parse deepText = .ok deepTree ∧
      parse deepTree.text ≠ .ok deepTree := by
  have h : parse deepRight.text = .ok deepRight :=
    parse_text expressible_deepRight (by decide) (by decide) (by
      rw [height]
      simp [heightFrom, operands, deepRight, heightLimit])
  refine ⟨(parse_text_eq_ok_iff h).2 ⟨by decide, by decide⟩, parse_deepText, fun hp => ?_⟩
  exact absurd ((parse_text_eq_ok_iff parse_deepText).1 hp).2 (Nat.not_lt.2 nestingLimit_le_deepTree)

/-! ## Texts determine trees -/

/-- The tokens of a text are those of the tree that was printed. -/
theorem tokenize_text (h : p.Expressible) (hf : p.hasFiniteFloats = true) :
    tokenize p.text = .ok (p.tokens ++ [.eof]) := by
  obtain ⟨offset, hd⟩ := delivers_text h hf
  exact hd.tokens_eq

/-- The printed tokens derive their tree and no other, and only as deep as the printer nests them. -/
theorem derives_tokens_iff (h : p.Expressible) {n : Nat} {q : Predicate} :
    Derives .expression n p.tokens q ↔ n = p.printedNesting ∧ q = p := by
  have hp : Derives .expression p.printedNesting p.tokens p := derives_expression (derives_tokens h)
  constructor
  · intro hq
    exact derives_unique hq hp
  · rintro ⟨rfl, rfl⟩
    exact hp

/-- No two trees have the same text, however deep they are. -/
theorem eq_of_text_eq {q : Predicate} (hp : p.Expressible) (hpf : p.hasFiniteFloats = true)
    (hq : q.Expressible) (hqf : q.hasFiniteFloats = true) (ht : q.text = p.text) : q = p := by
  have htokens : q.tokens ++ [.eof] = p.tokens ++ [.eof] := by
    have hok := tokenize_text hq hqf
    rw [ht, tokenize_text hp hpf] at hok
    exact (Except.ok.inj hok).symm
  have hd : Derives .expression q.printedNesting q.tokens q := derives_expression (derives_tokens hq)
  rw [List.append_cancel_right htokens] at hd
  exact ((derives_tokens_iff hp).1 hd).2

/-- **What printing keeps.**  The text of an expressible tree with finite numbers has one derivation,
that of the tree.  It is read as this tree if no clause of it lies under as many parentheses and
negations as the nesting limit and the tree is not too high; otherwise it is refused as too deep.  No
other tree has this text. -/
theorem parse_text_of_expressible (h : p.Expressible) (hf : p.hasFiniteFloats = true) :
    tokenize p.text = .ok (p.tokens ++ [.eof]) ∧
      (∀ n q, Derives .expression n p.tokens q ↔ n = p.printedNesting ∧ q = p) ∧
      (p.printedNesting < nestingLimit ∧ p.height ≤ heightLimit → parse p.text = .ok p) ∧
      (¬(p.printedNesting < nestingLimit ∧ p.height ≤ heightLimit) →
        ∃ limit offset, parse p.text = .error (.tooDeep limit offset)) ∧
      ∀ q : Predicate, q.Expressible → q.hasFiniteFloats = true → q.text = p.text → q = p := by
  refine ⟨tokenize_text h hf, fun n q => derives_tokens_iff h, ?_, ?_, ?_⟩
  · rintro ⟨hn, hh⟩
    exact parse_text h hf hn hh
  · intro hb
    have hlimit : nestingLimit ≤ p.printedNesting ∨ heightLimit < p.height := by omega
    exact parse_text_tooDeep h hf hlimit
  · intro q hq hqf ht
    exact eq_of_text_eq h hf hq hqf ht

def half : Magnitude where
  significand := 0x10000000000000
  shift := 1021
  significand_lt := Nat.le_of_ble_eq_true rfl
  shift_le := Nat.le_of_ble_eq_true rfl
  normal := .inr (Nat.le_refl _)

/-- `not ([a] = -0.5 | 'it''s' in ({x:1}, null))` -/
def quotedTree : Predicate :=
  .not (.join .or (.compare .equal (.field "a") (.float (.finite true half)))
    (.isIn (.string "it's") (.list [.var "x:1", .null])))

theorem expressible_quotedTree : quotedTree.Expressible :=
  .not (.join .or (.compare .equal ⟨by decide, by decide⟩ trivial)
    (.isIn trivial (by simp) (List.forall_mem_cons.2
      ⟨⟨by decide, by decide, by decide⟩, List.forall_mem_singleton.2 trivial⟩)))

/-- A tree whose text needs parentheses, a doubled quote, a sign and a point. -/
theorem parse_text_quotedTree :
    quotedTree.Expressible ∧ quotedTree.hasFiniteFloats = true ∧
      quotedTree.text = "not ([a] = -0.5 | 'it''s' in (\x7bx:1\x7d, null))" ∧
      parse quotedTree.text = .ok quotedTree := by
  obtain ⟨-, -, hok, -, -⟩ := parse_text_of_expressible expressible_quotedTree (by decide)
  refine ⟨expressible_quotedTree, by decide, by decide +kernel, hok ⟨by decide, ?_⟩⟩
  rw [height]
  simp [heightFrom, operands, quotedTree, heightLimit]

end Predicate

end RecordFilter
