import RecordFilter.Predicate.Printer
import RecordFilter.Proofs.Token.Spelled

/-!
# Printed trees

What the expression language can say is a matter of the shape of a tree:
`Expressible` is this shape.  The text of such a tree is its tokens spelled out, and
the tokens derive the tree, nested as deep as the printer's parentheses make them.

    p.Expressible → Spelled (p.text.toList ++ rest) p.tokens rest          (spelled_text)
    p.Expressible → Derives p.category p.printedNesting p.tokens p        (derives_tokens)
    Derives c n ts p → p.Expressible                                (expressible_of_derives)
-/

namespace RecordFilter

namespace Predicate

/-! ## Shapes -/

/-- The token of an operand; trees that are no operands have none and get the end. -/
def token : Predicate → Token
  | field name => .field name
  | var raw => .var raw
  | string s => .string s
  | integer n => .integer n
  | float x => .float x
  | boolean b => .boolean b
  | null => .null
  | _ => .eof

/-- A leaf of the expression language; names are such that they can stand in brackets. -/
def IsOperand (p : Predicate) : Prop := p.token.IsWord

/-- The trees that an expression can say. -/
inductive Expressible : Predicate → Prop
  | boolean (b : Bool) : Expressible (.boolean b)
  | compare (op : CompareOp) {left right : Predicate} :
      left.IsOperand → right.IsOperand → Expressible (.compare op left right)
  | isIn {left : Predicate} {items : List Predicate} :
      left.IsOperand → items ≠ [] → (∀ p ∈ items, p.IsOperand) →
      Expressible (.isIn left (.list items))
  | not {inner : Predicate} : Expressible inner → Expressible (.not inner)
  | join (op : JoinOp) {left right : Predicate} :
      Expressible left → Expressible right → Expressible (.join op left right)

mutual

/-- Whether all numbers of a tree are finite. -/
def hasFiniteFloats : Predicate → Bool
  | float x => x.isFinite
  | list items => allFiniteFloats items
  | compare _ left right => left.hasFiniteFloats && right.hasFiniteFloats
  | isIn left candidates => left.hasFiniteFloats && candidates.hasFiniteFloats
  | not inner => inner.hasFiniteFloats
  | join _ left right => left.hasFiniteFloats && right.hasFiniteFloats
  | spatial _ left right => left.hasFiniteFloats && right.hasFiniteFloats
  | _ => true

def allFiniteFloats : List Predicate → Bool
  | [] => true
  | p :: ps => p.hasFiniteFloats && allFiniteFloats ps

end

theorem expressible_compare_iff {op : CompareOp} {left right : Predicate} :
    (compare op left right).Expressible ↔ left.IsOperand ∧ right.IsOperand := by
  constructor
  · rintro (_ | ⟨_, hl, hr⟩)
    exact ⟨hl, hr⟩
  · rintro ⟨hl, hr⟩
    exact .compare op hl hr

theorem expressible_isIn_iff {left : Predicate} {items : List Predicate} :
    (isIn left (.list items)).Expressible ↔
      left.IsOperand ∧ items ≠ [] ∧ ∀ p ∈ items, p.IsOperand := by
  constructor
  · rintro (_ | _ | ⟨hl, hne, hi⟩)
    exact ⟨hl, hne, hi⟩
  · rintro ⟨hl, hne, hi⟩
    exact .isIn hl hne hi

theorem expressible_not_iff {inner : Predicate} :
    (not inner).Expressible ↔ inner.Expressible := by
  constructor
  · rintro (_ | _ | _ | h)
    exact h
  · exact .not

theorem expressible_join_iff {op : JoinOp} {left right : Predicate} :
    (join op left right).Expressible ↔ left.Expressible ∧ right.Expressible := by
  constructor
  · rintro (_ | _ | _ | _ | ⟨_, hl, hr⟩)
    exact ⟨hl, hr⟩
  · rintro ⟨hl, hr⟩
    exact .join op hl hr

theorem derivesOperand_token {p : Predicate} (h : p.IsOperand) : DerivesOperand p.token p := by
  cases p with
  | field | var | string | integer | float | boolean | null => constructor
  | _ => exact absurd h id

theorem token_of_derivesOperand {t : Token} {p : Predicate} (h : DerivesOperand t p) :
    p.token = t := by
  cases h <;> rfl

theorem isOperand_of_derivesOperand {t : Token} {p : Predicate} (h : DerivesOperand t p)
    (ht : t.IsWord) : p.IsOperand := by
  rw [IsOperand, token_of_derivesOperand h]
  exact ht

theorem isFinite_token {p : Predicate} (h : p.IsOperand) :
    p.token.isFinite = p.hasFiniteFloats := by
  cases p with
  | field | var | string | integer | float | boolean | null => rfl
  | _ => exact absurd h id

/-! ## Printed tokens -/

/-- Tokens with commas between them. -/
def separated : List Token → List Token
  | [] => []
  | [t] => [t]
  | t :: ts => t :: .comma :: separated ts

/-- Tokens in parentheses, where they are asked for. -/
def wrap (parens : Bool) (ts : List Token) : List Token :=
  if parens then .leftParen :: ts ++ [.rightParen] else ts

/-- The tokens of the text of an expressible tree. -/
def tokens : Predicate → List Token
  | boolean b => [.boolean b]
  | compare op left right => [left.token, .comparison op, right.token]
  | isIn left candidates =>
    left.token :: .isIn :: .leftParen ::
      separated (candidates.operands.map token) ++ [.rightParen]
  | not inner => .not :: wrap inner.isJoin inner.tokens
  | join op left right =>
    wrap (left.isJoinOtherThan op) left.tokens ++ .join op :: wrap right.isJoin right.tokens
  | _ => []

/-- The largest number of parentheses and `not`s above a clause of the text of a tree. -/
def printedNesting : Predicate → Nat
  | not inner => inner.isJoin.toNat + inner.printedNesting + 1
  | join op left right =>
    max ((left.isJoinOtherThan op).toNat + left.printedNesting)
      (right.isJoin.toNat + right.printedNesting)
  | _ => 0

/-- The part of the grammar that the text of a tree belongs to without further parentheses. -/
def category : Predicate → Category
  | join .or _ _ => .expression
  | join .and _ _ => .conjunction
  | _ => .clause

/-! ## Derivations -/

theorem derivesItems_separated {items : List Predicate} (hne : items ≠ [])
    (h : ∀ p ∈ items, p.IsOperand) : DerivesItems (separated (items.map token)) items := by
  induction items with
  | nil => exact absurd rfl hne
  | cons p ps ih =>
    obtain ⟨hp, hps⟩ := List.forall_mem_cons.1 h
    cases ps with
    | nil => exact .one (derivesOperand_token hp)
    | cons q qs => exact .more (derivesOperand_token hp) (ih (by simp) hps)

variable {n : Nat} {ts : List Token} {p : Predicate}

theorem derives_expression (h : Derives p.category n ts p) : Derives .expression n ts p := by
  cases hc : p.category with
  | expression => exact hc ▸ h
  | conjunction => exact .conjunction (hc ▸ h)
  | clause => exact .conjunction (.clause (hc ▸ h))

/-- A tree is a clause once its connective is put in parentheses. -/
theorem derives_wrap_isJoin (h : Derives p.category n ts p) :
    Derives .clause (p.isJoin.toNat + n) (wrap p.isJoin ts) p := by
  cases hj : p.isJoin with
  | true =>
    rw [show true.toNat + n = n + 1 from Nat.add_comm 1 n]
    exact .parens (derives_expression h)
  | false =>
    rw [show false.toNat + n = n from Nat.zero_add n]
    cases p with
    | join => cases hj
    | _ => exact h

/-- Of the connectives, `&` may stand on the left of `&`. -/
theorem derives_wrap_and (h : Derives p.category n ts p) :
    Derives .conjunction ((p.isJoinOtherThan .and).toNat + n) (wrap (p.isJoinOtherThan .and) ts)
      p := by
  cases p with
  | join op left right =>
    cases op with
    | and =>
      rw [show (isJoinOtherThan .and (join .and left right)).toNat + n = n from Nat.zero_add n]
      exact h
    | or => exact .clause (derives_wrap_isJoin h)
  | _ => exact .clause (derives_wrap_isJoin h)

/-- The printer puts `&` in parentheses on the left of `|`, where the grammar does not ask for it. -/
theorem derives_wrap_or (h : Derives p.category n ts p) :
    Derives .expression ((p.isJoinOtherThan .or).toNat + n) (wrap (p.isJoinOtherThan .or) ts)
      p := by
  cases p with
  | join op left right =>
    cases op with
    | and => exact .conjunction (.clause (derives_wrap_isJoin h))
    | or =>
      rw [show (isJoinOtherThan .or (join .or left right)).toNat + n = n from Nat.zero_add n]
      exact h
  | _ => exact .conjunction (.clause (derives_wrap_isJoin h))

/-- The printed tokens of an expressible tree derive it. -/
theorem derives_tokens (h : p.Expressible) :
    Derives p.category p.printedNesting p.tokens p := by
  induction h with
  | boolean b => exact .condition (.boolean b)
  | compare op hl hr =>
    exact .condition (.compare op (derivesOperand_token hl) (derivesOperand_token hr))
  | isIn hl hne hi =>
    exact .condition (.inList (derivesOperand_token hl) (derivesItems_separated hne hi))
  | not _ ih => exact .not (derives_wrap_isJoin ih)
  | join op _ _ ihl ihr =>
    have hr := derives_wrap_isJoin ihr
    cases op with
    | and => exact .and (derives_wrap_and ihl) hr
    | or => exact .or (derives_wrap_or ihl) (.clause hr)

/-! ## Shapes of derived trees -/

theorem isOperand_of_derivesItems {ps : List Predicate} (h : DerivesItems ts ps)
    (hw : ∀ t ∈ ts, t.IsWord) : ps ≠ [] ∧ ∀ p ∈ ps, p.IsOperand := by
  induction h with
  | one ht =>
    exact ⟨by simp, by simpa using isOperand_of_derivesOperand ht (by simpa using hw)⟩
  | more ht _ ih =>
    obtain ⟨hw, -, hws⟩ : _ ∧ _ ∧ _ := by simpa only [List.forall_mem_cons] using hw
    exact ⟨by simp, List.forall_mem_cons.2 ⟨isOperand_of_derivesOperand ht hw, (ih hws).2⟩⟩

theorem expressible_of_derivesCondition (h : DerivesCondition ts p) (hw : ∀ t ∈ ts, t.IsWord) :
    p.Expressible := by
  cases h with
  | boolean b => exact .boolean b
  | compare op ht hu =>
    exact .compare op (isOperand_of_derivesOperand ht (hw _ (by simp)))
      (isOperand_of_derivesOperand hu (hw _ (by simp)))
  | inOperand ht hu =>
    refine .isIn (isOperand_of_derivesOperand ht (hw _ (by simp))) (by simp) ?_
    simpa using isOperand_of_derivesOperand hu (hw _ (by simp))
  | inList ht hus =>
    obtain ⟨hne, hi⟩ := isOperand_of_derivesItems hus fun t ht => hw t (by simp [ht])
    exact .isIn (isOperand_of_derivesOperand ht (hw _ (by simp))) hne hi

/-- Whatever the parser builds from the tokens of a text can be said again. -/
theorem expressible_of_derives {c : Category} (h : Derives c n ts p)
    (hw : ∀ t ∈ ts, t.IsWord) : p.Expressible := by
  induction h with
  | condition hc => exact expressible_of_derivesCondition hc hw
  | not _ ih => exact .not (ih fun t ht => hw t (List.mem_cons_of_mem _ ht))
  | parens _ ih => exact ih fun t ht => hw t (by simp [ht])
  | clause _ ih => exact ih hw
  | conjunction _ ih => exact ih hw
  | and _ _ ihl ihr =>
    exact .join .and (ihl fun t ht => hw t (by simp [ht])) (ihr fun t ht => hw t (by simp [ht]))
  | or _ _ ihl ihr =>
    exact .join .or (ihl fun t ht => hw t (by simp [ht])) (ihr fun t ht => hw t (by simp [ht]))

/-! ## Spelled texts -/

variable {rest : List Char}

theorem text_eq_spelling (h : p.IsOperand) : p.text = p.token.spelling := by
  cases p with
  | field | var | string | integer | float | boolean | null => simp only [text]; rfl
  | _ => exact absurd h id

theorem spelled_operand (h : p.IsOperand) (hr : Delimited rest) :
    Spelled (p.text.toList ++ rest) [p.token] rest := by
  rw [text_eq_spelling h]
  exact .word h hr (.nil rest)

theorem spelled_items {items : List Predicate} (h : ∀ p ∈ items, p.IsOperand)
    (hr : Delimited rest) :
    Spelled ((", ".intercalate (texts items)).toList ++ rest) (separated (items.map token)) rest := by
  induction items with
  | nil => exact .nil rest
  | cons p ps ih =>
    obtain ⟨hp, hps⟩ := List.forall_mem_cons.1 h
    cases ps with
    | nil =>
      simp only [texts, String.intercalate_singleton]
      exact spelled_operand hp hr
    | cons q qs =>
      have hi := ih hps
      simp only [texts, String.intercalate_cons_cons, String.toList_append, List.append_assoc]
        at hi ⊢
      exact (spelled_operand hp (.comma _)).append (.word (t := .comma) trivial (.space _) (.blank hi))

theorem parenthesized_toList (s : String) :
    (parenthesized s).toList = '(' :: (s.toList ++ [')']) := by
  rw [parenthesized, String.toList_append, String.toList_append]
  rfl

/-- In parentheses or not, a text is delimited as it was. -/
theorem spelled_wrap {s : String} (h : ∀ rest, Delimited rest → Spelled (s.toList ++ rest) ts rest)
    (parens : Bool) (hr : Delimited rest) :
    Spelled ((if parens = true then parenthesized s else s).toList ++ rest) (wrap parens ts)
      rest := by
  cases parens with
  | false => exact h rest hr
  | true =>
    rw [if_pos rfl, parenthesized_toList]
    simp only [List.cons_append, List.append_assoc]
    exact .leftParen ((h _ (.rightParen rest)).append (.word (t := .rightParen) trivial hr (.nil rest)))

theorem spelled_operator {left right : String} {us : List Token} (t : Token) (ht : t.IsWord)
    (hl : ∀ rest, Delimited rest → Spelled (left.toList ++ rest) ts rest)
    (hr : Spelled (right.toList ++ rest) us rest) :
    Spelled ((left ++ " " ++ t.spelling ++ " " ++ right).toList ++ rest) (ts ++ t :: us) rest := by
  simp only [String.toList_append, List.append_assoc]
  exact (hl _ (.space _)).append (.blank (.word ht (.space _) (.blank hr)))

/-- The text of an expressible tree is its tokens spelled out. -/
theorem spelled_text (h : p.Expressible) (hr : Delimited rest) :
    Spelled (p.text.toList ++ rest) p.tokens rest := by
  induction h generalizing rest with
  | boolean b =>
    rw [text]
    exact .word (t := .boolean b) trivial hr (.nil rest)
  | compare op hl hrt =>
    rw [text]
    exact spelled_operator (.comparison op) trivial (fun _ => spelled_operand hl)
      (spelled_operand hrt hr)
  | @isIn left items hl hne hi =>
    have hin : " in " = " " ++ (Token.isIn.spelling ++ " ") := by decide
    rw [text, text, hin, ← String.append_assoc, ← String.append_assoc]
    exact spelled_operator .isIn trivial (fun _ => spelled_operand hl)
      (spelled_wrap (fun _ => spelled_items hi) true hr)
  | not _ ih =>
    rw [text, String.toList_append, List.append_assoc]
    exact .word (t := .not) trivial (.space _) (.blank (spelled_wrap (fun _ => ih) _ hr))
  | join op _ _ ihl ihr =>
    rw [text]
    exact spelled_operator (.join op) trivial (fun _ => spelled_wrap (fun _ => ihl) _)
      (spelled_wrap (fun _ => ihr) _ hr)

/-! ## Finite numbers -/

theorem allFiniteFloats_iff (ps : List Predicate) :
    allFiniteFloats ps = true ↔ ∀ p ∈ ps, p.hasFiniteFloats = true := by
  induction ps with
  | nil => simp [allFiniteFloats]
  | cons p ps ih => rw [allFiniteFloats, Bool.and_eq_true, ih, List.forall_mem_cons]

theorem isFinite_wrap (parens : Bool) :
    (∀ t ∈ wrap parens ts, t.isFinite = true) ↔ ∀ t ∈ ts, t.isFinite = true := by
  cases parens with
  | false => exact Iff.rfl
  | true =>
    rw [wrap, if_pos rfl, List.forall_mem_append, List.forall_mem_cons]
    simp

theorem isFinite_separated {items : List Predicate} (h : ∀ p ∈ items, p.IsOperand) :
    (∀ t ∈ separated (items.map token), t.isFinite = true) ↔
      ∀ p ∈ items, p.hasFiniteFloats = true := by
  induction items with
  | nil => simp [separated]
  | cons p ps ih =>
    obtain ⟨hp, hps⟩ := List.forall_mem_cons.1 h
    have hi := ih hps
    cases ps with
    | nil => simp [separated, isFinite_token hp]
    | cons q qs =>
      simp only [List.map_cons, separated, List.forall_mem_cons] at hi ⊢
      rw [hi, isFinite_token hp]
      simp

/-- The tokens of an expressible tree are finite where its numbers are. -/
theorem isFinite_tokens (h : p.Expressible) :
    (∀ t ∈ p.tokens, t.isFinite = true) ↔ p.hasFiniteFloats = true := by
  induction h with
  | boolean b => simp [tokens, hasFiniteFloats]
  | compare op hl hr =>
    simp [tokens, hasFiniteFloats, isFinite_token hl, isFinite_token hr]
  | isIn hl hne hi =>
    have hs := isFinite_separated hi
    simp only [tokens, operands, hasFiniteFloats, Bool.and_eq_true, allFiniteFloats_iff, ← hs,
      List.forall_mem_cons, List.forall_mem_append, List.cons_append, isFinite_token hl]
    simp
  | not _ ih =>
    rw [tokens, List.forall_mem_cons, isFinite_wrap, ih, hasFiniteFloats]
    simp
  | join op _ _ ihl ihr =>
    rw [tokens, List.forall_mem_append, List.forall_mem_cons, isFinite_wrap, isFinite_wrap, ihl,
      ihr, hasFiniteFloats, Bool.and_eq_true]
    simp

end Predicate

end RecordFilter
