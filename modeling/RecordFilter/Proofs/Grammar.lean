import RecordFilter.Predicate.Parser

/-!
# The grammar of expressions

The grammar as a relation between the tokens of an expression and its tree, said
without the parser.  `Derives` counts how deep a derivation is nested: `n` is the
largest number of open parentheses and `not`s above one of its clauses.

    expression  := conjunction | expression '|' conjunction
    conjunction := clause | conjunction '&' clause
    clause      := condition | 'not' clause | '(' expression ')'
    condition   := boolean | operand comparison operand
                 | operand 'in' operand | operand 'in' '(' operand { ',' operand } ')'
-/

namespace RecordFilter

/-- An operand is one token. -/
inductive DerivesOperand : Token → Predicate → Prop
  | field (name : String) : DerivesOperand (.field name) (.field name)
  | var (raw : String) : DerivesOperand (.var raw) (.var raw)
  | string (s : String) : DerivesOperand (.string s) (.string s)
  | integer (n : Int64) : DerivesOperand (.integer n) (.integer n)
  | float (x : Binary64) : DerivesOperand (.float x) (.float x)
  | boolean (b : Bool) : DerivesOperand (.boolean b) (.boolean b)
  | null : DerivesOperand .null .null

/-- One operand or more, with commas between them. -/
inductive DerivesItems : List Token → List Predicate → Prop
  | one {t : Token} {p : Predicate} : DerivesOperand t p → DerivesItems [t] [p]
  | more {t : Token} {p : Predicate} {ts : List Token} {ps : List Predicate} :
      DerivesOperand t p → DerivesItems ts ps → DerivesItems (t :: .comma :: ts) (p :: ps)

/-- A boolean, a comparison or a membership; one operand behind `in` is a list of itself. -/
inductive DerivesCondition : List Token → Predicate → Prop
  | boolean (b : Bool) : DerivesCondition [.boolean b] (.boolean b)
  | compare {t u : Token} {p q : Predicate} (op : CompareOp) :
      DerivesOperand t p → DerivesOperand u q →
      DerivesCondition [t, .comparison op, u] (.compare op p q)
  | inOperand {t u : Token} {p q : Predicate} :
      DerivesOperand t p → DerivesOperand u q →
      DerivesCondition [t, .isIn, u] (.isIn p (.list [q]))
  | inList {t : Token} {p : Predicate} {us : List Token} {qs : List Predicate} :
      DerivesOperand t p → DerivesItems us qs →
      DerivesCondition (t :: .isIn :: .leftParen :: us ++ [.rightParen]) (.isIn p (.list qs))

/-- The parts of the grammar that nest in each other. -/
inductive Category
  | expression
  | conjunction
  | clause

/-- `Derives c n ts p`: the tokens `ts` have a derivation from `c` whose tree is `p` and whose
deepest clause lies under `n` open parentheses and `not`s. -/
inductive Derives : Category → Nat → List Token → Predicate → Prop
  | condition {ts : List Token} {p : Predicate} :
      DerivesCondition ts p → Derives .clause 0 ts p
  | not {n : Nat} {ts : List Token} {p : Predicate} :
      Derives .clause n ts p → Derives .clause (n + 1) (.not :: ts) (.not p)
  | parens {n : Nat} {ts : List Token} {p : Predicate} :
      Derives .expression n ts p →
      Derives .clause (n + 1) (.leftParen :: ts ++ [.rightParen]) p
  | clause {n : Nat} {ts : List Token} {p : Predicate} :
      Derives .clause n ts p → Derives .conjunction n ts p
  | and {m n : Nat} {ts us : List Token} {p q : Predicate} :
      Derives .conjunction m ts p → Derives .clause n us q →
      Derives .conjunction (max m n) (ts ++ .join .and :: us) (.join .and p q)
  | conjunction {n : Nat} {ts : List Token} {p : Predicate} :
      Derives .conjunction n ts p → Derives .expression n ts p
  | or {m n : Nat} {ts us : List Token} {p q : Predicate} :
      Derives .expression m ts p → Derives .conjunction n us q →
      Derives .expression (max m n) (ts ++ .join .or :: us) (.join .or p q)

/-! ## Streams that begin with given tokens -/

/-- `Delivers s ts rest`: the stream `s` delivers the tokens `ts`, and then what `rest` delivers. -/
inductive Delivers : TokenStream → List Token → TokenStream → Prop
  | nil (s : TokenStream) : Delivers s [] s
  | cons {t : Token} {offset : Nat} {s rest : TokenStream} {ts : List Token} :
      Delivers s ts rest → Delivers (.token t offset s) (t :: ts) rest

namespace Delivers

theorem append {s mid rest : TokenStream} {ts us : List Token} (h : Delivers s ts mid)
    (h' : Delivers mid us rest) : Delivers s (ts ++ us) rest := by
  induction h with
  | nil s => exact h'
  | cons _ ih => exact .cons (ih h')

theorem one (t : Token) (offset : Nat) (rest : TokenStream) :
    Delivers (.token t offset rest) [t] rest := .cons (.nil rest)

theorem split {s rest : TokenStream} {ts us : List Token} (h : Delivers s (ts ++ us) rest) :
    ∃ mid, Delivers s ts mid ∧ Delivers mid us rest := by
  induction ts generalizing s with
  | nil => exact ⟨s, .nil s, h⟩
  | cons t ts ih =>
    cases h with
    | cons h =>
      obtain ⟨mid, h1, h2⟩ := ih h
      exact ⟨mid, .cons h1, h2⟩

theorem uncons {t : Token} {s rest : TokenStream} {ts : List Token}
    (h : Delivers s (t :: ts) rest) : ∃ mid, Delivers s [t] mid ∧ Delivers mid ts rest := by
  cases h with
  | cons h => exact ⟨_, .one _ _ _, h⟩

/-- Some stream delivers given tokens and then the end of the text. -/
theorem exists_stream (ts : List Token) : ∃ s, Delivers s ts (.eof 0) := by
  induction ts with
  | nil => exact ⟨.eof 0, .nil _⟩
  | cons t ts ih =>
    obtain ⟨s, hs⟩ := ih
    exact ⟨.token t 0 s, .cons hs⟩

/-- A stream that delivers some tokens up to the end of the text has just these tokens. -/
theorem tokens_eq {s : TokenStream} {ts : List Token} {offset : Nat}
    (h : Delivers s ts (.eof offset)) : s.tokens = .ok (ts ++ [.eof]) := by
  generalize hr : TokenStream.eof offset = rest at h
  induction h with
  | nil s => subst hr; rfl
  | cons _ ih => rw [TokenStream.tokens, ih hr]; rfl

theorem of_tokens_eq {s : TokenStream} {ts : List Token} (h : s.tokens = .ok (ts ++ [.eof])) :
    ∃ offset, Delivers s ts (.eof offset) := by
  induction s generalizing ts with
  | eof offset =>
    simp only [TokenStream.tokens, Except.ok.injEq] at h
    cases ts with
    | nil => exact ⟨offset, .nil _⟩
    | cons t ts => simp at h
  | failed e => simp [TokenStream.tokens] at h
  | token t o s ih =>
    rw [TokenStream.tokens] at h
    cases hs : s.tokens with
    | error e => rw [hs] at h; cases h
    | ok us =>
      rw [hs] at h
      have hl : t :: us = ts ++ [.eof] := Except.ok.inj h
      cases ts with
      | nil =>
        -- no stream is without tokens, for its end is one
        obtain ⟨_, rfl⟩ := List.cons_eq_cons.1 hl
        cases s with
        | eof _ => simp [TokenStream.tokens] at hs
        | failed _ => simp [TokenStream.tokens] at hs
        | token t' _ s' =>
          rw [TokenStream.tokens] at hs
          cases hs' : s'.tokens <;> rw [hs'] at hs <;> simp [Except.map] at hs
      | cons t' ts =>
        obtain ⟨rfl, rfl⟩ := List.cons_eq_cons.1 hl
        obtain ⟨offset, hd⟩ := ih hs
        exact ⟨offset, .cons hd⟩

end Delivers

end RecordFilter
