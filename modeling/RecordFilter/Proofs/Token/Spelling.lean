import RecordFilter.Proofs.Grammar
import RecordFilter.Proofs.Number.Text

/-!
# Spelling tokens

The spelling of a token is what a printed expression holds for it.  Where a
spelling is followed by a blank, a comma, a closing parenthesis or the end, the
lexer takes exactly the spelling off the text and reads the token back.  A number
that is not finite is the one exception: its spelling is no token at all.

    scanFront start (t.spelling.toList ++ rest) =
      .token t ⟨t.spelling.toList, _, rest⟩                      (scanFront_spelling)
-/

namespace RecordFilter

namespace Token

/-- How a printed expression spells a token. -/
def spelling : Token → String
  | float x => Predicate.floatLiteral x
  | t => t.text

/-- A token that a text can hold: names have the characters that their brackets allow, and the end
is no part of a text. -/
def IsWord : Token → Prop
  | field name => name ≠ "" ∧ ']' ∉ name.toList
  | var raw => raw ≠ "" ∧ '{' ∉ raw.toList ∧ '}' ∉ raw.toList
  | eof => False
  | _ => True

/-- Whether a number is finite, and true of all other tokens. -/
def isFinite : Token → Bool
  | float x => x.isFinite
  | _ => true

@[simp] theorem isFinite_boolean (b : Bool) : (boolean b).isFinite = true := rfl

@[simp] theorem isFinite_comparison (op : CompareOp) : (comparison op).isFinite = true := rfl

@[simp] theorem isFinite_isIn : isIn.isFinite = true := rfl

@[simp] theorem isFinite_not : not.isFinite = true := rfl

@[simp] theorem isFinite_join (op : JoinOp) : (join op).isFinite = true := rfl

@[simp] theorem isFinite_leftParen : leftParen.isFinite = true := rfl

@[simp] theorem isFinite_rightParen : rightParen.isFinite = true := rfl

@[simp] theorem isFinite_comma : comma.isFinite = true := rfl

end Token

/-- What may follow the spelling of a token. -/
inductive Delimited : List Char → Prop
  | nil : Delimited []
  | space (cs : List Char) : Delimited (' ' :: cs)
  | rightParen (cs : List Char) : Delimited (')' :: cs)
  | comma (cs : List Char) : Delimited (',' :: cs)

theorem Delimited.not_head {rest : List Char} (h : Delimited rest) {c : Char} {cs : List Char}
    (hr : rest = c :: cs) : c = ' ' ∨ c = ')' ∨ c = ',' := by
  cases h with
  | nil => cases hr
  | space | rightParen | comma =>
    obtain ⟨rfl, -⟩ := List.cons_eq_cons.1 hr
    simp

theorem Delimited.isDigit_head {rest : List Char} (h : Delimited rest) {c : Char} {cs : List Char}
    (hr : rest = c :: cs) : isDigit c = false := by
  rcases h.not_head hr with rfl | rfl | rfl <;> decide

theorem scanFront_eq_token {start : Nat} {cs : List Char} {r : TokenRule} {l : Lexeme} {t : Token}
    (h : firstRule? cs = some (r, l)) (hr : r.read l.inner = some t) :
    scanFront start cs = .token t l := by
  cases cs with
  | nil => cases h
  | cons c cs => simp only [scanFront, h, hr]

/-! ## Names -/

namespace TokenRule

theorem splitBracketed_of_ne {opening closing c : Char} {allowed : Char → Bool} (h : c ≠ opening)
    (cs : List Char) : splitBracketed opening closing allowed (c :: cs) = none := by
  rw [splitBracketed, if_neg h]

theorem splitBracketed_name (opening closing : Char) {allowed : Char → Bool}
    {name : List Char} (hne : name ≠ []) (ha : ∀ c ∈ name, allowed c = true)
    (hc : allowed closing = false) (rest : List Char) :
    splitBracketed opening closing allowed (opening :: (name ++ closing :: rest)) =
      some ⟨opening :: name ++ [closing], name, rest⟩ := by
  have ht : (name ++ closing :: rest).takeWhile allowed = name := by
    rw [List.takeWhile_append_of_pos ha, List.takeWhile_cons_of_neg (by simp [hc]),
      List.append_nil]
  have hd : (name ++ closing :: rest).dropWhile allowed = closing :: rest := by
    rw [List.dropWhile_append_of_pos ha, List.dropWhile_cons_of_neg (by simp [hc])]
  obtain ⟨c, cs, rfl⟩ := List.exists_cons_of_ne_nil hne
  rw [splitBracketed, if_pos rfl, ht, hd]
  simp

end TokenRule

theorem scanFront_field (start : Nat) {name : String} (h : (Token.field name).IsWord)
    (rest : List Char) :
    scanFront start ((Token.field name).spelling.toList ++ rest) =
      .token (.field name) ⟨(Token.field name).spelling.toList, name.toList, rest⟩ := by
  obtain ⟨hne, hc⟩ := h
  have hs : (Token.field name).spelling.toList = '[' :: name.toList ++ [']'] := by
    simp [Token.spelling, Token.text]
  have ha : ∀ c ∈ name.toList, (c != ']') = true := by
    intro c hm
    rw [bne_iff_ne]
    rintro rfl
    exact hc hm
  have hb := TokenRule.splitBracketed_name '[' ']' (by simpa using hne) ha (by decide) rest
  rw [hs]
  apply scanFront_eq_token (r := TokenRule.field)
  · simp only [firstRule?, TokenRule.all, List.findSome?_cons, List.cons_append, List.append_assoc,
      List.nil_append]
    rw [show TokenRule.field.split = TokenRule.splitBracketed '[' ']' (· != ']') from rfl, hb]
    rfl
  · show some (Token.field (String.ofList name.toList)) = _
    rw [String.ofList_toList]

theorem scanFront_var (start : Nat) {raw : String} (h : (Token.var raw).IsWord)
    (rest : List Char) :
    scanFront start ((Token.var raw).spelling.toList ++ rest) =
      .token (.var raw) ⟨(Token.var raw).spelling.toList, raw.toList, rest⟩ := by
  obtain ⟨hne, ho, hc⟩ := h
  have hs : (Token.var raw).spelling.toList = '\x7b' :: raw.toList ++ ['\x7d'] := by
    simp [Token.spelling, Token.text]
  have ha : ∀ c ∈ raw.toList, (c != '\x7b' && c != '\x7d') = true := by
    intro c hm
    rw [Bool.and_eq_true, bne_iff_ne, bne_iff_ne]
    constructor
    · rintro rfl
      exact ho hm
    · rintro rfl
      exact hc hm
  have hb := TokenRule.splitBracketed_name '\x7b' '\x7d' (by simpa using hne) ha (by decide) rest
  rw [hs]
  apply scanFront_eq_token (r := TokenRule.var)
  · simp only [firstRule?, TokenRule.all, List.findSome?_cons, List.cons_append, List.append_assoc,
      List.nil_append]
    rw [show TokenRule.field.split = TokenRule.splitBracketed '[' ']' (· != ']') from rfl,
      TokenRule.splitBracketed_of_ne (by decide),
      show TokenRule.var.split =
        TokenRule.splitBracketed '\x7b' '\x7d' (fun c => c != '\x7b' && c != '\x7d') from rfl, hb]
    rfl
  · show some (Token.var (String.ofList raw.toList)) = _
    rw [String.ofList_toList]

/-! ## Strings -/

namespace TokenRule

theorem splitString_of_ne {c : Char} (h : c ≠ '\x27') (cs : List Char) :
    splitString (c :: cs) = none := by
  rw [splitString, if_neg h]

/-- The body of a string constant: its quotes written twice. -/
def quotedBody (cs : List Char) : List Char :=
  cs.flatMap fun c => if c = '\x27' then ['\x27', '\x27'] else [c]

theorem splitBody_quote {rest : List Char} (h : ∀ cs, rest ≠ '\x27' :: cs) :
    splitBody ('\x27' :: rest) = some ([], rest) := by
  rw [splitBody.eq_def]
  split
  · rename_i heq; cases heq
  · rename_i cs heq
    exact absurd (List.cons_eq_cons.1 heq).2 (h cs)
  · rename_i c cs hne heq
    obtain ⟨rfl, rfl⟩ := List.cons_eq_cons.1 heq
    rw [if_pos rfl]

theorem splitBody_of_ne {c : Char} (h : c ≠ '\x27') (cs : List Char) :
    splitBody (c :: cs) = (splitBody cs).map fun (body, rest) => (c :: body, rest) := by
  rw [splitBody.eq_def]
  split
  · rename_i heq; cases heq
  · rename_i heq
    exact absurd (List.cons_eq_cons.1 heq).1 h
  · rename_i heq
    obtain ⟨rfl, rfl⟩ := List.cons_eq_cons.1 heq
    rw [if_neg h]

theorem unquote_of_ne {c : Char} (h : c ≠ '\x27') (cs : List Char) :
    unquote (c :: cs) = c :: unquote cs := by
  rw [unquote.eq_def]
  split
  · rename_i heq; cases heq
  · rename_i heq
    exact absurd (List.cons_eq_cons.1 heq).1 h
  · rename_i heq
    obtain ⟨rfl, rfl⟩ := List.cons_eq_cons.1 heq
    rfl

theorem splitBody_quotedBody (cs : List Char) {rest : List Char} (h : ∀ cs, rest ≠ '\x27' :: cs) :
    splitBody (quotedBody cs ++ '\x27' :: rest) = some (quotedBody cs, rest) := by
  induction cs with
  | nil => exact splitBody_quote h
  | cons c cs ih =>
    by_cases hc : c = '\x27'
    · subst hc
      show splitBody ('\x27' :: '\x27' :: (quotedBody cs ++ '\x27' :: rest)) = _
      rw [splitBody, ih]
      rfl
    · have hq : quotedBody (c :: cs) = c :: quotedBody cs := by
        simp [quotedBody, hc]
      rw [hq, List.cons_append, splitBody_of_ne hc, ih]
      rfl

theorem unquote_quotedBody (cs : List Char) : unquote (quotedBody cs) = cs := by
  induction cs with
  | nil => rfl
  | cons c cs ih =>
    by_cases hc : c = '\x27'
    · subst hc
      show unquote ('\x27' :: '\x27' :: quotedBody cs) = _
      rw [unquote, ih]
    · have hq : quotedBody (c :: cs) = c :: quotedBody cs := by
        simp [quotedBody, hc]
      rw [hq, unquote_of_ne hc, ih]

end TokenRule

theorem scanFront_string (start : Nat) (s : String) {rest : List Char}
    (h : Delimited rest) :
    scanFront start ((quoteSingle s).toList ++ rest) =
      .token (.string s) ⟨(quoteSingle s).toList, TokenRule.quotedBody s.toList, rest⟩ := by
  have hq : (quoteSingle s).toList = '\x27' :: TokenRule.quotedBody s.toList ++ ['\x27'] := by
    rw [quoteSingle, String.toList_ofList]
    rfl
  have hne : ∀ cs, rest ≠ '\x27' :: cs := by
    rintro cs rfl
    rcases h.not_head rfl with h | h | h <;> exact absurd h (by decide)
  have hb := TokenRule.splitBody_quotedBody s.toList hne
  rw [hq]
  apply scanFront_eq_token (r := TokenRule.string)
  · simp only [firstRule?, TokenRule.all, List.findSome?_cons, TokenRule.field, TokenRule.var]
    simp only [List.cons_append, List.append_assoc, List.nil_append]
    rw [TokenRule.splitBracketed_of_ne (by decide), TokenRule.splitBracketed_of_ne (by decide)]
    simp [TokenRule.string, TokenRule.splitString, hb]
  · show some (Token.string (String.ofList (TokenRule.unquote (TokenRule.quotedBody s.toList)))) = _
    rw [TokenRule.unquote_quotedBody, String.ofList_toList]

/-! ## Numbers -/

namespace TokenRule

/-- What a number begins with. -/
def BeginsNumber (c : Char) : Prop := c = '-' ∨ isDigit c = true

theorem BeginsNumber.ne {c d : Char} (h : BeginsNumber c) (hm : d ≠ '-')
    (hd : isDigit d = false) : c ≠ d := by
  rintro rfl
  rcases h with h | h
  · exact hm h
  · rw [hd] at h
    cases h

theorem firstRule?_float {c : Char} {cs : List Char} {l : Lexeme} (hc : BeginsNumber c)
    (h : splitFloat (c :: cs) = some l) : firstRule? (c :: cs) = some (float, l) := by
  simp only [firstRule?, all, List.findSome?_cons, field, var, string]
  rw [splitBracketed_of_ne (hc.ne (by decide) (by decide)),
    splitBracketed_of_ne (hc.ne (by decide) (by decide)),
    splitString_of_ne (hc.ne (by decide) (by decide)), show float.split = splitFloat from rfl, h]
  rfl

theorem firstRule?_integer {c : Char} {cs : List Char} {l : Lexeme} (hc : BeginsNumber c)
    (hf : splitFloat (c :: cs) = none) (h : splitInteger (c :: cs) = some l) :
    firstRule? (c :: cs) = some (integer, l) := by
  simp only [firstRule?, all, List.findSome?_cons, field, var, string]
  rw [splitBracketed_of_ne (hc.ne (by decide) (by decide)),
    splitBracketed_of_ne (hc.ne (by decide) (by decide)),
    splitString_of_ne (hc.ne (by decide) (by decide)), show float.split = splitFloat from rfl, hf,
    show integer.split = splitInteger from rfl, h]
  rfl

theorem splitMinus_signText {c : Char} (cs : List Char) (h : isDigit c = true) (negative : Bool) :
    splitMinus (Binary64.signText negative (c :: cs)) =
      (Binary64.signText negative [], c :: cs) := by
  cases negative with
  | true => rfl
  | false =>
    show splitMinus (c :: cs) = ([], c :: cs)
    unfold splitMinus
    split
    · rename_i heq
      obtain ⟨rfl, -⟩ := List.cons_eq_cons.1 heq
      exact absurd h (by decide)
    · rfl

theorem signText_append (negative : Bool) (cs ds : List Char) :
    Binary64.signText negative (cs ++ ds) = Binary64.signText negative cs ++ ds := by
  cases negative <;> rfl

theorem exists_head_signText {c : Char} (cs : List Char) (h : isDigit c = true)
    (negative : Bool) :
    ∃ d ds, Binary64.signText negative (c :: cs) = d :: ds ∧ BeginsNumber d := by
  cases negative with
  | true => exact ⟨'-', c :: cs, rfl, .inl rfl⟩
  | false => exact ⟨c, cs, rfl, .inr h⟩

/-- Digits without a point behind them are a whole number. -/
theorem firstRule?_digits (negative : Bool) {ds rest : List Char} (hne : ds ≠ [])
    (hd : ∀ c ∈ ds, isDigit c = true) (hr : Delimited rest) :
    firstRule? (Binary64.signText negative ds ++ rest) =
      some (integer, ⟨Binary64.signText negative ds, Binary64.signText negative ds, rest⟩) := by
  obtain ⟨c, cs, rfl⟩ := List.exists_cons_of_ne_nil hne
  have hc := hd c List.mem_cons_self
  obtain ⟨ht, hs⟩ := takeWhile_isDigit_append hd rest (fun _ _ => hr.isDigit_head)
  rw [← signText_append, List.cons_append]
  rw [List.cons_append] at ht hs
  have hm := splitMinus_signText (cs ++ rest) hc negative
  obtain ⟨d, ds, hds, hb⟩ := exists_head_signText (cs ++ rest) hc negative
  rw [hds] at hm ⊢
  apply firstRule?_integer hb
  · simp only [splitFloat, hm, ht, hs]
    cases hr <;> rfl
  · simp only [splitInteger, hm, ht, hs]
    rw [← signText_append]
    rfl

/-- Digits before and behind a point are a number with a fraction. -/
theorem firstRule?_mantissa (negative : Bool) {m : Magnitude} (t : Mantissa m) {rest : List Char}
    (hr : Delimited rest) :
    firstRule? (Binary64.signText negative t.chars ++ rest) =
      some (float, ⟨Binary64.signText negative t.chars, Binary64.signText negative t.chars, rest⟩) := by
  obtain ⟨c, cs, hcs, hc⟩ := t.exists_cons
  obtain ⟨ht, hs⟩ := takeWhile_isDigit_append t.whole_digits ('.' :: t.fraction ++ rest) (by
    intro c cs h
    obtain ⟨rfl, -⟩ := List.cons_eq_cons.1 h
    decide)
  obtain ⟨ht', hs'⟩ := takeWhile_isDigit_append t.fraction_digits rest (fun _ _ => hr.isDigit_head)
  have hw : t.chars ++ rest = t.whole ++ ('.' :: t.fraction ++ rest) := by
    simp [Mantissa.chars]
  rw [← hw, hcs, List.cons_append] at ht hs
  rw [← signText_append, hcs, List.cons_append]
  have hm := splitMinus_signText (cs ++ rest) hc negative
  obtain ⟨d, ds, hds, hb⟩ := exists_head_signText (cs ++ rest) hc negative
  rw [hds] at hm ⊢
  apply firstRule?_float hb
  have hne : t.fraction.isEmpty = false := by simp [t.fraction_ne_nil]
  simp only [splitFloat, hm, ht, hs, ht', hs', List.cons_append, hne, Bool.false_eq_true, if_false]
  rw [← signText_append, List.nil_append, ← hcs]
  rfl

end TokenRule

theorem scanFront_integer (start : Nat) (n : Int64) {rest : List Char} (hr : Delimited rest) :
    scanFront start ((int64Text n).toList ++ rest) =
      .token (.integer n) ⟨(int64Text n).toList, (int64Text n).toList, rest⟩ := by
  have hs : (int64Text n).toList =
      Binary64.signText (n.toInt < 0) (digits n.toInt.natAbs) := by
    rw [int64Text_toList]
    by_cases h : n.toInt < 0 <;> simp [h, Binary64.signText]
  have hf := TokenRule.firstRule?_digits (n.toInt < 0) (digits_ne_nil n.toInt.natAbs)
    (fun _ => isDigit_of_mem_digits) hr
  rw [← hs] at hf
  apply scanFront_eq_token hf
  show (int64OfChars? (int64Text n).toList).map Token.integer = _
  rw [int64OfChars?_int64Text]
  rfl

theorem scanFront_float (start : Nat) (negative : Bool) (m : Magnitude) {rest : List Char}
    (hr : Delimited rest) :
    scanFront start ((Token.float (.finite negative m)).spelling.toList ++ rest) =
      .token (.float (.finite negative m)) ⟨(Token.float (.finite negative m)).spelling.toList,
        (Token.float (.finite negative m)).spelling.toList, rest⟩ := by
  obtain ⟨t, ht⟩ := exists_mantissa_floatLiteral negative m
  have hs : (Token.float (.finite negative m)).spelling.toList =
      Binary64.signText negative t.chars := ht
  rw [hs]
  apply scanFront_eq_token (TokenRule.firstRule?_mantissa negative t hr)
  show (binary64OfChars? (Binary64.signText negative t.chars)).map Token.float = _
  rw [binary64OfChars?_mantissa]
  rfl

/-- The spelling of a number that is not finite is no token. -/
theorem scanFront_infinite (start : Nat) {x : Binary64} (hx : x.isFinite = false)
    {rest : List Char} (hr : Delimited rest) :
    ∃ e, scanFront start ((Token.float x).spelling.toList ++ rest) = .failed e := by
  cases x with
  | nan => cases hr <;> exact ⟨.unexpectedChar 'N' start, rfl⟩
  | infinite negative =>
    cases negative with
    | true => cases hr <;> exact ⟨.unexpectedChar '-' start, rfl⟩
    | false => cases hr <;> exact ⟨.unexpectedChar 'i' start, rfl⟩
  | finite => cases hx

/-! ## Words and symbols -/

theorem readComparison_symbol (op : CompareOp) :
    TokenRule.readComparison op.symbol.toList = some (.comparison op) := by
  cases op <;> decide

theorem symbols_read (ss : List String) (read : List Char → Option Token) :
    (TokenRule.symbols ss read).read = read := rfl

theorem word_read (ws : List String) (read : List Char → Option Token) :
    (TokenRule.word ws read).read = read := rfl

theorem firstRule?_comparison (op : CompareOp) {rest : List Char} (hr : Delimited rest) :
    ∃ r, firstRule? (op.symbol.toList ++ rest) =
      some (r, ⟨op.symbol.toList, op.symbol.toList, rest⟩) ∧ r.read = TokenRule.readComparison := by
  cases op with
  | notEqual | lessEqual | greaterEqual =>
    refine ⟨.symbols ["<>", "<=", ">="] TokenRule.readComparison, ?_, symbols_read _ _⟩
    cases hr <;> rfl
  | equal | less | greater =>
    refine ⟨.symbols ["<", ">", "="] TokenRule.readComparison, ?_, symbols_read _ _⟩
    cases hr <;> rfl
  | like | ilike =>
    refine ⟨.word ["like", "ilike"] TokenRule.readComparison, ?_, word_read _ _⟩
    cases hr <;> rfl

theorem scanFront_comparison (start : Nat) (op : CompareOp) {rest : List Char}
    (hr : Delimited rest) :
    scanFront start (op.symbol.toList ++ rest) =
      .token (.comparison op) ⟨op.symbol.toList, op.symbol.toList, rest⟩ := by
  obtain ⟨r, hs, hread⟩ := firstRule?_comparison op hr
  apply scanFront_eq_token hs
  rw [hread]
  exact readComparison_symbol op

/-- A spelling is taken off the text as a whole and read back as its token. -/
theorem scanFront_spelling (start : Nat) {t : Token} (h : t.IsWord) (hf : t.isFinite = true)
    {rest : List Char} (hr : Delimited rest) :
    ∃ inner, scanFront start (t.spelling.toList ++ rest) =
      .token t ⟨t.spelling.toList, inner, rest⟩ := by
  cases t with
  | field name => exact ⟨_, scanFront_field start h rest⟩
  | var raw => exact ⟨_, scanFront_var start h rest⟩
  | string s => exact ⟨_, scanFront_string start s hr⟩
  | integer n => exact ⟨_, scanFront_integer start n hr⟩
  | comparison op => exact ⟨_, scanFront_comparison start op hr⟩
  | float x =>
    cases x with
    | finite negative m => exact ⟨_, scanFront_float start negative m hr⟩
    | nan => cases hf
    | infinite => cases hf
  | boolean b => cases b <;> cases hr <;> exact ⟨_, rfl⟩
  | join op => cases op <;> cases hr <;> exact ⟨_, rfl⟩
  | null | isIn | not | leftParen | rightParen | comma => cases hr <;> exact ⟨_, rfl⟩
  | eof => exact absurd h id


end RecordFilter
