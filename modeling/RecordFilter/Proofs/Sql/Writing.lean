import RecordFilter.Proofs.Number.Order
import RecordFilter.Proofs.Sql.Scanning
import RecordFilter.Sql.Condition

/-!
# The tokens of written conditions

The tokens of a condition that is written without a cast or a clause of another hand.

    c.Uncast → Scans ((c.text d).toList ++ rest) (c.tokens d) rest     (scans_condition)
-/

namespace RecordFilter

/-! ## Terms -/

namespace Term

/-- A number, its sign a token of its own. -/
def numberTokens (negative : Bool) (numerator places : Nat) : List Sql.Token :=
  if negative then [.minus, .number numerator places] else [.number numerator places]

def columnTokens : List (List Char) → List Sql.Token
  | [] => []
  | [part] => [.name (String.ofList part)]
  | part :: parts => .name (String.ofList part) :: .dot :: columnTokens parts

/-- The tokens of a term. -/
def tokens (d : Dialect) : Term → List Sql.Token
  | column name _ => columnTokens (splitParts '.' name.toList)
  | null => [.word "NULL"]
  | boolean b =>
    match d with
    | .sql => [.number b.toNat 0]
    | .cql => [.word (if b then "TRUE" else "FALSE")]
  | integer n => numberTokens (n.toInt < 0) n.toInt.natAbs 0
  | number negative m => numberTokens negative (m.shortest .up).numerator (m.shortest .up).places
  | string s => [.text s]

/-- A term without a cast. -/
def Plain : Term → Prop
  | column _ castType => castType = none
  | _ => True

end Term

namespace Sql

theorem scans_minus (cs : List Char) : Scans ('-' :: cs) [.minus] cs := scans_symbol rfl cs

theorem breaks_whole {rest : List Char} (h : Delimited rest) (seen : List Char) :
    (Scanner.whole seen).Breaks rest := breaks_of_delimited h rfl rfl rfl

theorem scans_sign (negative : Bool) {cs rest : List Char} {n k : Nat}
    (h : Scans (cs ++ rest) [.number n k] rest) :
    Scans (Binary64.signText negative cs ++ rest) (Term.numberTokens negative n k) rest := by
  cases negative with
  | false => exact h
  | true => exact (scans_minus _).append h

theorem scans_integer (n : Int64) {rest : List Char} (hr : Delimited rest) :
    Scans ((int64Text n).toList ++ rest) (Term.numberTokens (n.toInt < 0) n.toInt.natAbs 0)
      rest := by
  have hd := scans_digits (digits_ne_nil n.toInt.natAbs) (fun _ => isDigit_of_mem_digits)
    (breaks_whole hr)
  rw [ofDigits_digits] at hd
  have hs : (int64Text n).toList =
      Binary64.signText (n.toInt < 0) (digits n.toInt.natAbs) := by
    rw [int64Text_toList]
    by_cases h : n.toInt < 0 <;> simp [h, Binary64.signText]
  rw [hs]
  exact scans_sign _ hd

theorem scans_positional (d : Decimal) {rest : List Char} (hr : Delimited rest) :
    Scans (d.positional ++ rest) [.number d.numerator d.places] rest := by
  obtain ⟨c, e⟩ := d
  cases e with
  | ofNat k =>
    have hne : digits c ++ List.replicate k '0' ≠ [] := by simp [digits_ne_nil]
    have hs := scans_digits hne (fun _ ha => isDigit_of_mem_positional_ofNat ha) (breaks_whole hr)
    rw [ofDigits_append, ofDigits_digits, ofDigits_replicate_zero, List.length_replicate,
      Nat.add_zero, Nat.mul_comm] at hs
    have hp : (Decimal.mk c (.ofNat k)).places = 0 := Int.toNat_neg_natCast k
    rw [hp]
    exact hs
  | negSucc k =>
    have hlen := lt_length_paddedDigits c k
    have hne : (paddedDigits c k).take ((paddedDigits c k).length - (k + 1)) ≠ [] := by
      apply List.ne_nil_of_length_pos
      rw [List.length_take]
      omega
    have he : ∀ a ∈ (paddedDigits c k).drop ((paddedDigits c k).length - (k + 1)),
        isDigit a = true := fun a ha => isDigit_of_mem_paddedDigits (List.mem_of_mem_drop ha)
    have hs := scans_point hne
      (fun a ha => isDigit_of_mem_paddedDigits (List.mem_of_mem_take ha)) he hr
    rw [List.take_append_drop, ofDigits_paddedDigits, List.length_drop] at hs
    have hk : (paddedDigits c k).length - ((paddedDigits c k).length - (k + 1)) = k + 1 := by omega
    have hn : (Decimal.mk c (.negSucc k)).numerator = c := Nat.mul_one c
    rw [positional_negSucc, List.append_assoc, hn]
    rw [hk] at hs
    exact hs

theorem scans_column {parts : List (List Char)} {rest : List Char} (hr : Delimited rest) :
    Scans ((".".intercalate (parts.map quoteDouble)).toList ++ rest) (Term.columnTokens parts)
      rest := by
  induction parts with
  | nil => exact .nil rest
  | cons part parts ih =>
    cases parts with
    | nil =>
      rw [List.map_singleton, String.intercalate_singleton]
      apply scans_name
      rintro c cs rfl
      rcases hr.not_head rfl with rfl | rfl | rfl <;> decide
    | cons q qs =>
      rw [List.map_cons, List.map_cons, String.intercalate_cons_cons, String.toList_append,
        String.toList_append, List.append_assoc, List.append_assoc]
      refine (scans_name part ?_).append ((scans_symbol (t := .dot) rfl _).append ih)
      intro c cs hc
      obtain ⟨rfl, -⟩ := List.cons_eq_cons.1 hc
      decide

theorem scans_bit (b : Bool) {rest : List Char} (hr : ∀ seen, (Scanner.whole seen).Breaks rest) :
    Scans ((Dialect.sql.boolean b).toList ++ rest) [.number b.toNat 0] rest := by
  cases b with
  | true => exact scans_digits (List.cons_ne_nil '1' []) (List.forall_mem_singleton.2 rfl) hr
  | false => exact scans_digits (List.cons_ne_nil '0' []) (List.forall_mem_singleton.2 rfl) hr

theorem scans_boolean (d : Dialect) (b : Bool) {rest : List Char} (hr : Delimited rest) :
    Scans ((d.boolean b).toList ++ rest) ((Term.boolean b).tokens d) rest := by
  cases d with
  | sql => exact scans_bit b (breaks_whole hr)
  | cql =>
    cases b with
    | true => exact scans_word (w := "TRUE") rfl rfl rfl hr
    | false => exact scans_word (w := "FALSE") rfl rfl rfl hr

/-- The tokens of a term are what its text is made of. -/
theorem scans_term (d : Dialect) {t : Term} (h : t.Plain) {rest : List Char} (hr : Delimited rest) :
    Scans ((t.text d).toList ++ rest) (t.tokens d) rest := by
  cases t with
  | column name castType =>
    obtain rfl : castType = none := h
    exact scans_column hr
  | null => exact scans_word (w := "NULL") rfl rfl rfl hr
  | boolean b => exact scans_boolean d b hr
  | integer n => exact scans_integer n hr
  | number negative m =>
    have hs : ((Term.number negative m).text d).toList =
        Binary64.signText negative (m.shortest .up).positional := String.toList_ofList
    rw [hs]
    exact scans_sign negative (scans_positional _ hr)
  | string s => exact scans_text s hr

end Sql

/-! ## Conditions -/

/-- The relation of a comparison that is not a match of patterns. -/
def CompareOp.relation? : CompareOp → Option Sql.Relation
  | equal => some .equal
  | notEqual => some .notEqual
  | less => some .less
  | lessEqual => some .lessEqual
  | greater => some .greater
  | greaterEqual => some .greaterEqual
  | like => none
  | ilike => none

namespace Condition

/-- A condition without casts, matches of patterns and clauses of another hand. -/
def Plain : Condition → Prop
  | constant _ => True
  | compare op left right => op.relation?.isSome = true ∧ left.Plain ∧ right.Plain
  | missing subject => subject.Plain
  | present subject => subject.Plain
  | oneOf subject items _ => subject.Plain ∧ ∀ t ∈ items, t.Plain
  | not inner => inner.Plain
  | join _ left right => left.Plain ∧ right.Plain
  | verbatim _ => False

/-- A condition without casts and clauses of another hand. -/
def Uncast : Condition → Prop
  | constant _ => True
  | compare _ left right => left.Plain ∧ right.Plain
  | missing subject => subject.Plain
  | present subject => subject.Plain
  | oneOf subject items _ => subject.Plain ∧ ∀ t ∈ items, t.Plain
  | not inner => inner.Uncast
  | join _ left right => left.Uncast ∧ right.Uncast
  | verbatim _ => False

theorem Plain.uncast {c : Condition} (h : c.Plain) : c.Uncast := by
  induction c with
  | constant | missing | present | oneOf | verbatim => exact h
  | compare => exact h.2
  | not _ ih => exact ih h
  | join _ _ _ ihl ihr => exact ⟨ihl h.1, ihr h.2⟩

def relationTokens (op : CompareOp) : List Sql.Token := (op.relation?.map .relation).toList

/-- An operand in the parentheses of a function. -/
def callTokens (function : String) (ts : List Sql.Token) : List Sql.Token :=
  .word function :: .leftParen :: ts ++ [.rightParen]

/-- The escape character of patterns. -/
def escapeTokens : List Sql.Token := [.word "ESCAPE", .name "\\"]

/-- The tokens of a comparison; a match of patterns differs by dialect. -/
def comparisonTokens (d : Dialect) (op : CompareOp) (left right : Term) : List Sql.Token :=
  match op, d with
  | .ilike, .cql =>
    callTokens "strToLowerCase" (left.tokens d) ++ callTokens "LIKE" (right.folded.tokens d)
  | .ilike, .sql =>
    callTokens "lower" (left.tokens d) ++
      .word "LIKE" :: (callTokens "lower" (right.tokens d) ++ escapeTokens)
  | .like, .sql => left.tokens d ++ .word "LIKE" :: (right.tokens d ++ escapeTokens)
  | .like, .cql => left.tokens d ++ .word "LIKE" :: right.tokens d
  | op, d => left.tokens d ++ relationTokens op ++ right.tokens d

theorem comparisonTokens_of_relation {d : Dialect} {op : CompareOp}
    (h : op.relation?.isSome = true) (left right : Term) :
    comparisonTokens d op left right = left.tokens d ++ relationTokens op ++ right.tokens d := by
  cases op with
  | like => cases h
  | ilike => cases h
  | _ => rfl

def separatedTokens (d : Dialect) : List Term → List Sql.Token
  | [] => []
  | [t] => t.tokens d
  | t :: ts => t.tokens d ++ .comma :: separatedTokens d ts

def constantTokens : Dialect → Bool → List Sql.Token
  | .sql, b => [.number 1 0, .relation .equal, .number b.toNat 0]
  | .cql, b => [.word (if b then "TRUE" else "FALSE")]

def nullTokens (d : Dialect) (subject : Term) : List Sql.Token :=
  subject.tokens d ++ [.word "IS", .word "NULL"]

def blankTokens (d : Dialect) (subject : Term) : List Sql.Token :=
  nullTokens d subject ++ .word "OR" :: subject.tokens d ++ [.relation .equal, .text ""]

def listTokens (d : Dialect) (subject : Term) (items : List Term) : List Sql.Token :=
  subject.tokens d ++ .word "IN" :: .leftParen :: separatedTokens d items ++ [.rightParen]

def oneOfTokens (d : Dialect) (subject : Term) (items : List Term) (orBlank : Bool) :
    List Sql.Token :=
  if orBlank then
    .leftParen ::
      (if items.isEmpty then blankTokens d subject
        else blankTokens d subject ++ .word "OR" :: listTokens d subject items) ++ [.rightParen]
  else if items.isEmpty then constantTokens d false
  else listTokens d subject items

/-- The tokens of a condition. -/
def tokens (d : Dialect) : Condition → List Sql.Token
  | constant b => constantTokens d b
  | compare op left right => comparisonTokens d op left right
  | missing subject => nullTokens d subject
  | present subject => subject.tokens d ++ [.word "IS", .word "NOT", .word "NULL"]
  | oneOf subject items orBlank => oneOfTokens d subject items orBlank
  | not inner => .word "NOT" :: inner.tokens d
  | join op left right =>
    .leftParen :: left.tokens d ++ .word op.keyword :: right.tokens d ++ [.rightParen]
  | verbatim _ => []

end Condition

namespace Sql

/-! ## Texts of conditions -/

variable {d : Dialect} {rest : List Char}

/-- A keyword between blanks. -/
theorem scans_keyword {w : String} {c : Char} {cs : List Char} (hw : w.toList = c :: cs)
    (hc : Scanner.start c = ([], .word [c]))
    (h : cs.all (fun c => Scanner.isLetter c || isDigit c) = true) {ts : List Token}
    {mid : List Char}
    (ht : Scans mid ts rest) : Scans (' ' :: (w.toList ++ ' ' :: mid)) (.word w :: ts) rest :=
  (scans_space _).append ((scans_word hw hc h (.space mid)).append ((scans_space mid).append ht))

theorem scans_or {ts : List Token} {mid : List Char} (ht : Scans mid ts rest) :
    Scans (" OR ".toList ++ mid) (.word "OR" :: ts) rest :=
  scans_keyword (w := "OR") rfl rfl rfl ht

theorem scans_and {ts : List Token} {mid : List Char} (ht : Scans mid ts rest) :
    Scans (" AND ".toList ++ mid) (.word "AND" :: ts) rest :=
  scans_keyword (w := "AND") rfl rfl rfl ht

theorem scans_isNull (hr : Delimited rest) :
    Scans (" IS NULL".toList ++ rest) [.word "IS", .word "NULL"] rest :=
  scans_keyword (w := "IS") rfl rfl rfl (scans_word (w := "NULL") rfl rfl rfl hr)

theorem scans_isNotNull (hr : Delimited rest) :
    Scans (" IS NOT NULL".toList ++ rest) [.word "IS", .word "NOT", .word "NULL"] rest :=
  scans_keyword (w := "IS") rfl rfl rfl
    ((scans_word (w := "NOT") rfl rfl rfl (.space _)).append
      ((scans_space _).append (scans_word (w := "NULL") rfl rfl rfl hr)))

theorem scans_single {c : Char} {s : Scanner} {t : Token} (hc : Scanner.start c = ([], s))
    (hf : s.finish = some [t]) (hb : s.extend ' ' = none) (cs : List Char) :
    Scans (c :: ' ' :: cs) [t] (' ' :: cs) := by
  have hbr : s.Breaks (' ' :: cs) := hb
  unfold Scans
  rw [scan_gap_cons, hc, scan_of_breaks hf hbr, Option.map_map]
  rfl

theorem scans_pair {c e : Char} {s : Scanner} {t : Token} (hc : Scanner.start c = ([], s))
    (he : s.extend e = some ([t], .gap)) (cs : List Char) : Scans (c :: e :: cs) [t] cs := by
  unfold Scans
  rw [scan_gap_cons, hc, Scanner.scan, Scanner.step, he]
  show ((Scanner.gap.scan cs).map ([t] ++ ·)).map ([] ++ ·) = _
  rw [Option.map_map]
  rfl

/-- The symbol of a comparison between blanks. -/
theorem scans_relation {op : CompareOp} (h : op.relation?.isSome = true) {ts : List Token}
    {cs : List Char} (ht : Scans cs ts rest) :
    Scans (' ' :: (op.symbol.toList ++ ' ' :: cs)) (Condition.relationTokens op ++ ts) rest := by
  have hop : Scans (op.symbol.toList ++ ' ' :: cs) (Condition.relationTokens op) (' ' :: cs) := by
    cases op with
    | equal => exact scans_symbol rfl _
    | notEqual => exact scans_pair rfl rfl _
    | less => exact scans_single rfl rfl rfl cs
    | lessEqual => exact scans_pair rfl rfl _
    | greater => exact scans_single rfl rfl rfl cs
    | greaterEqual => exact scans_pair rfl rfl _
    | like => cases h
    | ilike => cases h
  exact (scans_space _).append (hop.append ((scans_space cs).append ht))

theorem scans_constant (d : Dialect) (b : Bool) (hr : Delimited rest) :
    Scans ((d.condition b).toList ++ rest) (Condition.constantTokens d b) rest := by
  cases d with
  | sql =>
    have h1 : ∀ cs, Scans ('1' :: '=' :: cs) [.number 1 0] ('=' :: cs) := fun _ =>
      scans_bit true fun _ => rfl
    have h2 := (h1 _).append ((scans_symbol rfl _).append (scans_bit b (breaks_whole hr)))
    cases b with
    | true => exact h2
    | false => exact h2
  | cql =>
    cases b with
    | true => exact scans_boolean .cql true hr
    | false => exact scans_boolean .cql false hr

theorem scans_nullTest {subject : Term} (h : subject.Plain) (hr : Delimited rest) :
    Scans ((subject.text d ++ " IS NULL").toList ++ rest) (Condition.nullTokens d subject) rest := by
  rw [String.toList_append, List.append_assoc]
  exact (scans_term d h (.space _)).append (scans_isNull hr)

theorem scans_items {items : List Term} (h : ∀ t ∈ items, t.Plain) (hr : Delimited rest) :
    Scans ((", ".intercalate (items.map (·.text d))).toList ++ rest)
      (Condition.separatedTokens d items) rest := by
  induction items with
  | nil => exact .nil rest
  | cons t ts ih =>
    obtain ⟨ht, hts⟩ := List.forall_mem_cons.1 h
    cases ts with
    | nil =>
      rw [List.map_singleton, String.intercalate_singleton]
      exact scans_term d ht hr
    | cons u us =>
      rw [List.map_cons, List.map_cons, String.intercalate_cons_cons, String.toList_append,
        String.toList_append, List.append_assoc, List.append_assoc]
      exact (scans_term d ht (.comma _)).append
        ((scans_symbol (t := .comma) rfl _).append ((scans_space _).append (ih hts)))

theorem scans_list {subject : Term} {items : List Term} (hs : subject.Plain)
    (h : ∀ t ∈ items, t.Plain) (rest : List Char) :
    Scans ((subject.text d ++ " IN (" ++ ", ".intercalate (items.map (·.text d)) ++ ")").toList ++
      rest) (Condition.listTokens d subject items) rest := by
  simp only [String.toList_append, List.append_assoc]
  have hi := (scans_items (d := d) h (.rightParen rest)).append (scans_symbol (c := ')') rfl rest)
  have hp := (scans_symbol (c := '(') rfl _).append hi
  have ht := (scans_term d hs (.space _)).append
    (scans_keyword (w := "IN") rfl rfl rfl hp)
  simpa [Condition.listTokens] using ht

theorem scans_blank {subject : Term} (h : subject.Plain) (hr : Delimited rest) :
    Scans ((subject.text d ++ " IS NULL OR " ++ subject.text d ++ " = ''").toList ++ rest)
      (Condition.blankTokens d subject) rest := by
  have hs : " IS NULL OR " = " IS NULL" ++ " OR " := by decide
  have he : Scans ((subject.text d).toList ++ (" = ''".toList ++ rest))
      (subject.tokens d ++ [.relation .equal, .text ""]) rest :=
    (scans_term d h (.space _)).append
      (scans_relation (show CompareOp.equal.relation?.isSome = true from rfl) (scans_text "" hr))
  have hn := (scans_term d h (.space _)).append ((scans_isNull (.space _)).append (scans_or he))
  have ht : Condition.blankTokens d subject = subject.tokens d ++ ([.word "IS", .word "NULL"] ++
      (.word "OR" :: (subject.tokens d ++ [.relation .equal, .text ""]))) := by
    simp [Condition.blankTokens, Condition.nullTokens]
  rw [hs, ht]
  simp only [String.toList_append, List.append_assoc]
  exact hn

/-- Something in parentheses. -/
theorem scans_parens {s : String} {ts : List Token}
    (h : Scans (s.toList ++ ')' :: rest) ts (')' :: rest)) :
    Scans (("(" ++ s ++ ")").toList ++ rest) (.leftParen :: ts ++ [.rightParen]) rest := by
  simp only [String.toList_append, List.append_assoc]
  exact (scans_symbol (c := '(') rfl _).append (h.append (scans_symbol (c := ')') rfl rest))

theorem scans_oneOf {subject : Term} {items : List Term} (hs : subject.Plain)
    (h : ∀ t ∈ items, t.Plain) (orBlank : Bool) (hr : Delimited rest) :
    Scans ((oneOfText d subject items orBlank).toList ++ rest)
      (Condition.oneOfTokens d subject items orBlank) rest := by
  unfold Condition.oneOfTokens
  cases orBlank with
  | false =>
    by_cases hi : items.isEmpty = true
    · have ht : oneOfText d subject items false = d.condition false := by
        simp only [oneOfText, hi, if_true, Bool.false_eq_true, if_false]
      rw [if_neg (by decide), if_pos hi, ht]
      exact scans_constant d false hr
    · have ht : oneOfText d subject items false =
          subject.text d ++ " IN (" ++ ", ".intercalate (items.map (·.text d)) ++ ")" := by
        simp only [oneOfText, hi, Bool.false_eq_true, if_false]
      rw [if_neg (by decide), if_neg hi, ht]
      exact scans_list hs h rest
  | true =>
    rw [if_pos rfl]
    by_cases hi : items.isEmpty = true
    · have ht : oneOfText d subject items true =
          "(" ++ (subject.text d ++ " IS NULL OR " ++ subject.text d ++ " = ''") ++ ")" := by
        simp only [oneOfText, oneOfText.parenthesize, hi, if_true]
      rw [if_pos hi, ht]
      exact scans_parens (scans_blank hs (.rightParen rest))
    · have ht : oneOfText d subject items true =
          "(" ++ (subject.text d ++ " IS NULL OR " ++ subject.text d ++ " = ''" ++ " OR " ++
            (subject.text d ++ " IN (" ++ ", ".intercalate (items.map (·.text d)) ++ ")")) ++ ")" := by
        simp only [oneOfText, oneOfText.parenthesize, hi, if_true, Bool.false_eq_true, if_false]
      rw [if_neg hi, ht]
      apply scans_parens
      rw [String.toList_append, String.toList_append, List.append_assoc, List.append_assoc]
      exact (scans_blank hs (.space _)).append (scans_or (scans_list hs h (')' :: rest)))

theorem scans_join (op : JoinOp) {ts : List Token} {mid : List Char} (ht : Scans mid ts rest) :
    Scans (' ' :: (op.keyword.toList ++ ' ' :: mid)) (.word op.keyword :: ts) rest := by
  cases op with
  | and => exact scans_and ht
  | or => exact scans_or ht

/-! ## Matches of patterns -/

/-- A term in the parentheses of a function. -/
theorem scans_call {w : String} {c : Char} {cs : List Char} (hw : w.toList = c :: cs)
    (hc : Scanner.start c = ([], .word [c]))
    (h : cs.all (fun c => Scanner.isLetter c || isDigit c) = true) (d : Dialect) {t : Term}
    (ht : t.Plain) (rest : List Char) :
    Scans (w.toList ++ '(' :: ((t.text d).toList ++ ')' :: rest))
      (Condition.callTokens w (t.tokens d)) rest := by
  have hb : ∀ seen, (Scanner.word seen).Breaks ('(' :: ((t.text d).toList ++ ')' :: rest)) :=
    fun _ => rfl
  have hp := (scans_term d ht (.rightParen rest)).append (scans_symbol (t := .rightParen) rfl rest)
  exact (scans_word_of_breaks hw hc h hb).append ((scans_symbol (t := .leftParen) rfl _).append hp)

theorem delimited_escape (cs : List Char) : Delimited (" ESCAPE \"\\\"".toList ++ cs) := .space _

theorem scans_escape (hr : Delimited rest) :
    Scans (" ESCAPE \"\\\"".toList ++ rest) Condition.escapeTokens rest := by
  refine scans_keyword (w := "ESCAPE") rfl rfl rfl (scans_name ['\\'] ?_)
  rintro c cs rfl
  rcases hr.not_head rfl with rfl | rfl | rfl <;> decide

theorem delimited_like (cs : List Char) : Delimited (" LIKE ".toList ++ cs) := .space _

theorem scans_like {ts : List Token} {mid : List Char} (ht : Scans mid ts rest) :
    Scans (" LIKE ".toList ++ mid) (.word "LIKE" :: ts) rest :=
  scans_keyword (w := "LIKE") rfl rfl rfl ht

theorem plain_folded {t : Term} (h : t.Plain) : t.folded.Plain := by
  cases t with
  | column => exact h
  | _ => trivial

variable {left right : Term}

theorem scans_match (d : Dialect) (hl : left.Plain) (hrt : right.Plain) (hr : Delimited rest) :
    Scans ((comparisonText d .like left right).toList ++ rest)
      (Condition.comparisonTokens d .like left right) rest := by
  cases d with
  | sql =>
    have hright := (scans_term .sql hrt (delimited_escape rest)).append (scans_escape hr)
    have ht := (scans_term .sql hl (delimited_like _)).append (scans_like hright)
    have hs : comparisonText .sql .like left right =
        left.text .sql ++ " LIKE " ++ right.text .sql ++ " ESCAPE \"\\\"" := rfl
    rw [hs]
    simp only [String.toList_append, List.append_assoc]
    exact ht
  | cql =>
    have ht := (scans_term .cql hl (delimited_like _)).append
      (scans_like (scans_term .cql hrt hr))
    have hs : comparisonText .cql .like left right =
        left.text .cql ++ " LIKE " ++ right.text .cql := rfl
    rw [hs]
    simp only [String.toList_append, List.append_assoc]
    exact ht

theorem scans_matchFolded (d : Dialect) (hl : left.Plain) (hrt : right.Plain)
    (hr : Delimited rest) :
    Scans ((comparisonText d .ilike left right).toList ++ rest)
      (Condition.comparisonTokens d .ilike left right) rest := by
  cases d with
  | sql =>
    have hcall : ∀ {t : Term}, t.Plain → ∀ cs, Scans
        ("lower(".toList ++ ((t.text .sql).toList ++ ')' :: cs))
        (Condition.callTokens "lower" (t.tokens .sql)) cs := fun ht cs =>
      scans_call (w := "lower") rfl rfl rfl .sql ht cs
    have ht := (hcall hl _).append (scans_like ((hcall hrt _).append (scans_escape hr)))
    have hs : comparisonText .sql .ilike left right = "lower(" ++ left.text .sql ++
      ") LIKE lower(" ++ right.text .sql ++ ") ESCAPE \"\\\"" := rfl
    have hmid : ") LIKE lower(" = ")" ++ (" LIKE " ++ "lower(") := by decide
    have hend : ") ESCAPE \"\\\"" = ")" ++ " ESCAPE \"\\\"" := by decide
    rw [hs, hmid, hend]
    simp only [String.toList_append, List.append_assoc]
    exact ht
  | cql =>
    have hleft : ∀ cs, Scans ("strToLowerCase(".toList ++ ((left.text .cql).toList ++ ')' :: cs))
        (Condition.callTokens "strToLowerCase" (left.tokens .cql)) cs := fun cs =>
      scans_call (w := "strToLowerCase") rfl rfl rfl .cql hl cs
    have hright : Scans ("LIKE(".toList ++ ((right.folded.text .cql).toList ++ ')' :: rest))
        (Condition.callTokens "LIKE" (right.folded.tokens .cql)) rest :=
      scans_call (w := "LIKE") rfl rfl rfl .cql (plain_folded hrt) rest
    have ht := (hleft _).append ((scans_space _).append hright)
    have hs : comparisonText .cql .ilike left right = "strToLowerCase(" ++ left.text .cql ++
      ") LIKE(" ++ right.folded.text .cql ++ ")" := rfl
    have hmid : ") LIKE(" = ")" ++ (" " ++ "LIKE(") := by decide
    rw [hs, hmid]
    simp only [String.toList_append, List.append_assoc]
    exact ht

theorem scans_comparison (d : Dialect) (op : CompareOp) (hl : left.Plain) (hrt : right.Plain)
    (hr : Delimited rest) :
    Scans ((comparisonText d op left right).toList ++ rest)
      (Condition.comparisonTokens d op left right) rest := by
  have hrelation : op.relation?.isSome = true → comparisonText d op left right =
      left.text d ++ " " ++ op.symbol ++ " " ++ right.text d → Scans
        ((comparisonText d op left right).toList ++ rest)
        (Condition.comparisonTokens d op left right) rest := by
    intro hop hs
    have ht := (scans_term d hl (.space _)).append (scans_relation hop (scans_term d hrt hr))
    rw [hs, Condition.comparisonTokens_of_relation hop]
    simpa using ht
  cases op with
  | like => exact scans_match d hl hrt hr
  | ilike => exact scans_matchFolded d hl hrt hr
  | _ => exact hrelation rfl rfl

/-- The tokens of a condition are what its text is made of. -/
theorem scans_condition {c : Condition} (h : c.Uncast) (hr : Delimited rest) :
    Scans ((c.text d).toList ++ rest) (c.tokens d) rest := by
  induction c generalizing rest with
  | constant b => exact scans_constant d b hr
  | compare op left right => exact scans_comparison d op h.1 h.2 hr
  | missing subject => exact scans_nullTest h hr
  | present subject =>
    rw [Condition.text, String.toList_append, List.append_assoc]
    exact (scans_term d h (.space _)).append (scans_isNotNull hr)
  | oneOf subject items orBlank => exact scans_oneOf h.1 h.2 orBlank hr
  | not inner ih =>
    rw [Condition.text, String.toList_append, List.append_assoc]
    exact (scans_word (w := "NOT") rfl rfl rfl (.space _)).append
      ((scans_space _).append (ih h hr))
  | join op left right ihl ihr =>
    have ht := (ihl h.1 (.space _)).append (scans_join op (ihr h.2 (.rightParen rest)))
    have hs : Scans ((left.text d ++ " " ++ op.keyword ++ " " ++ right.text d).toList ++ ')' :: rest)
        (left.tokens d ++ .word op.keyword :: right.tokens d) (')' :: rest) := by
      simp only [String.toList_append, List.append_assoc]
      exact ht
    have hp := scans_parens hs
    simp only [String.append_assoc] at hp
    simp only [Condition.text, Condition.tokens, String.append_assoc]
    exact hp
  | verbatim => exact absurd h id

theorem scan_text {c : Condition} (h : c.Uncast) :
    Scanner.gap.scan (c.text d).toList = some (c.tokens d) := by
  have hs := scans_condition (d := d) h .nil
  unfold Scans at hs
  rw [List.append_nil] at hs
  rw [hs]
  exact congrArg some (List.append_nil _)

end Sql

end RecordFilter
