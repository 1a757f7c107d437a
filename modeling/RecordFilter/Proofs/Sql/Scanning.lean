import RecordFilter.Proofs.Sql.Reader
import RecordFilter.Proofs.Token.Spelling
import RecordFilter.Sql.Condition

/-!
# Scanning quoted texts, words and numbers

A scanner that has read a token to its end goes on behind it as it would from the
start, so the tokens of a text are those of its pieces.

    Scans cs ts rest        the tokens of cs are ts, and then those of rest
-/

namespace RecordFilter

namespace Sql

/-- The tokens of a text are some tokens, and then those of the rest. -/
def Scans (cs : List Char) (ts : List Token) (rest : List Char) : Prop :=
  Scanner.gap.scan cs = (Scanner.gap.scan rest).map (ts ++ ·)

namespace Scans

theorem nil (cs : List Char) : Scans cs [] cs := by
  unfold Scans
  cases Scanner.gap.scan cs <;> rfl

theorem append {cs mid rest : List Char} {ts us : List Token} (h : Scans cs ts mid)
    (h' : Scans mid us rest) : Scans cs (ts ++ us) rest := by
  unfold Scans at *
  rw [h, h', Option.map_map]
  congr 1
  funext vs
  exact (List.append_assoc ts us vs).symm

end Scans

/-! ## Where a token ends -/

/-- Whether a token ends before a text. -/
def Scanner.Breaks (s : Scanner) : List Char → Prop
  | [] => True
  | c :: _ => s.extend c = none

theorem scan_gap_cons (c : Char) (cs : List Char) :
    Scanner.gap.scan (c :: cs) =
      ((Scanner.start c).2.scan cs).map ((Scanner.start c).1 ++ ·) := rfl

/-- Behind a token that ends, the scanner goes on as from the start. -/
theorem scan_of_breaks {s : Scanner} {ts : List Token} {rest : List Char} (hs : s.finish = some ts)
    (hb : s.Breaks rest) : s.scan rest = (Scanner.gap.scan rest).map (ts ++ ·) := by
  cases rest with
  | nil =>
    show s.finish = some (ts ++ [])
    rw [hs, List.append_nil]
  | cons c cs =>
    rw [scan_gap_cons, Option.map_map, Scanner.scan, Scanner.step, show s.extend c = none from hb, hs]
    show ((Scanner.start c).2.scan cs).map (ts ++ (Scanner.start c).1 ++ ·) = _
    congr 1
    funext us
    exact List.append_assoc _ _ _

/-- A character that the token at hand takes. -/
theorem scan_extend {s s' : Scanner} {c : Char} (h : s.extend c = some ([], s')) (cs : List Char) :
    s.scan (c :: cs) = s'.scan cs := by
  rw [Scanner.scan, Scanner.step, h]
  show (s'.scan cs).map ([] ++ ·) = s'.scan cs
  cases s'.scan cs <;> rfl

/-! ## Quoted texts -/

/-- A text with its quotes written twice. -/
def doubled (q : Quote) (cs : List Char) : List Char :=
  cs.flatMap fun c => if c = q.char then [q.char, q.char] else [c]

theorem extend_quoted (q : Quote) (seen : List Char) {c : Char} (h : c ≠ q.char) :
    (Scanner.quoted q seen).extend c = some ([], .quoted q (c :: seen)) := by
  rw [Scanner.extend, if_neg h]

theorem extend_quoted_quote (q : Quote) (seen : List Char) :
    (Scanner.quoted q seen).extend q.char = some ([], .closing q seen) := by
  rw [Scanner.extend, if_pos rfl]

theorem extend_closing_quote (q : Quote) (seen : List Char) :
    (Scanner.closing q seen).extend q.char = some ([], .quoted q (q.char :: seen)) := by
  rw [Scanner.extend, if_pos rfl]

theorem scan_quoted (q : Quote) (cs seen rest : List Char) :
    (Scanner.quoted q seen).scan (doubled q cs ++ q.char :: rest) =
      (Scanner.closing q (cs.reverse ++ seen)).scan rest := by
  induction cs generalizing seen with
  | nil => exact scan_extend (extend_quoted_quote q seen) rest
  | cons c cs ih =>
    rw [List.reverse_cons, List.append_assoc, List.singleton_append, ← ih (c :: seen)]
    by_cases hc : c = q.char
    · have hd : doubled q (c :: cs) = q.char :: q.char :: doubled q cs := by
        simp [doubled, hc]
      rw [hd, hc, List.cons_append, List.cons_append, scan_extend (extend_quoted_quote q seen),
        scan_extend (extend_closing_quote q seen)]
    · have hd : doubled q (c :: cs) = c :: doubled q cs := by
        simp [doubled, hc]
      rw [hd, List.cons_append, scan_extend (extend_quoted q seen hc)]

theorem start_quote (q : Quote) : Scanner.start q.char = ([], .quoted q []) := by
  cases q <;> rfl

/-- A quoted text is one token, unless a quote follows it. -/
theorem scans_quoted (q : Quote) (cs : List Char) {rest : List Char}
    (hr : ∀ c cs, rest = c :: cs → c ≠ q.char) :
    Scans (q.char :: (doubled q cs ++ q.char :: rest)) [q.token (String.ofList cs)] rest := by
  have hb : (Scanner.closing q (cs.reverse ++ [])).Breaks rest := by
    cases rest with
    | nil => trivial
    | cons c cs => exact if_neg (hr c cs rfl)
  unfold Scans
  rw [scan_gap_cons, start_quote, scan_quoted, scan_of_breaks rfl hb, Option.map_map]
  congr 1
  funext ts
  show [q.token (String.ofList (cs.reverse ++ []).reverse)] ++ ts = _
  rw [List.append_nil, List.reverse_reverse]

/-! ## Words -/

theorem extend_word (seen : List Char) {c : Char} (h : (Scanner.isLetter c || isDigit c) = true) :
    (Scanner.word seen).extend c = some ([], .word (c :: seen)) := by
  rw [Scanner.extend, if_pos h]

theorem scan_word {cs : List Char} (h : ∀ c ∈ cs, (Scanner.isLetter c || isDigit c) = true)
    (seen rest : List Char) :
    (Scanner.word seen).scan (cs ++ rest) = (Scanner.word (cs.reverse ++ seen)).scan rest := by
  induction cs generalizing seen with
  | nil => rfl
  | cons c cs ih =>
    obtain ⟨hc, hcs⟩ := List.forall_mem_cons.1 h
    rw [List.reverse_cons, List.append_assoc, List.singleton_append, ← ih hcs (c :: seen)]
    exact scan_extend (extend_word seen hc) _

/-! ## Numbers -/

theorem extend_whole (seen : List Char) {c : Char} (h : isDigit c = true) :
    (Scanner.whole seen).extend c = some ([], .whole (c :: seen)) := by
  rw [Scanner.extend, if_pos h]

theorem extend_fraction (w seen : List Char) {c : Char} (h : isDigit c = true) :
    (Scanner.fraction w seen).extend c = some ([], .fraction w (c :: seen)) := by
  rw [Scanner.extend, if_pos h]

theorem scan_whole {ds : List Char} (h : ∀ c ∈ ds, isDigit c = true) (seen rest : List Char) :
    (Scanner.whole seen).scan (ds ++ rest) = (Scanner.whole (ds.reverse ++ seen)).scan rest := by
  induction ds generalizing seen with
  | nil => rfl
  | cons c cs ih =>
    obtain ⟨hc, hcs⟩ := List.forall_mem_cons.1 h
    rw [List.reverse_cons, List.append_assoc, List.singleton_append, ← ih hcs (c :: seen)]
    exact scan_extend (extend_whole seen hc) _

theorem scan_fraction {ds : List Char} (h : ∀ c ∈ ds, isDigit c = true)
    (w seen rest : List Char) :
    (Scanner.fraction w seen).scan (ds ++ rest) =
      (Scanner.fraction w (ds.reverse ++ seen)).scan rest := by
  induction ds generalizing seen with
  | nil => rfl
  | cons c cs ih =>
    obtain ⟨hc, hcs⟩ := List.forall_mem_cons.1 h
    rw [List.reverse_cons, List.append_assoc, List.singleton_append, ← ih hcs (c :: seen)]
    exact scan_extend (extend_fraction w seen hc) _

theorem start_digit {c : Char} (h : isDigit c = true) : Scanner.start c = ([], .whole [c]) := by
  have hne : ∀ d, isDigit d = false → c ≠ d := by
    rintro d hd rfl
    rw [h] at hd
    cases hd
  rw [Scanner.start, if_neg (hne _ (by decide)), if_neg (hne _ (by decide)),
    if_neg (hne _ (by decide)), if_pos h]

/-! ## One token -/

theorem breaks_of_delimited {s : Scanner} {rest : List Char} (h : Delimited rest)
    (hs : s.extend ' ' = none) (hp : s.extend ')' = none) (hc : s.extend ',' = none) :
    s.Breaks rest := by
  cases h with
  | nil => trivial
  | space => exact hs
  | rightParen => exact hp
  | comma => exact hc

theorem scans_space (cs : List Char) : Scans (' ' :: cs) [] cs := rfl

theorem scans_symbol {c : Char} {t : Token} (h : Scanner.start c = ([t], .gap)) (cs : List Char) :
    Scans (c :: cs) [t] cs := by
  unfold Scans
  rw [scan_gap_cons, h]

theorem scans_text (s : String) {rest : List Char} (h : Delimited rest) :
    Scans ((quoteSingle s).toList ++ rest) [.text s] rest := by
  have hne : ∀ c cs, rest = c :: cs → c ≠ Quote.single.char := by
    rintro c cs rfl
    rcases h.not_head rfl with rfl | rfl | rfl <;> decide
  have hq := scans_quoted .single s.toList hne
  have hs : (quoteSingle s).toList ++ rest =
      '\x27' :: (doubled .single s.toList ++ '\x27' :: rest) := by
    rw [quoteSingle, String.toList_ofList, List.cons_append, List.cons_append, List.append_assoc]
    rfl
  rw [hs]
  rw [String.ofList_toList] at hq
  exact hq

theorem scans_name (cs : List Char) {rest : List Char} (h : ∀ c cs, rest = c :: cs → c ≠ '"') :
    Scans ((quoteDouble cs).toList ++ rest) [.name (String.ofList cs)] rest := by
  have hs : (quoteDouble cs).toList ++ rest = '"' :: (doubled .double cs ++ '"' :: rest) := by
    rw [quoteDouble, String.toList_ofList, List.cons_append, List.cons_append, List.append_assoc]
    rfl
  rw [hs]
  exact scans_quoted .double cs h

/-- A word ends before whatever cannot be a part of it. -/
theorem scans_word_of_breaks {w : String} {c : Char} {cs : List Char} (hw : w.toList = c :: cs)
    (hc : Scanner.start c = ([], .word [c]))
    (h : cs.all (fun c => Scanner.isLetter c || isDigit c) = true) {rest : List Char}
    (hr : ∀ seen, (Scanner.word seen).Breaks rest) : Scans (w.toList ++ rest) [.word w] rest := by
  unfold Scans
  rw [hw, List.cons_append, scan_gap_cons, hc, scan_word (List.all_eq_true.1 h),
    scan_of_breaks rfl (hr _), Option.map_map]
  congr 1
  funext ts
  show [Token.word (String.ofList (cs.reverse ++ [c]).reverse)] ++ ts = _
  have hcs : (cs.reverse ++ [c]).reverse = c :: cs := by
    rw [List.reverse_append, List.reverse_reverse]
    rfl
  rw [hcs, ← hw, String.ofList_toList]

theorem scans_word {w : String} {c : Char} {cs : List Char} (hw : w.toList = c :: cs)
    (hc : Scanner.start c = ([], .word [c]))
    (h : cs.all (fun c => Scanner.isLetter c || isDigit c) = true) {rest : List Char}
    (hr : Delimited rest) : Scans (w.toList ++ rest) [.word w] rest :=
  scans_word_of_breaks hw hc h fun _ => breaks_of_delimited hr rfl rfl rfl

/-- Digits are one number, unless a digit or a point follows them. -/
theorem scans_digits {ds : List Char} (hne : ds ≠ []) (h : ∀ c ∈ ds, isDigit c = true)
    {rest : List Char} (hr : ∀ seen, (Scanner.whole seen).Breaks rest) :
    Scans (ds ++ rest) [.number (ofDigits ds) 0] rest := by
  obtain ⟨c, cs, rfl⟩ := List.exists_cons_of_ne_nil hne
  obtain ⟨hc, hcs⟩ := List.forall_mem_cons.1 h
  unfold Scans
  rw [List.cons_append, scan_gap_cons, start_digit hc, scan_whole hcs, scan_of_breaks rfl (hr _),
    Option.map_map]
  congr 1
  funext ts
  show [Token.number (ofDigits (cs.reverse ++ [c]).reverse) 0] ++ ts = _
  rw [List.reverse_append, List.reverse_reverse]
  rfl

theorem scans_point {ds es : List Char} (hne : ds ≠ []) (h : ∀ c ∈ ds, isDigit c = true)
    (he : ∀ c ∈ es, isDigit c = true) {rest : List Char} (hr : Delimited rest) :
    Scans (ds ++ '.' :: (es ++ rest)) [.number (ofDigits (ds ++ es)) es.length] rest := by
  obtain ⟨c, cs, rfl⟩ := List.exists_cons_of_ne_nil hne
  obtain ⟨hc, hcs⟩ := List.forall_mem_cons.1 h
  have hb : (Scanner.fraction (cs.reverse ++ [c]) (es.reverse ++ [])).Breaks rest :=
    breaks_of_delimited hr rfl rfl rfl
  unfold Scans
  rw [List.cons_append, scan_gap_cons, start_digit hc, scan_whole hcs, scan_extend rfl,
    scan_fraction he, scan_of_breaks rfl hb, Option.map_map]
  congr 1
  funext ts
  show [Token.number (ofDigits ((cs.reverse ++ [c]).reverse ++ (es.reverse ++ []).reverse))
    (es.reverse ++ []).length] ++ ts = _
  rw [List.append_nil, List.reverse_append, List.reverse_reverse, List.reverse_reverse,
    List.length_reverse]
  rfl

end Sql

end RecordFilter
