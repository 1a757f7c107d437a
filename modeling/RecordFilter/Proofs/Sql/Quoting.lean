import RecordFilter.Proofs.Results
import RecordFilter.Proofs.Sql.Writing

/-!
# Quoted tokens of written conditions

Names and strings stand between quotes in the text of a condition and nowhere else.  Of its tokens,
`isQuoted` picks those, and `outline` is what is left when the quotes are emptied; terms that are
`Alike` differ only in the quoted tokens.

    (t.tokens d).filter isQuoted = t.quoted                                        (filter_tokens)
    t.Alike u → (t.tokens d).map outline = (u.tokens d).map outline               (outline_tokens)
-/

namespace RecordFilter

namespace Sql.Token

/-- Whether a token stands between quotes. -/
def isQuoted : Token → Bool
  | text _ => true
  | name _ => true
  | _ => false

/-- A token with nothing between its quotes. -/
def outline : Token → Token
  | text _ => text ""
  | name _ => name ""
  | t => t

/-- A string in lower case; other tokens are left alone. -/
def lowered : Token → Token
  | text s => text (lower s)
  | t => t

end Sql.Token

open Sql.Token (isQuoted outline lowered)

/-! ## Terms -/

namespace Term

/-- The quoted tokens of a term: the parts of a column's name, or a string. -/
def quoted : Term → List Sql.Token
  | column name _ => (splitParts '.' name.toList).map fun part => .name (String.ofList part)
  | string s => [.text s]
  | _ => []

/-- Terms that differ at most in a string, or in a name with as many dots. -/
inductive Alike : Term → Term → Prop
  | same (t : Term) : Alike t t
  | string (s t : String) : Alike (.string s) (.string t)
  | column {m n : String} : m.toList.count '.' = n.toList.count '.' →
      Alike (.column m none) (.column n none)

theorem filter_columnTokens (parts : List (List Char)) :
    (columnTokens parts).filter isQuoted = parts.map fun part => .name (String.ofList part) := by
  induction parts with
  | nil => rfl
  | cons part parts ih =>
    cases parts with
    | nil => rfl
    | cons q qs =>
      show .name (String.ofList part) :: (columnTokens (q :: qs)).filter isQuoted = _
      rw [ih]
      rfl

theorem filter_numberTokens (negative : Bool) (n k : Nat) :
    (numberTokens negative n k).filter isQuoted = [] := by
  cases negative <;> rfl

theorem filter_tokens (d : Dialect) (t : Term) : (t.tokens d).filter isQuoted = t.quoted := by
  cases t with
  | column name castType => exact filter_columnTokens _
  | boolean b => cases d <;> rfl
  | integer n => exact filter_numberTokens _ _ _
  | number negative m => exact filter_numberTokens _ _ _
  | null | string s => rfl

theorem quoted_folded (t : Term) : t.folded.quoted = t.quoted.map lowered := by
  cases t with
  | column name castType =>
    show (column name castType).quoted = _
    rw [quoted, List.map_map]
    rfl
  | _ => rfl

/-- A name has one part more than dots. -/
theorem length_splitParts (sep : Char) (cs : List Char) :
    (splitParts sep cs).length = cs.count sep + 1 := by
  induction cs with
  | nil => rfl
  | cons c cs ih =>
    rw [splitParts]
    by_cases hc : c = sep
    · rw [if_pos hc, List.length_cons, ih, hc, List.count_cons_self]
    · have hcount : (c :: cs).count sep = cs.count sep := List.count_cons_of_ne hc
      rw [if_neg hc, hcount]
      cases hs : splitParts sep cs with
      | nil =>
        rw [hs] at ih
        cases ih
      | cons part parts =>
        rw [hs] at ih
        exact ih

theorem outline_columnTokens {ps qs : List (List Char)} (h : ps.length = qs.length) :
    (columnTokens ps).map outline = (columnTokens qs).map outline := by
  induction ps generalizing qs with
  | nil =>
    obtain rfl : qs = [] := List.eq_nil_of_length_eq_zero h.symm
    rfl
  | cons p ps ih =>
    cases qs with
    | nil => cases h
    | cons q qs =>
      have hlength : ps.length = qs.length := Nat.succ.inj h
      have htail := ih hlength
      cases ps with
      | nil =>
        obtain rfl : qs = [] := List.eq_nil_of_length_eq_zero hlength.symm
        rfl
      | cons p' ps =>
        cases qs with
        | nil => cases hlength
        | cons q' qs =>
          simp only [columnTokens, List.map_cons, htail]
          rfl

theorem outline_tokens (d : Dialect) {t u : Term} (h : t.Alike u) :
    (t.tokens d).map outline = (u.tokens d).map outline := by
  cases h with
  | same => rfl
  | string s t => rfl
  | column hn =>
    apply outline_columnTokens
    rw [length_splitParts, length_splitParts, hn]

theorem Alike.folded {t u : Term} (h : t.Alike u) : t.folded.Alike u.folded := by
  cases h with
  | same => exact .same _
  | string s t => exact .string _ _
  | column hn => exact .column hn

theorem Alike.eq_null {u : Term} (h : null.Alike u) : u = null := by
  cases h
  rfl

end Term

/-! ## Conditions -/

namespace Condition

variable {d : Dialect} {l r l' r' : Term} {items items' : List Term}

/-- The quoted tokens of the right side of a comparison: the dialects treat patterns differently,
and one of them names the escape character. -/
def quotedPattern : Dialect → CompareOp → List Sql.Token → List Sql.Token
  | .cql, .ilike, ts => ts.map lowered
  | .sql, .ilike, ts => ts ++ [.name "\\"]
  | .sql, .like, ts => ts ++ [.name "\\"]
  | _, _, ts => ts

theorem filter_comparisonTokens (op : CompareOp) :
    (comparisonTokens d op l r).filter isQuoted = l.quoted ++ quotedPattern d op r.quoted := by
  have hcall : ∀ w ts, (callTokens w ts).filter isQuoted = ts.filter isQuoted := by
    intro w ts
    simp [callTokens, isQuoted]
  cases op with
  | ilike =>
    cases d with
    | sql =>
      simp [comparisonTokens, escapeTokens, hcall, Term.filter_tokens, quotedPattern, isQuoted]
    | cql => simp [comparisonTokens, hcall, Term.filter_tokens, Term.quoted_folded, quotedPattern]
  | like =>
    cases d with
    | sql => simp [comparisonTokens, escapeTokens, Term.filter_tokens, quotedPattern, isQuoted]
    | cql => simp [comparisonTokens, Term.filter_tokens, quotedPattern, isQuoted]
  | _ =>
    simp [comparisonTokens, relationTokens, CompareOp.relation?, Term.filter_tokens, quotedPattern,
      isQuoted]

theorem filter_separatedTokens (items : List Term) :
    (separatedTokens d items).filter isQuoted = items.flatMap Term.quoted := by
  induction items with
  | nil => rfl
  | cons t ts ih =>
    cases ts with
    | nil => simp [separatedTokens, Term.filter_tokens]
    | cons u us =>
      show (t.tokens d ++ .comma :: separatedTokens d (u :: us)).filter isQuoted = _
      rw [List.filter_append, Term.filter_tokens, List.flatMap_cons, ← ih]
      rfl

theorem filter_blankTokens :
    (blankTokens d l).filter isQuoted = l.quoted ++ l.quoted ++ [.text ""] := by
  simp [blankTokens, nullTokens, Term.filter_tokens, isQuoted]

theorem filter_listTokens :
    (listTokens d l items).filter isQuoted = l.quoted ++ items.flatMap Term.quoted := by
  simp [listTokens, Term.filter_tokens, filter_separatedTokens, isQuoted]

theorem filter_constantTokens (b : Bool) : (constantTokens d b).filter isQuoted = [] := by
  cases d <;> rfl

/-- The quoted tokens of a membership: its left side once for each test, and its entries. -/
theorem filter_oneOfTokens (orBlank : Bool) :
    (oneOfTokens d l items orBlank).filter isQuoted =
      (if orBlank then l.quoted ++ l.quoted ++ [.text ""] else []) ++
        if items.isEmpty then [] else l.quoted ++ items.flatMap Term.quoted := by
  unfold oneOfTokens
  cases orBlank with
  | true =>
    by_cases hi : items.isEmpty = true
    · simp [hi, filter_blankTokens, isQuoted]
    · simp [hi, filter_blankTokens, filter_listTokens, isQuoted]
  | false =>
    by_cases hi : items.isEmpty = true
    · simp [hi, filter_constantTokens]
    · simp [hi, filter_listTokens]

theorem outline_comparisonTokens (op : CompareOp) (hl : l.Alike l') (hr : r.Alike r') :
    (comparisonTokens d op l r).map outline = (comparisonTokens d op l' r').map outline := by
  have hlt := Term.outline_tokens d hl
  have hrt := Term.outline_tokens d hr
  cases op with
  | ilike =>
    have hrf := Term.outline_tokens .cql hr.folded
    cases d <;> simp [comparisonTokens, callTokens, hlt, hrt, hrf]
  | like => cases d <;> simp [comparisonTokens, hlt, hrt]
  | _ => simp [comparisonTokens, hlt, hrt]

theorem outline_separatedTokens (h : List.Forall₂ Term.Alike items items') :
    (separatedTokens d items).map outline = (separatedTokens d items').map outline := by
  induction h with
  | nil => rfl
  | cons ht hts ih =>
    have htt := Term.outline_tokens d ht
    cases hts with
    | nil => exact htt
    | cons hu hus =>
      simp only [separatedTokens, List.map_append, List.map_cons, htt] at ih ⊢
      rw [ih]

theorem outline_oneOfTokens (hl : l.Alike l') (h : List.Forall₂ Term.Alike items items')
    (orBlank : Bool) :
    (oneOfTokens d l items orBlank).map outline =
      (oneOfTokens d l' items' orBlank).map outline := by
  have hlt := Term.outline_tokens d hl
  have hit := outline_separatedTokens (d := d) h
  have hblank : (blankTokens d l).map outline = (blankTokens d l').map outline := by
    simp [blankTokens, nullTokens, hlt]
  have hlist : (listTokens d l items).map outline = (listTokens d l' items').map outline := by
    simp [listTokens, hlt, hit]
  unfold oneOfTokens
  rw [isEmpty_of_forall₂ h]
  cases orBlank with
  | true =>
    by_cases hi : items'.isEmpty = true
    · simp [hi, hblank]
    · simp [hi, hblank, hlist]
  | false =>
    by_cases hi : items'.isEmpty = true
    · simp [hi]
    · simp [hi, hlist]

end Condition

end RecordFilter
