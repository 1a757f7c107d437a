import Mathlib.Data.List.TakeWhile
import RecordFilter.Proofs.Results
import RecordFilter.Proofs.Timestamp.Calendar

/-!
# The forms of a timestamp

The forms of RFC 3339 timestamps and of bare dates, as texts put together from
fields, and the instants they stand for.  The readers accept the texts of these
forms whose fields are in range, and no others, and read the instant.

    Rfc3339 text l → l.Valid → ofRfc3339 text = .ok l.moment          (ofRfc3339_of_valid)
    ofRfc3339 text = .ok t → ∃ l, Rfc3339 text l ∧ l.Valid ∧ t = l.moment
                                                                  (rfc3339_of_ofRfc3339)
    ofDate? text = some t → ∃ d, BareDate text d ∧ ...                (bareDate_of_ofDate?)
-/

namespace RecordFilter

namespace Timestamp

/-! ## Fields -/

/-- Digits, at least and at most so many, and the number they write. -/
structure Numeral (least most : Nat) (cs : List Char) (n : Nat) : Prop where
  least_le : least ≤ cs.length
  le_most : cs.length ≤ most
  digits : ∀ c ∈ cs, isDigit c = true
  value : ofDigits cs = n

instance (least most : Nat) (cs : List Char) (n : Nat) : Decidable (Numeral least most cs n) :=
  decidable_of_iff
    (least ≤ cs.length ∧ cs.length ≤ most ∧ cs.all isDigit = true ∧ ofDigits cs = n)
    ⟨fun ⟨h1, h2, hdigits, hvalue⟩ => ⟨h1, h2, List.all_eq_true.1 hdigits, hvalue⟩,
      fun h => ⟨h.least_le, h.le_most, List.all_eq_true.2 h.digits, h.value⟩⟩

/-- A date `YYYY-MM-DD`. -/
inductive FullDate : List Char → Date → Prop
  | mk {yyyy mm dd : List Char} {year month day : Nat} :
    Numeral 4 4 yyyy year → Numeral 2 2 mm month → Numeral 2 2 dd day →
    FullDate (yyyy ++ '-' :: (mm ++ '-' :: dd)) ⟨year, month, day⟩

/-- The digits of a second behind its point, which are missing where there is no point. -/
inductive Fraction : List Char → List Char → Prop
  | none : Fraction [] []
  | digits {ds : List Char} :
    ds ≠ [] → (∀ c ∈ ds, isDigit c = true) → Fraction ('.' :: ds) ds

/-- An offset from UTC and its minutes. -/
inductive Offset : List Char → Int → Prop
  | utc {c : Char} : c = 'Z' ∨ c = 'z' → Offset [c] 0
  | ahead {hh mm : List Char} {hour minute : Nat} :
    Numeral 2 2 hh hour → Numeral 2 2 mm minute → minute < 60 →
    Offset ('+' :: (hh ++ ':' :: mm)) (hour * 60 + minute)
  | behind {c : Char} {hh mm : List Char} {hour minute : Nat} :
    c = '-' ∨ c = '\u2212' → Numeral 2 2 hh hour → Numeral 2 2 mm minute → minute < 60 →
    Offset (c :: (hh ++ ':' :: mm)) (-(hour * 60 + minute))

/-! ## RFC 3339 -/

/-- The fields of a timestamp: a local date and time, the digits behind the point of its second,
and the minutes by which it is ahead of UTC. -/
structure LocalTime where
  date : Date
  hour : Nat
  minute : Nat
  second : Nat
  fraction : List Char
  offset : Int

/-- A text of the form `YYYY-MM-DDTHH:MM:SS`, with a fraction of a second and an offset. -/
inductive Rfc3339 (text : String) : LocalTime → Prop
  | mk {day hh mm ss point zone ds : List Char} {separator : Char} {date : Date}
      {hour minute second : Nat} {offset : Int} :
    FullDate day date → separator ∈ ['t', 'T', ' '] → Numeral 2 2 hh hour →
    Numeral 2 2 mm minute → Numeral 2 2 ss second → Fraction point ds → Offset zone offset →
    text.toList = day ++ separator :: (hh ++ ':' :: (mm ++ ':' :: (ss ++ (point ++ zone)))) →
    Rfc3339 text ⟨date, hour, minute, second, ds, offset⟩

namespace LocalTime

/-- Whether there is such a time: a second of 60 is a leap second, which any minute may have. -/
@[mk_iff]
structure Valid (l : LocalTime) : Prop where
  date : l.date.exists? = true
  hour : l.hour < 24
  minute : l.minute < 60
  second : l.second ≤ 60
  offset : l.offset.natAbs < 1440

instance (l : LocalTime) : Decidable l.Valid := decidable_of_iff _ (valid_iff l).symm

/-- What the reader makes of the digits of a fraction. -/
def nanosecond (l : LocalTime) : Nat :=
  ofDigits (l.fraction.take 9) * pow10 (9 - (l.fraction.take 9).length)

theorem nanosecond_of_nil {l : LocalTime} (h : l.fraction = []) : l.nanosecond = 0 := by
  rw [nanosecond, h]
  exact Nat.zero_mul _

/-- What the reader makes of a timestamp: a leap second prolongs the second before it. -/
def moment (l : LocalTime) : Timestamp :=
  ofLocal l.date (l.hour * 3600 + l.minute * 60 + min l.second 59)
    (l.nanosecond + if l.second = 60 then 1000000000 else 0) (l.offset * 60)

end LocalTime

/-! ## Bare dates -/

/-- A year: four digits at most, or any number of digits behind a sign. -/
inductive Year : List Char → Int → Prop
  | plain {ds : List Char} {n : Nat} : Numeral 1 4 ds n → Year ds n
  | ahead {ds : List Char} {n : Nat} : Numeral 1 ds.length ds n → Year ('+' :: ds) n
  | behind {ds : List Char} {n : Nat} : Numeral 1 ds.length ds n → Year ('-' :: ds) (-n)

/-- A text of the form `YYYY-MM-DD`, whose numbers may be shorter and may stand behind white
space. -/
inductive BareDate (text : String) : Date → Prop
  | mk {blanks blanks' blanks'' yyyy mm dd : List Char} {year : Int} {month day : Nat} :
    (∀ c ∈ blanks, isWhiteSpace c = true) → (∀ c ∈ blanks', isWhiteSpace c = true) →
    (∀ c ∈ blanks'', isWhiteSpace c = true) → Year yyyy year → Numeral 1 2 mm month →
    Numeral 1 2 dd day →
    text.toList =
      blanks ++ (yyyy ++ '-' :: (blanks' ++ (mm ++ '-' :: (blanks'' ++ dd)))) →
    BareDate text ⟨year, month, day⟩

/-! ## Reading the fields -/

variable {least most : Nat} {cs used rest tail : List Char} {n : Nat}

theorem fixedDigits_append (h : Numeral n n used value) (tail : List Char) :
    fixedDigits n (used ++ tail) = .ok (value, tail) := by
  obtain ⟨h1, h2, hdigits, rfl⟩ := h
  have hlen : used.length = n := Nat.le_antisymm h2 h1
  subst hlen
  rw [fixedDigits, List.take_left, List.drop_left, if_pos ⟨rfl, List.all_eq_true.2 hdigits⟩]

theorem fixedDigits_eq_ok {value : Nat} (h : fixedDigits n cs = .ok (value, rest)) :
    ∃ used, Numeral n n used value ∧ cs = used ++ rest := by
  unfold fixedDigits at h
  simp only at h
  split at h
  · rename_i hds
    cases h
    exact ⟨cs.take n, ⟨hds.1.ge, hds.1.le, List.all_eq_true.1 hds.2, rfl⟩,
      (List.take_append_drop n cs).symm⟩
  · cases h

theorem oneOf_cons {allowed : List Char} {c : Char} (h : c ∈ allowed) (tail : List Char) :
    oneOf allowed (c :: tail) = .ok ((), tail) := by
  rw [oneOf, if_pos (List.contains_iff_mem.2 h)]

theorem oneOf_eq_ok {allowed : List Char} {u : Unit} (h : oneOf allowed cs = .ok (u, rest)) :
    ∃ c ∈ allowed, cs = c :: rest := by
  unfold oneOf at h
  split at h
  · cases h
  · split at h
    · rename_i hc
      cases h
      exact ⟨_, List.contains_iff_mem.1 hc, rfl⟩
    · cases h

theorem fraction_append {ds : List Char} (hne : ds ≠ []) (hd : ∀ c ∈ ds, isDigit c = true)
    (htail : ∀ c more, tail = c :: more → isDigit c = false) :
    fraction (ds ++ tail) = .ok (ofDigits (ds.take 9) * pow10 (9 - (ds.take 9).length), tail) := by
  obtain ⟨h1, h2⟩ := takeWhile_isDigit_append hd tail htail
  have hempty : (ds ++ tail).isEmpty = false := by simp [hne]
  simp only [fraction, h1, h2, hempty, List.isEmpty_eq_false_iff.2 hne, Bool.false_eq_true,
    if_false]

theorem fraction_eq_ok (h : fraction cs = .ok (n, rest)) :
    ∃ ds ≠ [], (∀ c ∈ ds, isDigit c = true) ∧ cs = ds ++ rest := by
  unfold fraction at h
  simp only at h
  split at h
  · cases h
  · split at h
    · cases h
    · rename_i hds
      cases h
      exact ⟨cs.takeWhile isDigit, by simpa using hds, fun c => List.mem_takeWhile_imp,
        List.takeWhile_append_dropWhile.symm⟩

/-- A number of two digits. -/
theorem numeral_two_iff {cs : List Char} :
    Numeral 2 2 cs n ↔ ∃ a b, cs = [a, b] ∧ isDigit a = true ∧ isDigit b = true ∧
      n = digitValue a * 10 + digitValue b := by
  constructor
  · rintro ⟨h1, h2, hd, rfl⟩
    obtain ⟨a, b, rfl⟩ := List.length_eq_two.1 (Nat.le_antisymm h2 h1)
    exact ⟨a, b, rfl, hd a (by simp), hd b (by simp), by simp [ofDigits, Nat.mul_comm]⟩
  · rintro ⟨a, b, rfl, ha, hb, rfl⟩
    exact ⟨Nat.le_refl _, Nat.le_refl _, by simp [ha, hb], by simp [ofDigits, Nat.mul_comm]⟩

theorem digitValue_lt {c : Char} (h : isDigit c = true) : digitValue c < 10 := by
  have := isDigit_iff_toNat.1 h
  rw [digitValue]
  omega

theorem offsetDigits_eq_ok {a b : Nat} (h : offsetDigits cs = .ok ((a, b), rest)) :
    ∃ used, Numeral 2 2 used (a * 10 + b) ∧ b < 10 ∧ cs = used ++ rest := by
  unfold offsetDigits at h
  split at h
  · rename_i c d cs
    split at h
    · rename_i hcd
      obtain ⟨hc, hd⟩ := Bool.and_eq_true_iff.1 hcd
      cases h
      exact ⟨[c, d], numeral_two_iff.2 ⟨c, d, rfl, hc, hd, rfl⟩, digitValue_lt hd, rfl⟩
    · cases h
  · split at h <;> cases h
  · cases h

theorem offsetColon_eq_ok {u : Unit} (h : offsetColon cs = .ok (u, rest)) : cs = ':' :: rest := by
  unfold offsetColon at h
  split at h <;> cases h
  rfl

theorem offsetAmount_eq_ok (h : offsetAmount cs = .ok (n, rest)) :
    ∃ hh mm hour minute, Numeral 2 2 hh hour ∧ Numeral 2 2 mm minute ∧ minute < 60 ∧
      cs = hh ++ ':' :: (mm ++ rest) := by
  obtain ⟨⟨⟨a, b⟩, cs₁⟩, hh, h₁⟩ := bind_eq_ok.1 h
  obtain ⟨⟨_, cs₂⟩, hcolon, h₂⟩ := bind_eq_ok.1 h₁
  obtain ⟨⟨⟨c, d⟩, cs₃⟩, hm, h₃⟩ := bind_eq_ok.1 h₂
  obtain ⟨hour, hhour, -, rfl⟩ := offsetDigits_eq_ok hh
  obtain rfl := offsetColon_eq_ok hcolon
  obtain ⟨minute, hminute, hd, rfl⟩ := offsetDigits_eq_ok hm
  dsimp only at h₃
  split at h₃
  · cases h₃
    exact ⟨hour, minute, _, _, hhour, hminute, by omega, rfl⟩
  · cases h₃

theorem offsetAmount_append {hh mm : List Char} {hour minute : Nat} (hhour : Numeral 2 2 hh hour)
    (hminute : Numeral 2 2 mm minute) (hlt : minute < 60) (tail : List Char) :
    offsetAmount (hh ++ ':' :: mm ++ tail) = .ok ((hour * 60 + minute) * 60, tail) := by
  obtain ⟨a, b, rfl, ha, hb, rfl⟩ := numeral_two_iff.1 hhour
  obtain ⟨c, d, rfl, hc, hd, rfl⟩ := numeral_two_iff.1 hminute
  have hsix : digitValue c < 6 := by omega
  simp [offsetAmount, offsetDigits, offsetColon, ha, hb, hc, hd, hsix, bind, Except.bind, pure,
    Except.pure]
  omega

theorem offset_append {zone : List Char} {o : Int} (h : Offset zone o) (tail : List Char) :
    offset (zone ++ tail) = .ok (o * 60, tail) := by
  cases h with
  | utc hc => rw [List.singleton_append, offset, if_pos hc, Int.zero_mul]
  | ahead hh hm hlt =>
    rw [List.cons_append, offset, if_neg (by decide), if_pos rfl, offsetAmount_append hh hm hlt]
    simp [bind, Except.bind, pure, Except.pure]
  | behind hc hh hm hlt =>
    rw [List.cons_append, offset, if_neg (by rcases hc with rfl | rfl <;> decide),
      if_neg (by rcases hc with rfl | rfl <;> decide), if_pos hc, offsetAmount_append hh hm hlt]
    simp [bind, Except.bind, pure, Except.pure]
    omega

theorem exists_of_offset {k : Int} (h : offset cs = .ok (k, rest)) :
    ∃ zone o, Offset zone o ∧ cs = zone ++ rest := by
  unfold offset at h
  split at h
  · cases h
  rename_i c cs
  split at h
  · rename_i hc
    cases h
    exact ⟨[c], 0, .utc hc, rfl⟩
  split at h
  · rename_i hc
    obtain ⟨⟨n, rest'⟩, hn, h₁⟩ := bind_eq_ok.1 h
    obtain ⟨hh, mm, hour, minute, hhour, hminute, hlt, rfl⟩ := offsetAmount_eq_ok hn
    cases h₁
    exact ⟨_, _, .ahead hhour hminute hlt, by simp [hc]⟩
  split at h
  · rename_i hc
    obtain ⟨⟨n, rest'⟩, hn, h₁⟩ := bind_eq_ok.1 h
    obtain ⟨hh, mm, hour, minute, hhour, hminute, hlt, rfl⟩ := offsetAmount_eq_ok hn
    cases h₁
    exact ⟨_, _, .behind hc hhour hminute hlt, by simp⟩
  · cases h

/-! ## Reading a timestamp -/

/-- The first character of an offset is not a digit and not a point. -/
theorem Offset.head {zone : List Char} {o : Int} (h : Offset zone o) :
    ∃ c more, zone = c :: more ∧ isDigit c = false ∧ c ≠ '.' := by
  cases h with
  | utc hc => exact ⟨_, _, rfl, by rcases hc with rfl | rfl <;> decide⟩
  | ahead => exact ⟨_, _, rfl, by decide⟩
  | behind hc => exact ⟨_, _, rfl, by rcases hc with rfl | rfl <;> decide⟩

/-- A text has a byte for every character. -/
theorem length_le_utf8ByteSize (text : String) : text.toList.length ≤ text.utf8ByteSize := by
  rw [← String.utf8Len_toList]
  induction text.toList with
  | nil => exact Nat.zero_le _
  | cons c cs ih =>
    have := c.utf8Size_pos
    rw [String.utf8Len_cons, List.length_cons]
    omega

theorem Rfc3339.length_le {text : String} {l : LocalTime} (h : Rfc3339 text l) :
    20 ≤ text.toList.length := by
  cases h with
  | mk hdate _ hh hm hs _ hzone htext =>
    cases hdate with
    | mk hyear hmonth hday =>
      obtain ⟨c, more, rfl, -⟩ := hzone.head
      have := hyear.least_le
      have := hmonth.least_le
      have := hday.least_le
      have := hh.least_le
      have := hm.least_le
      have := hs.least_le
      rw [htext]
      simp only [List.length_append, List.length_cons]
      omega

variable {text : String} {l : LocalTime}

/-- The checks on the fields of a timestamp, which all have the same problem. -/
theorem check_eq (l : LocalTime) :
    (if (!l.date.exists?) = true then .error .outOfRange
      else if 24 ≤ l.hour ∨ 60 ≤ l.minute ∨ 60 < l.second then .error .outOfRange
      else if 86400 ≤ (l.offset * 60).natAbs then .error .outOfRange
      else .ok (ofLocal l.date
        (l.hour * 3600 + l.minute * 60 +
          (if l.second = 60 then (59, l.nanosecond + 1000000000) else (l.second, l.nanosecond)).1)
        (if l.second = 60 then (59, l.nanosecond + 1000000000) else (l.second, l.nanosecond)).2
        (l.offset * 60)) : Except Problem Timestamp) =
      if l.Valid then .ok l.moment else .error .outOfRange := by
  by_cases hv : l.Valid
  · have ⟨hdate, hh, hm, hs, ho⟩ := hv
    rw [if_neg (by simp [hdate]), if_neg (by omega), if_neg (by omega), if_pos hv,
      LocalTime.moment]
    split
    · rename_i h60
      rw [h60]
      rfl
    · rw [Nat.min_eq_left (by omega)]
      rfl
  · rw [if_neg hv]
    simp only [LocalTime.valid_iff] at hv
    split_ifs with hdate htime hoffset
    · rfl
    · rfl
    · rfl
    · exact absurd ⟨by simpa using hdate, by omega, by omega, by omega, by omega⟩ hv

/-- The reader on a text of the form: only its checks can fail. -/
theorem ofRfc3339_eq (h : Rfc3339 text l) :
    ofRfc3339 text = if l.Valid then .ok l.moment else .error .outOfRange := by
  have hlen := Nat.le_trans h.length_le (length_le_utf8ByteSize text)
  have hshort : ¬text.utf8ByteSize < 19 := by omega
  cases h with
  | mk hdate hsep hh hm hs hfraction hzone htext =>
  cases hdate with
  | mk hyear hmonth hday =>
  have hoffset := offset_append hzone []
  obtain ⟨c, more, rfl, hc, hpoint⟩ := hzone.head
  have hstop : ∀ d ds, c :: more = d :: ds → isDigit d = false := by
    rintro _ _ ⟨⟩
    exact hc
  rw [List.append_nil] at hoffset
  rw [← check_eq]
  simp only [ofRfc3339, hshort, if_false, htext, List.append_assoc, List.cons_append,
    fixedDigits_append hyear, fixedDigits_append hmonth, fixedDigits_append hday,
    fixedDigits_append hh, fixedDigits_append hm, fixedDigits_append hs, oneOf_cons hsep,
    oneOf_cons (List.mem_singleton_self _), bind, Except.bind, pure, Except.pure]
  cases hfraction with
  | none =>
    refine ite_congr rfl (fun _ => rfl) fun _ => ?_
    rw [List.nil_append]
    split
    · rename_i hcs
      exact absurd (List.cons_eq_cons.1 hcs).1 hpoint
    · rw [LocalTime.nanosecond_of_nil rfl]
      simp only [hoffset, List.isEmpty_nil, Bool.not_true, Bool.false_eq_true, if_false]
  | digits hne hds =>
    simp only [List.cons_append, fraction_append hne hds hstop, hoffset, List.isEmpty_nil,
      Bool.not_true, Bool.false_eq_true, if_false]
    rfl

/-- A failed check ends the reading. -/
theorem error_bind {α β : Type} (e : Problem) (f : α → Except Problem β) :
    (Except.error e >>= f) = .error e := rfl

/-- The end of the reading: the times are checked, and the rest is an offset. -/
theorem exists_offset {c : Prop} [Decidable c] {f : Int × List Char → Except Problem Timestamp}
    {t : Timestamp}
    (h : (if c then .error .outOfRange else do
      let x ← offset cs
      if (!x.2.isEmpty) = true then .error .trailing else f x) = .ok t) :
    ∃ o, Offset cs o := by
  split at h
  · cases h
  obtain ⟨⟨k, rest⟩, hoffset, h₁⟩ := bind_eq_ok.1 h
  split at h₁
  · cases h₁
  rename_i hempty
  obtain ⟨zone, o, hzone, rfl⟩ := exists_of_offset hoffset
  obtain rfl : rest = [] := by simpa using hempty
  exact ⟨o, by rwa [List.append_nil]⟩

/-- What the reader accepts has the form. -/
theorem exists_rfc3339 {t : Timestamp} (h : ofRfc3339 text = .ok t) : ∃ l, Rfc3339 text l := by
  dsimp only [ofRfc3339, error_bind] at h
  split at h
  · cases h
  obtain ⟨⟨year, cs₁⟩, hyear, h₁⟩ := bind_eq_ok.1 h
  obtain ⟨⟨_, cs₂⟩, hdash, h₂⟩ := bind_eq_ok.1 h₁
  obtain ⟨⟨month, cs₃⟩, hmonth, h₃⟩ := bind_eq_ok.1 h₂
  obtain ⟨⟨_, cs₄⟩, hdash', h₄⟩ := bind_eq_ok.1 h₃
  obtain ⟨⟨day, cs₅⟩, hday, h₅⟩ := bind_eq_ok.1 h₄
  split at h₅
  · cases h₅
  obtain ⟨⟨_, cs₆⟩, hsep, h₆⟩ := bind_eq_ok.1 h₅
  obtain ⟨⟨hour, cs₇⟩, hhour, h₇⟩ := bind_eq_ok.1 h₆
  obtain ⟨⟨_, cs₈⟩, hcolon, h₈⟩ := bind_eq_ok.1 h₇
  obtain ⟨⟨minute, cs₉⟩, hminute, h₉⟩ := bind_eq_ok.1 h₈
  obtain ⟨⟨_, cs₁₀⟩, hcolon', h₁₀⟩ := bind_eq_ok.1 h₉
  obtain ⟨⟨second, cs₁₁⟩, hsecond, h₁₁⟩ := bind_eq_ok.1 h₁₀
  obtain ⟨point, ds, zone, o, hpoint, hzone, hend⟩ : ∃ point ds zone o,
      Fraction point ds ∧ Offset zone o ∧ cs₁₁ = point ++ zone := by
    split at h₁₁ <;> obtain ⟨⟨n, cs₁₂⟩, hn, h₁₂⟩ := bind_eq_ok.1 h₁₁ <;>
      obtain ⟨o, ho⟩ := exists_offset h₁₂
    · rename_i heq
      obtain ⟨ds, hne, hds, rfl⟩ := fraction_eq_ok hn
      exact ⟨_, ds, _, o, .digits hne hds, ho, heq⟩
    · cases hn
      exact ⟨[], [], _, o, .none, ho, rfl⟩
  obtain ⟨yyyy, hyyyy, htext⟩ := fixedDigits_eq_ok hyear
  obtain ⟨mm, hmm, h3⟩ := fixedDigits_eq_ok hmonth
  obtain ⟨dd, hdd, h5⟩ := fixedDigits_eq_ok hday
  obtain ⟨hh, hhh, h7⟩ := fixedDigits_eq_ok hhour
  obtain ⟨min, hmin, h9⟩ := fixedDigits_eq_ok hminute
  obtain ⟨ss, hss, h11⟩ := fixedDigits_eq_ok hsecond
  obtain ⟨_, hdash, h2⟩ := oneOf_eq_ok hdash
  obtain ⟨_, hdash', h4⟩ := oneOf_eq_ok hdash'
  obtain ⟨separator, hsep, h6⟩ := oneOf_eq_ok hsep
  obtain ⟨_, hcolon, h8⟩ := oneOf_eq_ok hcolon
  obtain ⟨_, hcolon', h10⟩ := oneOf_eq_ok hcolon'
  refine ⟨_, .mk (.mk hyyyy hmm hdd) hsep hhh hmin hss hpoint hzone ?_⟩
  simp only [List.mem_singleton] at hdash hdash' hcolon hcolon'
  simp only at h2 h3 h4 h5 h6 h7 h8 h9 h10 h11
  rw [htext, h2, h3, h4, h5, h6, h7, h8, h9, h10, h11, hend, hdash, hdash', hcolon, hcolon']
  simp

theorem rfc3339_of_ofRfc3339 {t : Timestamp} (h : ofRfc3339 text = .ok t) :
    ∃ l, Rfc3339 text l ∧ l.Valid ∧ t = l.moment := by
  obtain ⟨l, hl⟩ := exists_rfc3339 h
  rw [ofRfc3339_eq hl] at h
  split at h
  · rename_i hv
    cases h
    exact ⟨l, hl, hv, rfl⟩
  · cases h

/-! ## Reading a bare date -/

theorem Numeral.exists_cons (h : Numeral 1 most used n) :
    ∃ c more, used = c :: more ∧ isDigit c = true := by
  obtain ⟨c, more, rfl⟩ := List.exists_cons_of_length_pos h.least_le
  exact ⟨c, more, rfl, h.digits c List.mem_cons_self⟩

theorem leadingDigits?_append (h : Numeral 1 most used n)
    (htail : ∀ c more, tail = c :: more → isDigit c = false) :
    leadingDigits? most (used ++ tail) = some (n, tail) := by
  obtain ⟨c, more, hused, -⟩ := h.exists_cons
  obtain ⟨h1, -⟩ := takeWhile_isDigit_append h.digits tail htail
  have hempty : used.isEmpty = false := by rw [hused]; rfl
  simp only [leadingDigits?, h1, List.take_of_length_le h.le_most, hempty, Bool.false_eq_true,
    if_false, List.drop_left, h.value]

theorem leadingDigits?_eq_some (h : leadingDigits? most cs = some (n, rest)) :
    ∃ used, Numeral 1 most used n ∧ cs = used ++ rest := by
  unfold leadingDigits? at h
  simp only at h
  split at h
  · cases h
  rename_i hds
  cases h
  have hprefix : (cs.takeWhile isDigit).take most <+: cs :=
    (List.take_prefix _ _).trans (List.takeWhile_prefix _)
  refine ⟨_, ⟨?_, List.length_take_le _ _, fun c hc => ?_, rfl⟩,
    (List.prefix_iff_eq_append.1 hprefix).symm⟩
  · exact List.length_pos_iff.2 (by simpa using hds)
  · exact List.mem_takeWhile_imp (List.mem_of_mem_take hc)

theorem Numeral.mono {most' : Nat} (h : Numeral least most used n) (hle : used.length ≤ most') :
    Numeral least most' used n :=
  ⟨h.least_le, hle, h.digits, h.value⟩

/-- A year without a sign is read up to the fourth digit. -/
theorem leadingYear?_of_isDigit {c : Char} (h : isDigit c = true) (cs : List Char) :
    leadingYear? (c :: cs) = (leadingDigits? 4 (c :: cs)).map fun (n, rest) => ((n : Int), rest) := by
  unfold leadingYear?
  split
  · rename_i heq
    obtain ⟨rfl, -⟩ := List.cons_eq_cons.1 heq
    exact absurd h (by decide)
  · rename_i heq
    obtain ⟨rfl, -⟩ := List.cons_eq_cons.1 heq
    exact absurd h (by decide)
  · rfl

theorem leadingYear?_append {year : Int} (h : Year used year)
    (htail : ∀ c more, tail = c :: more → isDigit c = false) :
    leadingYear? (used ++ tail) = some (year, tail) := by
  cases h with
  | plain hds =>
    have hread := leadingDigits?_append hds htail
    obtain ⟨c, more, rfl, hc⟩ := hds.exists_cons
    rw [List.cons_append] at hread ⊢
    rw [leadingYear?_of_isDigit hc, hread]
    rfl
  | ahead hds =>
    rw [List.cons_append, leadingYear?, leadingDigits?_append (hds.mono (by simp)) htail]
    rfl
  | behind hds =>
    rw [List.cons_append, leadingYear?, leadingDigits?_append (hds.mono (by simp)) htail]
    rfl

theorem leadingYear?_eq_some {year : Int} (h : leadingYear? cs = some (year, rest)) :
    ∃ used, Year used year ∧ cs = used ++ rest := by
  unfold leadingYear? at h
  split at h <;> obtain ⟨⟨n, rest'⟩, hn, h₁⟩ := Option.map_eq_some_iff.1 h <;>
    obtain ⟨used, hused, rfl⟩ := leadingDigits?_eq_some hn <;> cases h₁
  · exact ⟨_, .behind (hused.mono (Nat.le_refl _)), rfl⟩
  · exact ⟨_, .ahead (hused.mono (Nat.le_refl _)), rfl⟩
  · exact ⟨_, .plain hused, rfl⟩

theorem afterHyphen?_eq_some (h : afterHyphen? cs = some rest) :
    ∃ blanks : List Char, (∀ c ∈ blanks, isWhiteSpace c = true) ∧ cs = '-' :: (blanks ++ rest) := by
  unfold afterHyphen? at h
  split at h
  · rename_i cs
    cases h
    exact ⟨cs.takeWhile isWhiteSpace, fun c => List.mem_takeWhile_imp,
      by rw [List.takeWhile_append_dropWhile]⟩
  · cases h

theorem isWhiteSpace_of_isDigit {c : Char} (h : isDigit c = true) : isWhiteSpace c = false := by
  have := isDigit_iff_toNat.1 h
  simp only [isWhiteSpace, Bool.or_eq_false_iff, Bool.and_eq_false_iff, decide_eq_false_iff_not,
    beq_eq_false_iff_ne]
  omega

/-- No number and no year begins with white space. -/
def Starts (cs : List Char) : Prop := ∃ c more, cs = c :: more ∧ isWhiteSpace c = false

theorem Numeral.starts (h : Numeral 1 most used n) : Starts used :=
  h.exists_cons.imp fun _ => Exists.imp fun _ => And.imp_right isWhiteSpace_of_isDigit

theorem Year.starts {year : Int} (h : Year used year) : Starts used := by
  cases h with
  | plain hds => exact hds.starts
  | ahead => exact ⟨_, _, rfl, by decide⟩
  | behind => exact ⟨_, _, rfl, by decide⟩

theorem dropWhile_blanks_append {blanks : List Char} (h : ∀ c ∈ blanks, isWhiteSpace c = true)
    (hused : Starts used) (tail : List Char) :
    (blanks ++ (used ++ tail)).dropWhile isWhiteSpace = used ++ tail := by
  obtain ⟨c, more, rfl, hc⟩ := hused
  rw [List.dropWhile_append_of_pos h, List.cons_append, List.dropWhile_cons_of_neg (by simp [hc])]

/-- A number behind a hyphen and white space. -/
theorem afterHyphen?_append {blanks : List Char} (h : ∀ c ∈ blanks, isWhiteSpace c = true)
    (hused : Starts used) (tail : List Char) :
    afterHyphen? ('-' :: (blanks ++ (used ++ tail))) = some (used ++ tail) := by
  rw [afterHyphen?, dropWhile_blanks_append h hused]

/-- The reader on a text of the form: the date must exist, and its year lie in the range of
years. -/
theorem ofDate?_eq {d : Date} (h : BareDate text d) :
    ofDate? text =
      if d.exists? = true ∧ -262143 ≤ d.year ∧ d.year ≤ 262142 then some (ofLocal d 0 0 0)
      else none := by
  cases h with
  | @mk _ _ _ yyyy mm dd _ _ _ hblanks hblanks' hblanks'' hyear hmonth hday htext =>
  have hhyphen (cs : List Char) : ∀ c more, '-' :: cs = c :: more → isDigit c = false := by
    rintro _ _ ⟨⟩
    decide
  have hend : leadingDigits? 2 (dd ++ []) = _ := leadingDigits?_append hday nofun
  have hafter := afterHyphen?_append hblanks'' hday.starts []
  rw [List.append_nil] at hend hafter
  simp only [ofDate?, htext, dropWhile_blanks_append hblanks hyear.starts,
    leadingYear?_append hyear (hhyphen _), afterHyphen?_append hblanks' hmonth.starts, hafter,
    leadingDigits?_append hmonth (hhyphen _), hend, bind, Option.bind, pure, List.isEmpty_nil,
    true_and]

theorem exists_bareDate {t : Timestamp} (h : ofDate? text = some t) : ∃ d, BareDate text d := by
  obtain ⟨⟨year, cs₁⟩, hyear, h₁⟩ := Option.bind_eq_some_iff.1 h
  obtain ⟨cs₂, hhyphen, h₂⟩ := Option.bind_eq_some_iff.1 h₁
  obtain ⟨⟨month, cs₃⟩, hmonth, h₃⟩ := Option.bind_eq_some_iff.1 h₂
  obtain ⟨cs₄, hhyphen', h₄⟩ := Option.bind_eq_some_iff.1 h₃
  obtain ⟨⟨day, cs₅⟩, hday, h₅⟩ := Option.bind_eq_some_iff.1 h₄
  dsimp only at h₅
  split at h₅
  · rename_i hchecks
    obtain ⟨yyyy, hyyyy, htext⟩ := leadingYear?_eq_some hyear
    obtain ⟨mm, hmm, h2⟩ := leadingDigits?_eq_some hmonth
    obtain ⟨dd, hdd, h4⟩ := leadingDigits?_eq_some hday
    obtain ⟨blanks', hblanks', h1⟩ := afterHyphen?_eq_some hhyphen
    obtain ⟨blanks'', hblanks'', h3⟩ := afterHyphen?_eq_some hhyphen'
    have hblanks (c) (hc : c ∈ text.toList.takeWhile isWhiteSpace) := List.mem_takeWhile_imp hc
    refine ⟨_, .mk hblanks hblanks' hblanks'' hyyyy hmm hdd ?_⟩
    obtain rfl : cs₅ = [] := List.isEmpty_iff.1 hchecks.1
    have hwhole := List.takeWhile_append_dropWhile (p := isWhiteSpace) (l := text.toList)
    rw [htext, h1, h2, h3, h4, List.append_nil] at hwhole
    exact hwhole.symm
  · cases h₅

end Timestamp

end RecordFilter
