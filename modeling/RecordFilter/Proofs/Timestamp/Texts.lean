import RecordFilter.Value.Comparison
import RecordFilter.Proofs.Timestamp.Instants

/-!
# The texts of timestamps

What is written of a moment determines its instant.  In the years with four digits it
has the form `YYYY-MM-DDTHH:MM:SS.sssZ` and is read again as the same moment, and such
texts are ordered as their instants are.  In other years the year has a sign and more
digits, and what is written is none of the forms that are read.
-/

namespace RecordFilter

namespace Timestamp

open Ordering

variable {t u : Timestamp} {o : Ordering}

/-! ## Fields -/

/-- What is written behind the year. -/
def rest (t : Timestamp) : List Char :=
  '-' :: (padded 2 t.date.month ++ '-' :: (padded 2 t.date.day ++ 'T' :: (padded 2 t.hour ++
    ':' :: (padded 2 t.minute ++ ':' :: (padded 2 t.secondOfMinute ++
      '.' :: (padded 3 t.millisecond ++ ['Z']))))))

theorem text_toList (t : Timestamp) : t.text.toList = yearText t.date.year ++ t.rest := by
  rw [text, String.toList_ofList]
  simp only [rest, date, hour, minute, secondOfMinute, millisecond, List.append_assoc,
    List.cons_append]

theorem date_exists (t : Timestamp) : t.date.exists? = true := Date.exists_ofNumber _

theorem month_lt (t : Timestamp) : t.date.month < 100 := by
  have := (Date.exists_iff _).1 t.date_exists
  omega

theorem day_lt (t : Timestamp) : t.date.day < 100 := by
  have := (Date.exists_iff _).1 t.date_exists
  have := Date.daysInMonth_le t.date.year t.date.month
  omega

/-- The order of two moments of a year, field by field. -/
def orderInYear (t u : Timestamp) : Ordering :=
  (cmp t.date.month u.date.month).then ((cmp t.date.day u.date.day).then
    ((cmp t.hour u.hour).then ((cmp t.minute u.minute).then
      ((cmp t.secondOfMinute u.secondOfMinute).then (cmp t.millisecond u.millisecond)))))

theorem compares_rest (ht : t.Sound) (hu : u.Sound) :
    (orderInYear t u).Compares t.rest u.rest := by
  obtain ⟨hh, hm, hs, hms⟩ := ht.bounds
  obtain ⟨hh', hm', hs', hms'⟩ := hu.bounds
  have htwo : pow10 2 = 100 := rfl
  have hthree : pow10 3 = 1000 := rfl
  have hlast : ((cmp t.millisecond u.millisecond).then .eq).Compares
      (padded 3 t.millisecond ++ ['Z']) (padded 3 u.millisecond ++ ['Z']) :=
    compares_padded_append (by decide) hms hms' (cmp_compares _ _) rfl
  rw [Ordering.then_eq] at hlast
  refine compares_cons _ (compares_padded_append (by decide) t.month_lt u.month_lt
    (cmp_compares _ _) ?_)
  refine compares_cons _ (compares_padded_append (by decide) t.day_lt u.day_lt
    (cmp_compares _ _) ?_)
  refine compares_cons _ (compares_padded_append (by decide) (by omega) (by omega)
    (cmp_compares _ _) ?_)
  refine compares_cons _ (compares_padded_append (by decide) (by omega) (by omega)
    (cmp_compares _ _) ?_)
  exact compares_cons _ (compares_padded_append (by decide) (by omega) (by omega)
    (cmp_compares _ _) (compares_cons _ hlast))

theorem compares_instant (ht : t.Sound) (hu : u.Sound) (ho : o.Compares t.date.year u.date.year) :
    (o.then (orderInYear t u)).Compares t.instant u.instant := by
  obtain ⟨hh, hm, hs, hms⟩ := ht.bounds
  obtain ⟨hh', hm', hs', hms'⟩ := hu.bounds
  have hdate := Date.compares_dayCount t.date_exists u.date_exists ho (cmp_compares _ _)
    (cmp_compares _ _)
  rw [date, date, Date.dayCount_ofNumber, Date.dayCount_ofNumber] at hdate
  have hclock := compares_mul_add (n := 60) (compares_natCast (cmp_compares t.hour u.hour))
    (compares_natCast (cmp_compares t.minute u.minute)) (by omega) (by omega)
  have hseconds := compares_mul_add (n := 1000)
    (compares_natCast (cmp_compares t.secondOfMinute u.secondOfMinute))
    (compares_natCast (cmp_compares t.millisecond u.millisecond)) (by omega) (by omega)
  have hminutes := compares_mul_add (n := 1440) hdate hclock (by omega) (by omega)
  have hinstant := compares_mul_add (n := 61000) hminutes hseconds (by omega) (by omega)
  rw [Ordering.then_assoc, Ordering.then_assoc, Ordering.then_assoc, Ordering.then_assoc]
    at hinstant
  exact hinstant

/-! ## Years -/

theorem yearText_of_range {y : Int} (h : 0 ≤ y ∧ y ≤ 9999) : yearText y = padded 4 y.toNat := by
  rw [yearText, if_pos h]

theorem yearText_of_not_range {y : Int} (h : ¬(0 ≤ y ∧ y ≤ 9999)) :
    yearText y = (if y < 0 then '-' else '+') :: padded 4 y.natAbs := by
  rw [yearText, if_neg h]

theorem yearText_inj {y z : Int} (h : yearText y = yearText z) : y = z := by
  have hsign (y : Int) (n : Nat) : (if y < 0 then '-' else '+') ∉ padded 4 n := by
    intro hc
    have := isDigit_of_mem_padded hc
    split at this <;> exact absurd this (by decide)
  by_cases hy : 0 ≤ y ∧ y ≤ 9999 <;> by_cases hz : 0 ≤ z ∧ z ≤ 9999
  · rw [yearText_of_range hy, yearText_of_range hz] at h
    have := congrArg ofDigits h
    rw [ofDigits_padded, ofDigits_padded] at this
    omega
  · rw [yearText_of_range hy, yearText_of_not_range hz] at h
    exact absurd (h ▸ List.mem_cons_self) (hsign z y.toNat)
  · rw [yearText_of_not_range hy, yearText_of_range hz] at h
    exact absurd (h ▸ List.mem_cons_self) (hsign y z.toNat)
  · rw [yearText_of_not_range hy, yearText_of_not_range hz] at h
    obtain ⟨hsigns, hdigits⟩ := List.cons_eq_cons.1 h
    have := congrArg ofDigits hdigits
    rw [ofDigits_padded, ofDigits_padded] at this
    split at hsigns <;> split at hsigns <;> first | omega | exact absurd hsigns (by decide)

/-- The first instant of a year. -/
def beginning (year : Int) : Int := Date.daysBeforeYear year * millisecondsPerDay

theorem instant_lt_beginning_iff (ht : t.Sound) (y : Int) :
    t.instant < beginning y ↔ t.date.year < y := by
  obtain ⟨hh, hm, hs, hms⟩ := ht.bounds
  have hdays : t.date.dayCount = t.day + 60 := Date.dayCount_ofNumber _
  rw [← Date.dayCount_lt_iff t.date_exists, hdays, instant, beginning, millisecondsPerDay]
  omega

/-- Whether the year of an instant has four digits. -/
def FourDigits (x : Int) : Prop := beginning 0 ≤ x ∧ x < beginning 10000

theorem fourDigits_iff (ht : t.Sound) :
    FourDigits t.instant ↔ 0 ≤ t.date.year ∧ t.date.year ≤ 9999 := by
  have h0 := instant_lt_beginning_iff ht 0
  have h1 := instant_lt_beginning_iff ht 10000
  rw [FourDigits]
  omega

/-! ## Instants and texts -/

theorem length_rest (ht : t.Sound) : t.rest.length = 20 := by
  obtain ⟨hh, hm, hs, hms⟩ := ht.bounds
  have hthree : pow10 3 = 1000 := rfl
  have htwo {n : Nat} (h : n < 100) : (padded 2 n).length = 2 := length_padded (by decide) h
  simp only [rest, List.length_cons, List.length_append, List.length_nil, htwo t.month_lt,
    htwo t.day_lt, htwo (Nat.lt_trans hh (by decide)), htwo (Nat.lt_trans hm (by decide)),
    htwo (Nat.lt_of_le_of_lt hs (by decide)), length_padded (w := 3) (by decide) hms]

/-- Two moments are written alike if and only if they have the same instant. -/
theorem text_eq_iff (ht : t.Sound) (hu : u.Sound) : t.text = u.text ↔ t.instant = u.instant := by
  rw [← String.toList_inj, text_toList, text_toList]
  constructor
  · intro h
    obtain ⟨hyears, hrest⟩ := List.append_inj' h (by rw [length_rest ht, length_rest hu])
    have hinstant := compares_instant (o := .eq) ht hu (yearText_inj hyears)
    rw [(compares_rest ht hu).eq_eq.2 hrest] at hinstant
    exact hinstant
  · intro h
    have hday : t.day = u.day := by
      obtain ⟨hh, hm, hs, hms⟩ := ht.bounds
      obtain ⟨hh', hm', hs', hms'⟩ := hu.bounds
      simp only [instant] at h
      omega
    have hyear : t.date.year = u.date.year := by rw [date, date, hday]
    have hrest := compares_rest ht hu
    have horder := (compares_instant (o := .eq) ht hu hyear).eq_eq.2 h
    rw [Ordering.eq_then] at horder
    rw [horder] at hrest
    rw [hyear, hrest]

/-- In years of four digits texts are ordered as their instants are. -/
theorem compares_text (ht : t.Sound) (hu : u.Sound) (htx : FourDigits t.instant)
    (hux : FourDigits u.instant) (ho : o.Compares t.instant u.instant) :
    o.Compares t.text.toList u.text.toList := by
  have hty := (fourDigits_iff ht).1 htx
  have huy := (fourDigits_iff hu).1 hux
  have hyears := cmp_compares t.date.year.toNat u.date.year.toNat
  have hint : (cmp t.date.year.toNat u.date.year.toNat).Compares t.date.year u.date.year := by
    have := compares_natCast hyears
    rwa [Int.toNat_of_nonneg hty.1, Int.toNat_of_nonneg huy.1] at this
  rw [ho.inj (compares_instant ht hu hint), text_toList, text_toList, yearText_of_range hty,
    yearText_of_range huy]
  have hfour : pow10 4 = 10000 := rfl
  exact compares_padded_append (by decide) (by omega) (by omega) hyears (compares_rest ht hu)

/-! ## Years of four digits -/

/-- A sample digit stands for any digit, another sample character for itself. -/
def FitsSample (sample c : Char) : Prop := if isDigit sample then isDigit c = true else c = sample

/-- A text of the form `YYYY-MM-DDTHH:MM:SS.sssZ`. -/
def Shaped (text : String) : Prop :=
  List.Forall₂ FitsSample "0000-00-00T00:00:00.000Z".toList text.toList

/-- The fields of a moment in UTC. -/
def fields (t : Timestamp) : LocalTime :=
  ⟨t.date, t.hour, t.minute, t.secondOfMinute, padded 3 t.millisecond, 0⟩

theorem numeral_padded {w n : Nat} (hw : 0 < w) (h : n < pow10 w) :
    Numeral w w (padded w n) n :=
  ⟨(length_padded hw h).ge, (length_padded hw h).le, fun _ => isDigit_of_mem_padded,
    ofDigits_padded w n⟩

theorem rfc3339_text (ht : t.Sound) (hx : FourDigits t.instant) : Rfc3339 t.text t.fields := by
  obtain ⟨hh, hm, hs, hms⟩ := ht.bounds
  obtain ⟨h0, h9999⟩ := (fourDigits_iff ht).1 hx
  have hfour : pow10 4 = 10000 := rfl
  have htwo {n : Nat} (h : n < 100) := numeral_padded (w := 2) (by decide) h
  have hdate : FullDate (padded 4 t.date.year.toNat ++ '-' :: (padded 2 t.date.month ++
      '-' :: padded 2 t.date.day)) t.date := by
    have hyear : Numeral 4 4 _ t.date.year.toNat := numeral_padded (by decide) (by omega)
    have hmk := FullDate.mk hyear (htwo t.month_lt) (htwo t.day_lt)
    rwa [Int.toNat_of_nonneg h0] at hmk
  have hfraction : Fraction ('.' :: padded 3 t.millisecond) (padded 3 t.millisecond) := by
    refine .digits (List.ne_nil_of_length_pos ?_) fun _ => isDigit_of_mem_padded
    exact Nat.lt_of_lt_of_le (by decide) (le_length_padded 3 t.millisecond)
  refine .mk hdate (by decide : 'T' ∈ _) (htwo (by omega)) (htwo (by omega)) (htwo (by omega))
    hfraction (.utc (.inl rfl)) ?_
  rw [text_toList, yearText_of_range ⟨h0, h9999⟩, rest]
  simp only [List.append_assoc, List.cons_append]

theorem valid_fields (ht : t.Sound) : t.fields.Valid := by
  obtain ⟨hh, hm, hs, -⟩ := ht.bounds
  exact ⟨t.date_exists, hh, hm, hs, show (0 : Int).natAbs < 1440 by decide⟩

theorem instant_fields (ht : t.Sound) : t.fields.instant = t.instant := by
  have hdays : t.date.dayCount = t.day + 60 := Date.dayCount_ofNumber _
  have hlength : (padded 3 t.millisecond).length = 3 :=
    length_padded (by decide) ht.bounds.2.2.2
  have hms : t.fields.millisecond = t.millisecond := by
    rw [LocalTime.millisecond, fields, ofDigits_padded, hlength]
    exact Nat.mul_div_cancel _ (by decide)
  rw [LocalTime.instant, hms]
  simp only [LocalTime.localMinutes, fields, instant, hdays]
  ring

/-- What is written is read as the same instant. -/
theorem denotes_text (ht : t.Sound) (hx : FourDigits t.instant) : Denotes t.text t.instant := by
  rw [← instant_fields ht]
  exact .timestamp (rfc3339_text ht hx) (valid_fields ht)

theorem forall₂_digits {ds : List Char} (h : ∀ c ∈ ds, isDigit c = true) :
    List.Forall₂ FitsSample (List.replicate ds.length '0') ds := by
  induction ds with
  | nil => exact .nil
  | cons c ds ih =>
    obtain ⟨hc, hds⟩ := List.forall_mem_cons.1 h
    exact .cons hc (ih hds)

theorem forall₂_padded_append {w n : Nat} {as bs : List Char} (hw : 0 < w) (h : n < pow10 w)
    (htail : List.Forall₂ FitsSample as bs) :
    List.Forall₂ FitsSample (List.replicate w '0' ++ as) (padded w n ++ bs) := by
  have hdigits := forall₂_digits (fun _ => isDigit_of_mem_padded (w := w) (n := n))
  rw [length_padded hw h] at hdigits
  exact List.rel_append hdigits htail

theorem shaped_text (ht : t.Sound) (hx : FourDigits t.instant) : Shaped t.text := by
  obtain ⟨hh, hm, hs, hms⟩ := ht.bounds
  obtain ⟨h0, h9999⟩ := (fourDigits_iff ht).1 hx
  have hfour : pow10 4 = 10000 := rfl
  have htwo {n : Nat} {as bs : List Char} (h : n < 100) (htail : List.Forall₂ FitsSample as bs) :=
    forall₂_padded_append (w := 2) (by decide) h htail
  rw [Shaped, text_toList, yearText_of_range ⟨h0, h9999⟩]
  refine forall₂_padded_append (w := 4) (by decide) (by omega) (.cons rfl ?_)
  refine htwo t.month_lt (.cons rfl (htwo t.day_lt (.cons rfl ?_)))
  refine htwo (by omega) (.cons rfl (htwo (by omega) (.cons rfl (htwo (by omega) (.cons rfl ?_)))))
  exact forall₂_padded_append (w := 3) (by decide) hms (.cons rfl .nil)

/-! ## Other years -/

/-- What is written of another year has a sign before its digits. -/
theorem exists_sign (ht : t.Sound) (hx : ¬FourDigits t.instant) :
    ∃ sign more, t.text.toList = sign :: more ∧ sign < '0' := by
  rw [fourDigits_iff ht] at hx
  rw [text_toList, yearText_of_not_range hx]
  refine ⟨_, _, rfl, ?_⟩
  split <;> decide

theorem lt_length_text (ht : t.Sound) (hx : ¬FourDigits t.instant) : 24 < t.text.length := by
  rw [fourDigits_iff ht] at hx
  have := le_length_padded 4 t.date.year.natAbs
  rw [← String.length_toList, text_toList, yearText_of_not_range hx, List.length_append,
    length_rest ht, List.length_cons]
  omega

theorem Rfc3339.exists_digit {text : String} {l : LocalTime} (h : Rfc3339 text l) :
    ∃ c more, text.toList = c :: more ∧ '0' ≤ c := by
  obtain ⟨hdate, -, -, -, -, -, -, htext⟩ := h
  obtain ⟨hyear, -, -⟩ := hdate
  obtain ⟨c, more, rfl⟩ := List.exists_cons_of_length_pos (Nat.lt_of_lt_of_le (by decide)
    hyear.least_le)
  have hc := hyear.digits c List.mem_cons_self
  simp only [isDigit, Bool.and_eq_true, decide_eq_true_eq] at hc
  exact ⟨c, _, htext, hc.1⟩

/-- What is written of another year is not read again. -/
theorem not_denotes_text (ht : t.Sound) (hx : ¬FourDigits t.instant) (x : Int) :
    ¬Denotes t.text x := by
  intro h
  cases h with
  | timestamp hl hv =>
    obtain ⟨c, more, htext, hc⟩ := hl.exists_digit
    obtain ⟨sign, more', htext', hsign⟩ := exists_sign ht hx
    obtain ⟨rfl, -⟩ := List.cons_eq_cons.1 (htext.symm.trans htext')
    exact absurd hsign (not_lt.2 hc)
  | date h =>
    refine h.not_colon ?_
    rw [text_toList, rest]
    simp

/-- It comes before what is written of the years with four digits. -/
theorem text_lt_text (ht : t.Sound) (hu : u.Sound) (hx : FourDigits t.instant)
    (hy : ¬FourDigits u.instant) : u.text.toList < t.text.toList := by
  obtain ⟨c, more, htext, hc⟩ := (rfc3339_text ht hx).exists_digit
  obtain ⟨sign, more', htext', hsign⟩ := exists_sign hu hy
  rw [htext, htext', List.cons_lt_cons_iff]
  exact .inl (lt_of_lt_of_le hsign hc)

end Timestamp

end RecordFilter
