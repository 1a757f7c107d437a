import RecordFilter.Json.Reader

/-!
# Whole numbers of JSON texts

The whole numbers of a JSON value have 64 bits, with or without a sign: a longer one is
read as a number with a fraction.  Of a value, `Fits` says that it is so everywhere in it.

    Json.parse? depth text = some j → j.Fits                            (fits_of_parse?)
-/

namespace RecordFilter

namespace Json

/-- Whether every whole number in a value fits 64 bits, signed or unsigned. -/
inductive Fits : Json → Prop
  | null : Fits .null
  | bool (b : Bool) : Fits (.bool b)
  | integer {n : Int} : -0x8000000000000000 ≤ n → n < 0x10000000000000000 → Fits (.integer n)
  | float (negative : Bool) (m : Magnitude) : Fits (.float negative m)
  | string (s : String) : Fits (.string s)
  | array {items : List Json} : (∀ j ∈ items, Fits j) → Fits (.array items)
  | object {members : List (String × Json)} : (∀ m ∈ members, Fits m.2) → Fits (.object members)

/-! ## Members -/

theorem mem_ofList {α : Type} {e : String × α} {es : List (String × α)}
    (h : e ∈ Entries.ofList es) : e ∈ es := by
  suffices hf : ∀ acc : List (String × α),
      e ∈ es.foldl (fun acc e => Entries.insert e.1 e.2 acc) acc → e ∈ acc ∨ e ∈ es by
    simpa using hf [] h
  clear h
  induction es with
  | nil => exact fun acc h => .inl h
  | cons a es ih =>
    intro acc h
    rcases ih _ h with h | h
    · rcases Entries.mem_insert h with rfl | h
      · exact .inr (List.mem_cons_self ..)
      · exact .inl h
    · exact .inr (List.mem_cons_of_mem a h)

theorem mem_of_get? {α : Type} {k : String} {v : α} {es : List (String × α)}
    (h : Entries.get? k es = some v) : ∃ e ∈ es, e.2 = v := by
  induction es with
  | nil => cases h
  | cons a es ih =>
    obtain ⟨i, w⟩ := a
    rw [Entries.get?] at h
    split at h
    · exact ⟨(i, w), List.mem_cons_self .., Option.some.inj h⟩
    · obtain ⟨e, he, hv⟩ := ih h
      exact ⟨e, List.mem_cons_of_mem _ he, hv⟩

theorem Fits.member {j k : Json} {name : String} (h : j.Fits) (hk : j.member? name = some k) :
    k.Fits := by
  cases h with
  | object hm =>
    obtain ⟨e, he, rfl⟩ := mem_of_get? hk
    exact hm e he
  | _ => cases hk

/-! ## Optional results -/

section

variable {α β : Type} {P : α → Prop} {Q : β → Prop}

theorem forall_mem_bind {o : Option α} {f : α → Option β} (ho : ∀ a ∈ o, P a)
    (hf : ∀ a, P a → ∀ b ∈ f a, Q b) : ∀ b ∈ o >>= f, Q b := by
  intro b hb
  obtain ⟨a, ha, hb⟩ := Option.bind_eq_some_iff.1 hb
  exact hf a (ho a ha) b hb

/-- What comes first does not matter for what comes of it. -/
theorem forall_mem_bind_right {o : Option α} {f : α → Option β} (hf : ∀ a, ∀ b ∈ f a, Q b) :
    ∀ b ∈ o >>= f, Q b :=
  forall_mem_bind (P := fun _ => True) (fun _ _ => trivial) fun a _ => hf a

theorem forall_mem_map {o : Option α} {f : α → β} (h : ∀ a ∈ o, Q (f a)) : ∀ b ∈ o.map f, Q b := by
  intro b hb
  obtain ⟨a, ha, rfl⟩ := Option.map_eq_some_iff.1 hb
  exact h a ha

theorem forall_mem_some {a : α} (h : P a) : ∀ b ∈ some a, P b := by
  intro b hb
  cases hb
  exact h

end

/-! ## Numbers -/

section

variable {P : Json → Prop} (hf : ∀ negative m, P (float negative m))
  (hi : ∀ {n : Int}, -0x8000000000000000 ≤ n → n < 0x10000000000000000 → P (integer n))

include hf

theorem forall_floatOf? (negative : Bool) (whole fraction : List Char) (exponent : Int) :
    ∀ j ∈ floatOf? negative whole fraction exponent, P j := by
  have hm : ∀ m : Magnitude, ∀ j ∈ (pure (float negative m) : Option Json), P j := fun m =>
    forall_mem_some (hf negative m)
  simp only [floatOf?]
  split
  · split
    · exact nofun
    · exact hm _
  · exact forall_mem_bind_right hm

include hi

theorem forall_wholeOf? (negative : Bool) (whole : List Char) :
    ∀ j ∈ wholeOf? negative whole, P j := by
  simp only [wholeOf?]
  split
  · split
    · exact forall_mem_some (hi (by omega) (by omega))
    · exact forall_floatOf? hf _ _ _ _
  · split
    · exact forall_mem_some (hi (by omega) (by omega))
    · exact forall_floatOf? hf _ _ _ _

/-- What holds of numbers with a fraction and of whole numbers of 64 bits holds of every number. -/
theorem forall_number (cs : List Char) : ∀ r ∈ number cs, P r.1 := by
  have hr : ∀ rest (j : Json), P j → ∀ r ∈ (pure (j, rest) : Option (Json × List Char)), P r.1 :=
    fun rest j hj => forall_mem_some hj
  simp only [number]
  split
  all_goals
    split
    · exact nofun
    · refine forall_mem_bind_right fun fraction => forall_mem_bind_right fun exponent => ?_
      split
      · exact forall_mem_bind (forall_wholeOf? hf hi _ _) (hr _)
      · exact forall_mem_bind (forall_floatOf? hf _ _ _ _) (hr _)

end

/-! ## Values -/

theorem fits_of_word (w : List Char) {j : Json} (hj : j.Fits) (cs : List Char) :
    ∀ r ∈ word w j cs, r.1.Fits := by
  unfold word
  split
  · exact forall_mem_some hj
  · exact nofun

variable {fuel : Nat}

/-- The values of containers fit where what they hold does. -/
theorem fits_of_value_succ
    (hi : ∀ depth cs, ∀ r ∈ itemList fuel depth cs, ∀ j ∈ r.1, j.Fits)
    (hm : ∀ depth cs, ∀ r ∈ memberList fuel depth cs, ∀ m ∈ r.1, m.2.Fits) (depth : Nat)
    (cs : List Char) : ∀ r ∈ value (fuel + 1) depth cs, r.1.Fits := by
  rw [value]
  split
  · exact fits_of_word _ .null _
  · exact fits_of_word _ (.bool true) _
  · exact fits_of_word _ (.bool false) _
  · exact forall_mem_map fun r _ => .string r.1
  · split
    · exact nofun
    · exact forall_mem_some (.array (by simp))
    · exact forall_mem_map fun r hr => .array (hi _ _ r hr)
  · split
    · exact nofun
    · exact forall_mem_some (.object (by simp))
    · exact forall_mem_map fun r hr => .object fun m hmem => hm _ _ r hr m (mem_ofList hmem)
  · exact forall_number .float .integer _

theorem fits_of_itemList_succ (hv : ∀ depth cs, ∀ r ∈ value fuel depth cs, r.1.Fits)
    (hi : ∀ depth cs, ∀ r ∈ itemList fuel depth cs, ∀ j ∈ r.1, j.Fits) (depth : Nat)
    (cs : List Char) : ∀ r ∈ itemList (fuel + 1) depth cs, ∀ j ∈ r.1, j.Fits := by
  rw [itemList]
  refine forall_mem_bind (hv depth cs) ?_
  rintro ⟨j, cs⟩ hj
  simp only
  split
  · refine forall_mem_bind (hi depth _) ?_
    rintro ⟨js, cs⟩ hjs
    exact forall_mem_some (List.forall_mem_cons.2 ⟨hj, hjs⟩)
  · exact forall_mem_some (List.forall_mem_singleton.2 hj)
  · exact nofun

theorem fits_of_memberList_succ (hv : ∀ depth cs, ∀ r ∈ value fuel depth cs, r.1.Fits)
    (hm : ∀ depth cs, ∀ r ∈ memberList fuel depth cs, ∀ m ∈ r.1, m.2.Fits) (depth : Nat)
    (cs : List Char) : ∀ r ∈ memberList (fuel + 1) depth cs, ∀ m ∈ r.1, m.2.Fits := by
  rw [memberList]
  split
  · refine forall_mem_bind_right fun name => ?_
    simp only
    split
    · refine forall_mem_bind (hv depth _) ?_
      rintro ⟨j, cs⟩ hj
      simp only
      split
      · refine forall_mem_bind (hm depth _) ?_
        rintro ⟨ms, cs⟩ hms
        exact forall_mem_some (List.forall_mem_cons.2 ⟨hj, hms⟩)
      · exact forall_mem_some (List.forall_mem_singleton.2 hj)
      · exact nofun
    · exact nofun
  · exact nofun

theorem fits_of_readers (fuel : Nat) :
    (∀ depth cs, ∀ r ∈ value fuel depth cs, r.1.Fits) ∧
    (∀ depth cs, ∀ r ∈ itemList fuel depth cs, ∀ j ∈ r.1, j.Fits) ∧
    (∀ depth cs, ∀ r ∈ memberList fuel depth cs, ∀ m ∈ r.1, m.2.Fits) := by
  induction fuel with
  | zero => exact ⟨fun _ _ => nofun, fun _ _ => nofun, fun _ _ => nofun⟩
  | succ fuel ih =>
    obtain ⟨hv, hi, hm⟩ := ih
    exact ⟨fits_of_value_succ hi hm, fits_of_itemList_succ hv hi, fits_of_memberList_succ hv hm⟩

/-- Whatever is read from a JSON text has whole numbers of 64 bits only. -/
theorem fits_of_parse? {depth : Nat} {text : String} {j : Json} (h : parse? depth text = some j) :
    j.Fits := by
  simp only [parse?] at h
  split at h
  · rename_i k rest hv
    split at h
    · cases h
      exact (fits_of_readers _).1 _ _ _ hv
    · cases h
  · cases h

end Json

end RecordFilter
