/-!
# Tables of named entries

A `Table` maps names to values.  Its entries are kept in the order of their
names, each name once, so two tables with the same entries are the same table.

    (t.insert k v).get? j = if j = k then some v else t.get? j      (get?_insert)
    (t.erase k).get? j = if j = k then none else t.get? j           (get?_erase)
    (∀ k, s.get? k = t.get? k) → s = t                              (ext)
-/

namespace RecordFilter

/-! ## Lists of entries -/

namespace Entries

variable {α : Type}

/-- The value behind a name in a list of entries. -/
def get? (k : String) : List (String × α) → Option α
  | [] => none
  | (j, v) :: es => if j = k then some v else get? k es

/-- Puts an entry in its place; a value already there is replaced. -/
def insert (k : String) (v : α) : List (String × α) → List (String × α)
  | [] => [(k, v)]
  | (j, w) :: es =>
    if k < j then (k, v) :: (j, w) :: es
    else if k = j then (k, v) :: es
    else (j, w) :: insert k v es

/-- Entries in the order of their names, the last of equal names winning. -/
def ofList (es : List (String × α)) : List (String × α) :=
  es.foldl (fun acc e => insert e.1 e.2 acc) []

/-- Whether names rise strictly. -/
def Ordered (es : List (String × α)) : Prop := es.Pairwise fun a b => a.1 < b.1

theorem lt_of_not_lt_of_ne {k j : String} (h : ¬k < j) (hn : k ≠ j) : j < k :=
  Decidable.byContradiction fun hc =>
    hn (String.le_antisymm (String.not_lt.1 hc) (String.not_lt.1 h))

theorem mem_insert {k : String} {v : α} {e : String × α} {es : List (String × α)}
    (h : e ∈ insert k v es) : e = (k, v) ∨ e ∈ es := by
  induction es with
  | nil => simp [insert] at h; exact .inl h
  | cons a es ih =>
    obtain ⟨j, w⟩ := a
    simp only [insert] at h
    split at h
    · simp only [List.mem_cons] at h ⊢; exact h
    · split at h
      · simp only [List.mem_cons] at h ⊢
        exact h.imp id .inr
      · simp only [List.mem_cons] at h ⊢
        rcases h with h | h
        · exact .inr (.inl h)
        · exact (ih h).imp id .inr

theorem ordered_insert {k : String} {v : α} {es : List (String × α)} (h : Ordered es) :
    Ordered (insert k v es) := by
  induction es with
  | nil => simp [insert, Ordered]
  | cons a es ih =>
    obtain ⟨j, w⟩ := a
    have hj : ∀ e ∈ es, j < e.1 := (List.pairwise_cons.1 h).1
    have hes : Ordered es := (List.pairwise_cons.1 h).2
    simp only [insert]
    split
    · rename_i hlt
      refine List.pairwise_cons.2 ⟨fun e he => ?_, h⟩
      rcases List.mem_cons.1 he with rfl | he
      · exact hlt
      · exact String.lt_trans hlt (hj e he)
    · rename_i hnot
      split
      · rename_i heq; subst heq; exact List.pairwise_cons.2 ⟨hj, hes⟩
      · rename_i hne
        refine List.pairwise_cons.2 ⟨fun e he => ?_, ih hes⟩
        rcases mem_insert he with rfl | he
        · exact lt_of_not_lt_of_ne hnot hne
        · exact hj e he

theorem ordered_map {β : Type} (f : α → β) {es : List (String × α)} (h : Ordered es) :
    Ordered (es.map fun e => (e.1, f e.2)) := by
  unfold Ordered at h ⊢
  rw [List.pairwise_map]
  exact h

theorem ordered_ofList (es : List (String × α)) : Ordered (ofList es) := by
  suffices h : ∀ acc : List (String × α), Ordered acc →
      Ordered (es.foldl (fun acc e => insert e.1 e.2 acc) acc) from h [] List.Pairwise.nil
  induction es with
  | nil => exact fun _ h => h
  | cons e es ih => exact fun acc h => ih _ (ordered_insert h)

theorem get?_insert (k j : String) (v : α) (es : List (String × α)) :
    get? j (insert k v es) = if j = k then some v else get? j es := by
  induction es with
  | nil => simp [insert, get?, eq_comm]
  | cons a es ih =>
    obtain ⟨i, w⟩ := a
    simp only [insert]
    split
    · simp [get?, eq_comm]
    · split
      · rename_i hki; subst hki
        by_cases h : j = k
        · simp [get?, h]
        · simp [get?, h, Ne.symm h]
      · rename_i hki
        by_cases h : i = j
        · subst h; simp [get?, Ne.symm hki]
        · simp [get?, h, ih]

theorem get?_eq_none {k : String} {es : List (String × α)} (h : ∀ e ∈ es, k < e.1) :
    get? k es = none := by
  induction es with
  | nil => rfl
  | cons a es ih =>
    have hk : a.1 ≠ k := fun he => String.lt_irrefl _ (he ▸ h a (List.mem_cons_self ..))
    simp [get?, hk, ih fun e he => h e (List.mem_cons_of_mem _ he)]

end Entries

/-! ## Tables -/

/-- Named values, in the order of their names. -/
structure Table (α : Type) where
  entries : List (String × α)
  ordered : Entries.Ordered entries

namespace Table

variable {α β : Type}

def empty : Table α := ⟨[], List.Pairwise.nil⟩

instance : Inhabited (Table α) := ⟨empty⟩

def get? (t : Table α) (k : String) : Option α := Entries.get? k t.entries

def insert (t : Table α) (k : String) (v : α) : Table α :=
  ⟨Entries.insert k v t.entries, Entries.ordered_insert t.ordered⟩

/-- Leaves the entry of a name out. -/
def erase (t : Table α) (k : String) : Table α :=
  ⟨t.entries.filter fun e => e.1 != k, t.ordered.filter _⟩

/-- The table of a list of entries, the last of equal names winning. -/
def ofList (es : List (String × α)) : Table α := ⟨Entries.ofList es, Entries.ordered_ofList es⟩

/-- Changes every value and keeps the names. -/
def map (f : α → β) (t : Table α) : Table β :=
  ⟨t.entries.map fun e => (e.1, f e.2), Entries.ordered_map f t.ordered⟩

def isEmpty (t : Table α) : Bool := t.entries.isEmpty

/-! ## Lemmas -/

theorem get?_empty (k : String) : (empty : Table α).get? k = none := rfl

theorem get?_insert (t : Table α) (k j : String) (v : α) :
    (t.insert k v).get? j = if j = k then some v else t.get? j :=
  Entries.get?_insert k j v t.entries

theorem get?_erase (t : Table α) (k j : String) :
    (t.erase k).get? j = if j = k then none else t.get? j := by
  show Entries.get? j (t.entries.filter _) = if j = k then none else Entries.get? j t.entries
  generalize t.entries = es
  induction es with
  | nil => simp [Entries.get?]
  | cons a es ih =>
    obtain ⟨i, w⟩ := a
    by_cases hi : i = k
    · subst hi
      by_cases hj : j = i
      · simp [hj] at ih ⊢; exact ih
      · simp [hj, Ne.symm hj, Entries.get?] at ih ⊢; exact ih
    · by_cases hij : i = j
      · subst hij; simp [hi, Entries.get?]
      · simp [hi, Entries.get?, hij, ih]

theorem ext {s t : Table α} (h : ∀ k, s.get? k = t.get? k) : s = t := by
  obtain ⟨es, hs⟩ := s
  obtain ⟨fs, ht⟩ := t
  suffices he : es = fs by subst he; rfl
  simp only [get?] at h
  induction es generalizing fs with
  | nil =>
    cases fs with
    | nil => rfl
    | cons b fs => simpa [Entries.get?] using h b.1
  | cons a es ih =>
    cases fs with
    | nil => simpa [Entries.get?] using h a.1
    | cons b fs =>
      obtain ⟨k, v⟩ := a
      obtain ⟨j, w⟩ := b
      have hk : ∀ e ∈ es, k < e.1 := (List.pairwise_cons.1 hs).1
      have hj : ∀ e ∈ fs, j < e.1 := (List.pairwise_cons.1 ht).1
      have hkj : k = j := by
        refine Decidable.byContradiction fun hne => ?_
        by_cases hlt : k < j
        · have := h k
          rw [@Entries.get?_eq_none _ _ ((j, w) :: fs) (by
            intro e he
            rcases List.mem_cons.1 he with rfl | he
            · exact hlt
            · exact String.lt_trans hlt (hj e he))] at this
          simp [Entries.get?] at this
        · have hlt := Entries.lt_of_not_lt_of_ne hlt hne
          have := h j
          rw [@Entries.get?_eq_none _ _ ((k, v) :: es) (by
            intro e he
            rcases List.mem_cons.1 he with rfl | he
            · exact hlt
            · exact String.lt_trans hlt (hk e he))] at this
          simp [Entries.get?] at this
      subst hkj
      have hv : v = w := by simpa [Entries.get?] using h k
      subst hv
      rw [ih (List.pairwise_cons.1 hs).2 fs (List.pairwise_cons.1 ht).2 fun i => ?_]
      by_cases hi : k = i
      · subst hi; rw [Entries.get?_eq_none hk, Entries.get?_eq_none hj]
      · have := h i; simpa [Entries.get?, hi] using this

end Table

end RecordFilter
