import RecordFilter.Proofs.Description
import RecordFilter.Proofs.Levels

/-!
# Which failure is reported

The failures of a description, in the order in which the description is read: what is wrong with
its own members, type, operator and number of operands, else the failures of its operands from left
to right.  Strict conversion reports the first one, with one exception: a list that is spelled out
behind the left operand of a membership is converted before that operand, so a failing entry is
reported in place of a failing left operand.

    failure? (convertNested .strict n j) = none ↔ failures n j = []          (failure?_eq_none_iff)
    failure? (convertNested .strict n j) = some e →
      ((failures n j).head? = some e ↔ ¬Overtaken n j e)                      (head?_failures_iff)
-/

namespace RecordFilter

/-! ## Failures of computations -/

section

variable {ε α β γ : Type}

/-- The failure of a computation without a result. -/
def failure? : Except ε α → Option ε
  | .ok _ => none
  | .error e => some e

theorem failure?_eq_some {x : Except ε α} {e : ε} : failure? x = some e ↔ x = .error e := by
  cases x with
  | ok a => exact ⟨nofun, nofun⟩
  | error e' => simp [failure?]

theorem failure?_map (x : Except ε α) (f : α → β) : failure? (x.map f) = failure? x := by
  cases x <;> rfl

/-- Of two steps the failure of the first one is reported, else that of the second. -/
theorem failure?_bind (x : Except ε α) {f : α → Except ε β} {o : Option ε}
    (hf : ∀ a, failure? (f a) = o) : failure? (x >>= f) = (failure? x).or o := by
  cases x with
  | ok a => exact hf a
  | error e => rfl

/-- Two computations whose results are put together. -/
theorem failure?_pair (x : Except ε α) (y : Except ε β) (f : α → β → γ) :
    failure? (do
      let a ← x
      let b ← y
      return f a b) = (failure? x).or (failure? y) := by
  cases x with
  | ok a => cases y <;> rfl
  | error e => rfl

end

namespace Description

variable {j k : Json} {h : Head} {e : ConvertError} {inner : Json → Option ConvertError}
  {n : Nat}

/-! ## Failures of a description itself -/

/-- How many operands an operator takes. -/
inductive Arity
  | one
  | two
  | twoOrMore

def Arity.text : Arity → String
  | one => "1"
  | two => "2"
  | twoOrMore => "2 or more"

def Arity.admits : Arity → Nat → Bool
  | one, n => n == 1
  | two, n => n == 2
  | twoOrMore, n => 2 ≤ n

/-- The types of descriptions. -/
def kinds : List String := ["comparison", "function", "spatial", "geometry", "logical"]

/-- How many operands an operator takes, if descriptions of the type have it. -/
def arity? (kind operator : String) : Option Arity :=
  match kind with
  | "comparison" => (CompareOp.ofSymbol? operator).map fun _ => .two
  | "function" => if operator = "in" then some .twoOrMore else none
  | "spatial" => if operator = "intersects" then some .two else none
  | "geometry" => if operator = "intersects" then some .two else none
  | "logical" =>
    if operator = "not" then some .one
    else if operator = "and" ∨ operator = "or" then some .twoOrMore
    else none
  | _ => none

/-- What is wrong with a type, else with its operator, else with the number of operands. -/
def headFailure? (h : Head) : Option ConvertError :=
  if h.kind ∉ kinds then some (.unknownType h.kind)
  else match arity? h.kind h.operator with
    | none => some (.unknownOperator h.kind h.operator)
    | some arity =>
      if arity.admits h.operands.length then none
      else some (.arity h.operator arity.text h.operands.length)

/-- What is wrong with the members of a description: the type or the operator is missing, or the
operands are no list. -/
def memberFailure? (j : Json) : Option ConvertError :=
  if j.stringMember? "type" = none then some (.missingMember "type")
  else if j.stringMember? "operator" = none then some (.missingMember "operator")
  else match j.member? "operands" with
    | none => none
    | some (.array _) => none
    | some other => some (.invalidOperand other.compact)

/-- What is wrong with a description itself, whatever its operands are. -/
def ownFailure? (j : Json) : Option ConvertError :=
  match j with
  | .bool _ => none
  | .object _ =>
    match head j with
    | .error _ => memberFailure? j
    | .ok h => headFailure? h
  | j => some (.notAPredicate j.compact)

theorem failure?_head (j : Json) : failure? (head j) = memberFailure? j := by
  unfold head memberFailure?
  cases ht : j.stringMember? "type" with
  | none => cases ho : j.stringMember? "operator" <;> rfl
  | some kind =>
    cases ho : j.stringMember? "operator" with
    | none => rfl
    | some operator =>
      simp only [reduceCtorEq, if_false]
      cases j.member? "operands" with
      | none => rfl
      | some other => cases other <;> rfl

/-! ## Failures in the order of reading -/

def constantFailures (k : Json) : List ConvertError := (failure? (constant k)).toList

/-- The failures of an operand; a list has those of its items. -/
def operandFailures : Json → List ConvertError
  | .array items => items.flatMap constantFailures
  | k => (failure? (operand k)).toList

/-- What the operands of a description are. -/
inductive Operands
  | descriptions (ks : List Json)
  | spelledOut (left : Json) (entries : List Json)
  | plain (ks : List Json)

/-- Logical descriptions are made of descriptions.  Behind the left operand of a function stands one
more operand, or the entries of a list. -/
def Head.parts (h : Head) : Operands :=
  match h.kind, h.operands with
  | "logical", ks => .descriptions ks
  | "function", left :: first :: second :: rest => .spelledOut left (first :: second :: rest)
  | _, ks => .plain ks

/-- The failures of operands from left to right, given those of descriptions. -/
def Operands.failures (inner : Json → List ConvertError) : Operands → List ConvertError
  | descriptions ks => ks.flatMap inner
  | spelledOut left entries => operandFailures left ++ entries.flatMap constantFailures
  | plain ks => ks.flatMap operandFailures

/-- The failures of a description that may hold so many levels of descriptions, in the order of
reading: its own, else those of its operands. -/
def failures : Nat → Json → List ConvertError
  | 0, _ => [.tooDeep Predicate.nestingLimit]
  | n + 1, j =>
    match ownFailure? j, head j with
    | some e, _ => [e]
    | none, .ok h => h.parts.failures (failures n)
    | none, .error _ => []

/-- `Overtaken n j e`: the first failure of the description is that of the left operand of a
membership, and `e` is another one, the first of the entries behind it. -/
inductive Overtaken : Nat → Json → ConvertError → Prop
  | entry {n : Nat} {j left : Json} {entries : List Json} {h : Head} {e e' : ConvertError} :
      ownFailure? j = none → head j = .ok h → h.parts = .spelledOut left entries →
      (operandFailures left).head? = some e' → (entries.flatMap constantFailures).head? = some e →
      e ≠ e' → Overtaken (n + 1) j e
  | inner {n : Nat} {j k : Json} {ks : List Json} {h : Head} {e : ConvertError} :
      ownFailure? j = none → head j = .ok h → h.parts = .descriptions ks →
      ks.find? (fun k => !(failures n k).isEmpty) = some k → Overtaken n k e →
      Overtaken (n + 1) j e

/-! ## Failures of operands -/

theorem failure?_constants (ks : List Json) :
    failure? (constants ks) = (ks.flatMap constantFailures).head? := by
  induction ks with
  | nil => rfl
  | cons k ks ih =>
    rw [constants, failure?_pair, List.flatMap_cons, List.head?_append, ih, constantFailures]
    cases failure? (constant k) <;> rfl

theorem failure?_operand (k : Json) : failure? (operand k) = (operandFailures k).head? := by
  cases k with
  | array items =>
    rw [operand, failure?_map]
    exact failure?_constants items
  | _ => exact Option.head?_toList.symm

/-- The failure that is reported of operands, given those of descriptions: entries come before the
left operand. -/
def Operands.reported (inner : Json → Option ConvertError) : Operands → Option ConvertError
  | descriptions ks => ks.findSome? inner
  | spelledOut left entries => (entries.flatMap constantFailures ++ operandFailures left).head?
  | plain ks => (ks.flatMap operandFailures).head?

theorem failure?_operands (left right : Json) (f : Predicate → Predicate → Predicate) :
    failure? (do
      let l ← operand left
      let r ← operand right
      return f l r) = ([left, right].flatMap operandFailures).head? := by
  rw [failure?_pair, failure?_operand, failure?_operand, List.flatMap_cons, List.flatMap_singleton,
    List.head?_append]

theorem headFailure?_of_arity {arity : Arity} (hk : h.kind ∈ kinds)
    (ha : arity? h.kind h.operator = some arity) : headFailure? h =
      if arity.admits h.operands.length then none
      else some (.arity h.operator arity.text h.operands.length) := by
  rw [headFailure?, if_neg (not_not.2 hk), ha]

theorem headFailure?_of_operator (hk : h.kind ∈ kinds) (ha : arity? h.kind h.operator = none) :
    headFailure? h = some (.unknownOperator h.kind h.operator) := by
  rw [headFailure?, if_neg (not_not.2 hk), ha]

theorem failure?_comparison (hk : h.kind = "comparison") : failure? (comparison h) =
    (headFailure? h).or (h.operands.flatMap operandFailures).head? := by
  have hkind : h.kind ∈ kinds := by rw [hk]; decide
  have harity : arity? h.kind h.operator = (CompareOp.ofSymbol? h.operator).map fun _ => .two := by
    rw [hk]
    rfl
  unfold comparison
  cases hop : CompareOp.ofSymbol? h.operator with
  | none =>
    rw [hop] at harity
    rw [headFailure?_of_operator hkind harity]
    rfl
  | some op =>
    rw [hop] at harity
    rw [headFailure?_of_arity hkind harity]
    match h.operands with
    | [left, right] => exact failure?_operands left right (.compare op)
    | [] | [_] | _ :: _ :: _ :: _ => rfl

theorem failure?_spatial (hk : h.kind = "spatial" ∨ h.kind = "geometry") :
    failure? (spatial h) = (headFailure? h).or (h.operands.flatMap operandFailures).head? := by
  have hkind : h.kind ∈ kinds := by rcases hk with hk | hk <;> rw [hk] <;> decide
  have harity : arity? h.kind h.operator =
      if h.operator = "intersects" then some .two else none := by
    rcases hk with hk | hk <;> rw [hk] <;> rfl
  by_cases ho : h.operator = "intersects"
  · rw [if_pos ho] at harity
    rw [headFailure?_of_arity hkind harity, spatial, if_neg (not_not.2 ho)]
    match h.operands with
    | [left, right] => exact failure?_operands left right (.spatial .intersects)
    | [] | [_] | _ :: _ :: _ :: _ => rfl
  · rw [if_neg ho] at harity
    rw [headFailure?_of_operator hkind harity, spatial, if_pos ho]
    rfl

theorem failure?_function (hk : h.kind = "function") : failure? (function h) =
    (headFailure? h).or (h.parts.reported inner) := by
  have hkind : h.kind ∈ kinds := by rw [hk]; decide
  have harity : arity? h.kind h.operator = if h.operator = "in" then some .twoOrMore else none := by
    rw [hk]
    rfl
  by_cases ho : h.operator = "in"
  · rw [if_pos ho] at harity
    rw [headFailure?_of_arity hkind harity, function, if_neg (not_not.2 ho), Head.parts, hk]
    match h.operands with
    | [left, right] => exact failure?_operands left right .membership
    | left :: first :: second :: rest =>
      show failure? (do
        let items ← constants (first :: second :: rest)
        let l ← operand left
        return Predicate.isIn l (.list items)) =
          ((first :: second :: rest).flatMap constantFailures ++ operandFailures left).head?
      rw [failure?_pair, failure?_constants, failure?_operand, List.head?_append]
    | [] | [_] => rfl
  · rw [if_neg ho] at harity
    rw [headFailure?_of_operator hkind harity, function, if_pos ho]
    rfl

theorem findSome?_cons_eq_or {α β : Type} (f : α → Option β) (a : α) (l : List α) :
    (a :: l).findSome? f = (f a).or (l.findSome? f) := by
  rw [List.findSome?_cons]
  cases f a <;> rfl

theorem failure?_joinAll (convert : Json → Except ConvertError Predicate) (op : JoinOp)
    (p : Predicate) (ks : List Json) :
    failure? (joinAll convert op p ks) = ks.findSome? fun k => failure? (convert k) := by
  induction ks generalizing p with
  | nil => rfl
  | cons k ks ih => rw [joinAll, findSome?_cons_eq_or, failure?_bind _ fun q => ih _]

theorem failure?_logical (convert : Json → Except ConvertError Predicate)
    (hk : h.kind = "logical") : failure? (logical convert h) =
      (headFailure? h).or (h.operands.findSome? fun k => failure? (convert k)) := by
  have hkind : h.kind ∈ kinds := by rw [hk]; decide
  have harity : arity? h.kind h.operator =
      if h.operator = "not" then some .one
      else if h.operator = "and" ∨ h.operator = "or" then some .twoOrMore else none := by
    rw [hk]
    rfl
  have hjoin : ∀ (op : JoinOp) (first second : Json) (rest : List Json), failure? (do
      let p ← convert first
      joinAll convert op p (second :: rest)) =
        (first :: second :: rest).findSome? fun k => failure? (convert k) := by
    intro op first second rest
    rw [failure?_bind _ fun p => failure?_joinAll convert op p _, findSome?_cons_eq_or _ first]
  simp only [logical]
  split
  · rename_i ho
    rw [if_pos ho] at harity
    rw [headFailure?_of_arity hkind harity]
    rcases h.operands with _ | ⟨inner, _ | _⟩
    · rfl
    · show failure? ((convert inner).map Predicate.not) =
        [inner].findSome? fun k => failure? (convert k)
      rw [failure?_map, List.findSome?_singleton]
    · rfl
  · rename_i ho
    rw [ho, if_neg (by decide), if_pos (.inl rfl), ← ho] at harity
    rw [headFailure?_of_arity hkind harity]
    rcases h.operands with _ | ⟨first, _ | ⟨second, rest⟩⟩
    · rfl
    · rfl
    · exact hjoin .and first second rest
  · rename_i ho
    rw [ho, if_neg (by decide), if_pos (.inr rfl), ← ho] at harity
    rw [headFailure?_of_arity hkind harity]
    rcases h.operands with _ | ⟨first, _ | ⟨second, rest⟩⟩
    · rfl
    · rfl
    · exact hjoin .or first second rest
  · rename_i hnot hand hor
    rw [if_neg hnot, if_neg (not_or.2 ⟨hand, hor⟩)] at harity
    rw [headFailure?_of_operator hkind harity]
    rfl

theorem parts_logical (hk : h.kind = "logical") : h.parts = .descriptions h.operands := by
  simp only [Head.parts, hk]

theorem parts_plain (hl : h.kind ≠ "logical") (hf : h.kind ≠ "function") :
    h.parts = .plain h.operands := by
  unfold Head.parts
  split
  · rename_i hk
    exact absurd hk hl
  · rename_i hk _
    exact absurd hk hf
  · rfl

theorem failure?_ofHead (convert : Json → Except ConvertError Predicate) (h : Head) :
    failure? (ofHead convert h) =
      (headFailure? h).or (h.parts.reported fun k => failure? (convert k)) := by
  unfold ofHead
  split
  · rename_i hk
    rw [failure?_comparison hk, parts_plain (by rw [hk]; decide) (by rw [hk]; decide)]
    rfl
  · rename_i hk
    exact failure?_function hk
  · rename_i hk
    rw [failure?_spatial (.inl hk), parts_plain (by rw [hk]; decide) (by rw [hk]; decide)]
    rfl
  · rename_i hk
    rw [failure?_spatial (.inr hk), parts_plain (by rw [hk]; decide) (by rw [hk]; decide)]
    rfl
  · rename_i hk
    rw [failure?_logical convert hk, parts_logical hk]
    rfl
  · rename_i hc hf hs hg hl
    have hkind : h.kind ∉ kinds := by
      simp only [kinds, List.mem_cons, List.not_mem_nil, or_false, not_or]
      exact ⟨hc, hf, hs, hg, hl⟩
    rw [headFailure?, if_pos hkind]
    rfl

/-! ## Level by level -/

theorem ownFailure?_of_head (hh : head j = .ok h) : ownFailure? j = headFailure? h := by
  cases j with
  | object members => simp only [ownFailure?, hh]
  | _ => cases hh

theorem ownFailure?_of_head_error {members : List (String × Json)}
    (hh : head (.object members) = .error e) : ownFailure? (.object members) = some e := by
  simp only [ownFailure?, hh]
  rw [← failure?_head, hh]
  rfl

/-- A description fails by itself, or its operands are looked at, or it is a truth value. -/
theorem level_cases (j : Json) : (∃ e, ownFailure? j = some e) ∨
    (∃ h, ownFailure? j = none ∧ head j = .ok h) ∨ ∃ b, j = .bool b := by
  cases ho : ownFailure? j with
  | some e => exact .inl ⟨e, rfl⟩
  | none =>
    cases j with
    | bool b => exact .inr (.inr ⟨b, rfl⟩)
    | object members =>
      cases hh : head (.object members) with
      | ok h => exact .inr (.inl ⟨h, rfl, rfl⟩)
      | error e => cases ho.symm.trans (ownFailure?_of_head_error hh)
    | _ => cases ho

theorem failures_own (ho : ownFailure? j = some e) : failures (n + 1) j = [e] := by
  rw [failures, ho]

theorem failures_parts (ho : ownFailure? j = none) (hh : head j = .ok h) :
    failures (n + 1) j = h.parts.failures (failures n) := by
  rw [failures, ho, hh]

theorem failure?_of_head (hh : head j = .ok h) : failure? (convertNested .strict (n + 1) j) =
    (headFailure? h).or (h.parts.reported fun k => failure? (convertNested .strict n k)) := by
  cases j with
  | object members =>
    rw [convertNested, recover_strict, hh]
    exact failure?_ofHead _ h
  | _ => cases hh

theorem failure?_own (ho : ownFailure? j = some e) :
    failure? (convertNested .strict (n + 1) j) = some e := by
  cases j with
  | bool b => cases ho
  | object members =>
    cases hh : head (.object members) with
    | error e' =>
      cases ho.symm.trans (ownFailure?_of_head_error hh)
      rw [convertNested, recover_strict, hh]
      rfl
    | ok h =>
      rw [failure?_of_head hh, ← ownFailure?_of_head hh, ho]
      rfl
  | _ => exact ho

theorem failure?_parts (ho : ownFailure? j = none) (hh : head j = .ok h) :
    failure? (convertNested .strict (n + 1) j) =
      h.parts.reported fun k => failure? (convertNested .strict n k) := by
  rw [failure?_of_head hh, ← ownFailure?_of_head hh, ho]
  rfl

/-! ## What is reported -/

/-- A description is converted exactly when nothing in it fails. -/
theorem failure?_eq_none_iff :
    failure? (convertNested .strict n j) = none ↔ failures n j = [] := by
  induction n generalizing j with
  | zero => exact ⟨nofun, nofun⟩
  | succ n ih =>
    obtain ⟨e, ho⟩ | ⟨h, ho, hh⟩ | ⟨b, rfl⟩ := level_cases j
    · rw [failure?_own ho, failures_own ho]
      exact ⟨nofun, nofun⟩
    · rw [failure?_parts ho hh, failures_parts ho hh]
      cases h.parts with
      | descriptions ks =>
        rw [Operands.reported, Operands.failures, List.findSome?_eq_none_iff, List.flatMap_eq_nil_iff]
        exact forall₂_congr fun k _ => ih
      | spelledOut left entries =>
        rw [Operands.reported, Operands.failures, List.head?_eq_none_iff, List.append_eq_nil_iff,
          List.append_eq_nil_iff, and_comm]
      | plain ks => exact List.head?_eq_none_iff
    · exact ⟨fun _ => rfl, fun _ => rfl⟩

/-- What is reported is one of the failures. -/
theorem mem_failures (he : failure? (convertNested .strict n j) = some e) : e ∈ failures n j := by
  induction n generalizing j e with
  | zero =>
    cases he
    exact List.mem_singleton_self _
  | succ n ih =>
    obtain ⟨e', ho⟩ | ⟨h, ho, hh⟩ | ⟨b, rfl⟩ := level_cases j
    · rw [failure?_own ho] at he
      rw [failures_own ho]
      cases he
      exact List.mem_singleton_self _
    · rw [failure?_parts ho hh] at he
      rw [failures_parts ho hh]
      cases hp : h.parts with
      | descriptions ks =>
        rw [hp, Operands.reported] at he
        obtain ⟨k, hk, hek⟩ := List.exists_of_findSome?_eq_some he
        exact List.mem_flatMap.2 ⟨k, hk, ih hek⟩
      | spelledOut left entries =>
        rw [hp, Operands.reported] at he
        exact List.mem_append.2 (List.mem_append.1 (List.mem_of_mem_head? he)).symm
      | plain ks =>
        rw [hp, Operands.reported] at he
        exact List.mem_of_mem_head? he
    · cases he

theorem not_overtaken_own (ho : ownFailure? j = some e) {e' : ConvertError} :
    ¬Overtaken (n + 1) j e' := by
  intro hover
  cases hover with
  | entry ho' => cases ho.symm.trans ho'
  | inner ho' => cases ho.symm.trans ho'

/-- The first description in a list that fails, by its failures and by its conversion. -/
theorem find?_of_failure? {before : List Json} (after : List Json)
    (hbefore : ∀ x ∈ before, failure? (convertNested .strict n x) = none)
    (hk : failure? (convertNested .strict n k) = some e) :
    (before ++ k :: after).find? (fun k => !(failures n k).isEmpty) = some k := by
  refine List.find?_eq_some_iff_append.2 ⟨?_, before, after, rfl, fun x hx => ?_⟩
  · rw [Bool.not_eq_true', List.isEmpty_eq_false_iff]
    exact List.ne_nil_of_mem (mem_failures hk)
  · rw [failure?_eq_none_iff.1 (hbefore x hx)]
    rfl

/-- Overtaking at one level: by an entry, or inside the first description that fails. -/
theorem overtaken_iff_parts (ho : ownFailure? j = none) (hh : head j = .ok h) :
    Overtaken (n + 1) j e ↔ match h.parts with
      | .descriptions ks =>
        ∃ k, ks.find? (fun k => !(failures n k).isEmpty) = some k ∧ Overtaken n k e
      | .spelledOut left entries => ∃ e', (operandFailures left).head? = some e' ∧
        (entries.flatMap constantFailures).head? = some e ∧ e ≠ e'
      | .plain _ => False := by
  constructor
  · intro hover
    cases hover with
    | entry _ hh' hp hl he hne =>
      cases hh.symm.trans hh'
      rw [hp]
      exact ⟨_, hl, he, hne⟩
    | inner _ hh' hp hk hover =>
      cases hh.symm.trans hh'
      rw [hp]
      exact ⟨_, hk, hover⟩
  · cases hp : h.parts with
    | descriptions ks =>
      rintro ⟨k, hk, hover⟩
      exact .inner ho hh hp hk hover
    | spelledOut left entries =>
      rintro ⟨e', hl, he, hne⟩
      exact .entry ho hh hp hl he hne
    | plain ks => exact False.elim

/-- Of two failures the first one is the one that the second one does not go before. -/
theorem or_eq_some_iff_of_or {α : Type} {first second : Option α} {a : α}
    (h : second.or first = some a) :
    first.or second = some a ↔ ¬∃ b, first = some b ∧ second = some a ∧ a ≠ b := by
  cases first with
  | none =>
    rw [Option.or_none] at h
    exact iff_of_true h nofun
  | some b =>
    cases second with
    | none => exact iff_of_true h nofun
    | some c =>
      cases h
      rw [Option.some_or, Option.some.injEq]
      constructor
      · rintro rfl ⟨b', hb, -, hne⟩
        exact hne (Option.some.inj hb)
      · intro hno
        by_contra hne
        exact hno ⟨b, rfl, rfl, Ne.symm hne⟩

/-- The first failure is reported, unless it is overtaken. -/
theorem head?_failures_iff (he : failure? (convertNested .strict n j) = some e) :
    (failures n j).head? = some e ↔ ¬Overtaken n j e := by
  induction n generalizing j with
  | zero =>
    cases he
    exact iff_of_true rfl nofun
  | succ n ih =>
    obtain ⟨e', ho⟩ | ⟨h, ho, hh⟩ | ⟨b, rfl⟩ := level_cases j
    · rw [failure?_own ho] at he
      rw [failures_own ho]
      exact iff_of_true he (not_overtaken_own ho)
    · rw [failure?_parts ho hh] at he
      rw [failures_parts ho hh, overtaken_iff_parts ho hh]
      cases hp : h.parts with
      | descriptions ks =>
        rw [hp, Operands.reported] at he
        obtain ⟨before, k, after, rfl, hk, hbefore⟩ := List.findSome?_eq_some_iff.1 he
        have hfind := find?_of_failure? after hbefore hk
        have hnil : before.flatMap (failures n) = [] :=
          List.flatMap_eq_nil_iff.2 fun x hx => failure?_eq_none_iff.1 (hbefore x hx)
        have hne : failures n k ≠ [] := List.ne_nil_of_mem (mem_failures hk)
        simp only [hfind, Option.some.injEq, exists_eq_left']
        rw [← ih hk, Operands.failures, List.flatMap_append, hnil, List.nil_append,
          List.flatMap_cons, List.head?_append_of_ne_nil _ hne]
      | spelledOut left entries =>
        rw [hp, Operands.reported, List.head?_append] at he
        rw [Operands.failures, List.head?_append]
        exact or_eq_some_iff_of_or he
      | plain ks =>
        rw [hp, Operands.reported] at he
        exact iff_of_true he not_false
    · cases he

/-- **Strict conversion reports the first failure.**  Where no tree can be made of a description, the
error is one of its failures, and it is the first of them in the order of reading, unless a failing
entry of a list that is spelled out overtakes the left operand of the membership. -/
theorem convert_error_first_iff (hj : convert .strict j = .error e)
    (hne : ∀ p, convertAnyHeight .strict j ≠ .ok p) :
    e ∈ failures Predicate.nestingLimit j ∧
      ((failures Predicate.nestingLimit j).head? = some e ↔
        ¬Overtaken Predicate.nestingLimit j e) := by
  have he : failure? (convertNested .strict Predicate.nestingLimit j) = some e := by
    rw [failure?_eq_some]
    obtain he | ⟨p, hp, -⟩ := bind_eq_error.1 hj
    · exact he
    · exact absurd hp (hne p)
  exact ⟨mem_failures he, head?_failures_iff he⟩

/-- No operand, whatever the name. -/
def nameless (name : String) : Json := .object [(name, .integer 0)]

/-- The description of `true & x in (y, z) & u`, where none of the names is an operand -/
def namelessMembership : Json :=
  described "logical" "and" [.bool true,
    described "function" "in" [nameless "x", nameless "y", nameless "z"], nameless "u"]

theorem overtaken_namelessMembership : Overtaken Predicate.nestingLimit namelessMembership
    (.invalidOperand (nameless "y").compact) := by
  refine .inner rfl rfl rfl rfl (.entry rfl rfl rfl rfl rfl ?_)
  decide +kernel

/-- The entry `y` is reported, not the left operand `x`. -/
theorem convert_error_first_namelessMembership :
    convert .strict namelessMembership = .error (.invalidOperand (nameless "y").compact) ∧
    (∀ p, convertAnyHeight .strict namelessMembership ≠ .ok p) ∧
    .invalidOperand (nameless "y").compact ∈ failures Predicate.nestingLimit namelessMembership ∧
    (failures Predicate.nestingLimit namelessMembership).head? ≠
      some (.invalidOperand (nameless "y").compact) := by
  have hj : convert .strict namelessMembership =
      .error (.invalidOperand (nameless "y").compact) := rfl
  have hne : ∀ p, convertAnyHeight .strict namelessMembership ≠ .ok p := by
    intro p hp
    cases hp
  obtain ⟨hmem, hiff⟩ := convert_error_first_iff hj hne
  exact ⟨hj, hne, hmem, fun hfirst => hiff.1 hfirst overtaken_namelessMembership⟩

end Description

end RecordFilter
