import NodeFlow.Graph.Edit

namespace NodeFlow

namespace Decimals

def value (digits : List Char) : Nat := Nat.ofDigitChars 10 digits 0

def Digits (digits : List Char) : Prop := ∀ c ∈ digits, c.isDigit = true

def Trimmed (digits : List Char) : Prop := digits.head? ≠ some '0'

def figure (c : Char) : Nat := c.toNat - '0'.toNat

def span (count : Nat) : Nat := Nat.pow 10 count

theorem span_succ (count : Nat) : span (count + 1) = 10 * span count := Nat.mul_comm _ _

theorem span_le_span {few many : Nat} (le : few ≤ many) : span few ≤ span many :=
  Nat.pow_le_pow_right (by decide) le

theorem value_cons (c : Char) (rest : List Char) :
    value (c :: rest) = figure c * span rest.length + value rest := by
  unfold value
  rw [Nat.ofDigitChars_cons, Nat.ofDigitChars_eq_ofDigitChars_zero, Nat.mul_zero, Nat.zero_add,
    Nat.mul_comm]
  rfl

theorem bounds_of_isDigit {c : Char} (digit : c.isDigit = true) : 48 ≤ c.toNat ∧ c.toNat ≤ 57 := by
  have bounds : '0'.val.toNat ≤ c.val.toNat ∧ c.val.toNat ≤ '9'.val.toNat := by
    simpa only [Char.isDigit, Bool.and_eq_true, decide_eq_true_eq, UInt32.le_iff_toNat_le] using digit
  exact bounds

theorem figure_le {c : Char} (digit : c.isDigit = true) : figure c ≤ 9 := by
  have bounds := bounds_of_isDigit digit
  have zero : '0'.toNat = 48 := rfl
  unfold figure
  omega

theorem figure_lt_iff {c d : Char} (first : c.isDigit = true) (second : d.isDigit = true) :
    figure c < figure d ↔ c < d := by
  have low := bounds_of_isDigit first
  have high := bounds_of_isDigit second
  have zero : '0'.toNat = 48 := rfl
  have order : c < d ↔ c.toNat < d.toNat := by rw [Char.lt_def, UInt32.lt_iff_toNat_lt]; rfl
  rw [order]
  unfold figure
  omega

theorem figure_pos {c : Char} (digit : c.isDigit = true) (nonzero : c ≠ '0') : 0 < figure c := by
  have bounds := bounds_of_isDigit digit
  have zero : '0'.toNat = 48 := rfl
  have apart : c.toNat ≠ 48 := fun same => nonzero (Char.toNat_inj.1 same)
  unfold figure
  omega

theorem Digits.head {c : Char} {rest : List Char} (digits : Digits (c :: rest)) : c.isDigit = true :=
  digits c List.mem_cons_self

theorem Digits.tail {c : Char} {rest : List Char} (digits : Digits (c :: rest)) : Digits rest :=
  fun d member => digits d (List.mem_cons_of_mem c member)

theorem Digits.cons {c : Char} {rest : List Char} (first : c.isDigit = true) (others : Digits rest) :
    Digits (c :: rest) := by
  intro d member
  rcases List.mem_cons.1 member with rfl | later
  · exact first
  · exact others d later

theorem value_lt {digits : List Char} (each : Digits digits) : value digits < span digits.length := by
  induction digits with
  | nil => decide
  | cons c rest ih =>
    have small := ih each.tail
    have leading := Nat.mul_le_mul_right (span rest.length) (figure_le each.head)
    rw [value_cons, List.length_cons, span_succ]
    omega

theorem span_le_value {c : Char} {rest : List Char} (each : Digits (c :: rest)) (trimmed : Trimmed (c :: rest)) :
    span rest.length ≤ value (c :: rest) := by
  have nonzero : c ≠ '0' := fun same => trimmed (by rw [same]; rfl)
  have leading := Nat.mul_le_mul_right (span rest.length) (figure_pos each.head nonzero)
  rw [value_cons]
  omega

section Counting

theorem next_digit {c : Char} (digit : c.isDigit = true) (notNine : c ≠ '9') :
    (Char.ofNat (c.toNat + 1)).isDigit = true ∧ figure (Char.ofNat (c.toNat + 1)) = figure c + 1 := by
  have bounds := bounds_of_isDigit digit
  have apart : c.toNat ≠ 57 := fun same => notNine (Char.toNat_inj.1 same)
  have each : ∀ n : Nat, n < 57 → 48 ≤ n → (Char.ofNat (n + 1)).isDigit = true ∧
      figure (Char.ofNat (n + 1)) = n - '0'.toNat + 1 := by decide
  exact each c.toNat (by omega) bounds.1

-- The count on a fixed number of digits; when it goes round, all digits are zeros again.
theorem bump_exact {digits : List Char} (each : Digits digits) :
    Digits (bump digits).1 ∧ (bump digits).1.length = digits.length ∧
      value (bump digits).1 + (if (bump digits).2 then span digits.length else 0) = value digits + 1 := by
  induction digits with
  | nil => exact ⟨each, rfl, rfl⟩
  | cons c rest ih =>
    obtain ⟨others, length, counted⟩ := ih each.tail
    unfold bump
    split
    · rename_i next same
      rw [same] at others length counted
      refine ⟨.cons each.head others, by simp [length], ?_⟩
      simp only [Bool.false_eq_true, if_false, Nat.add_zero, value_cons] at counted length ⊢
      rw [length]
      omega
    · rename_i next same
      rw [same] at others length counted
      simp only [if_true] at counted length others
      split
      · rename_i nine
        have top : figure '9' = 9 := rfl
        have bottom : figure '0' = 0 := rfl
        refine ⟨.cons (by decide) others, by simp [length], ?_⟩
        simp only [if_true, value_cons, List.length_cons, nine, top, bottom, span_succ]
        omega
      · rename_i notNine
        obtain ⟨digit, more⟩ := next_digit each.head notNine
        refine ⟨.cons digit others, by simp [length], ?_⟩
        simp only [Bool.false_eq_true, if_false, Nat.add_zero, value_cons, more, length, Nat.succ_mul]
        omega

theorem trimmed_bump {digits : List Char} (each : Digits digits) (trimmed : Trimmed digits)
    (inRange : (bump digits).2 = false) : Trimmed (bump digits).1 := by
  cases digits with
  | nil => cases inRange
  | cons c rest =>
    have nonzero : c ≠ '0' := fun same => trimmed (by rw [same]; rfl)
    unfold bump at inRange ⊢
    split
    · exact fun same => nonzero (Option.some.inj same)
    · split
      · rename_i carried nine
        simp [carried, nine] at inRange
      · rename_i notNine
        obtain ⟨_, more⟩ := next_digit each.head notNine
        intro same
        rw [Option.some.inj same] at more
        cases more

theorem successor_exact {digits : List Char} (each : Digits digits) (trimmed : Trimmed digits) :
    Digits (successor digits) ∧ successor digits ≠ [] ∧ Trimmed (successor digits) ∧
      value (successor digits) = value digits + 1 := by
  obtain ⟨others, length, counted⟩ := bump_exact each
  have leading := trimmed_bump each trimmed
  unfold successor
  split
  · rename_i next same
    rw [same] at others length counted leading
    refine ⟨others, ?_, leading rfl, by simpa using counted⟩
    rintro rfl
    cases digits with
    | nil => cases same
    | cons c rest => cases length
  · rename_i next same
    rw [same] at others length counted
    have one : figure '1' = 1 := rfl
    refine ⟨.cons (by decide) others, List.cons_ne_nil _ _, fun same => absurd (Option.some.inj same) (by decide), ?_⟩
    simp only [if_true] at counted length
    rw [value_cons, one, length]
    omega

end Counting

section Order

theorem value_lt_of_lt {a b : List Char} (first : Digits a) (second : Digits b) (length : a.length = b.length) :
    a < b ↔ value a < value b := by
  induction a generalizing b with
  | nil =>
    cases b with
    | nil => decide
    | cons d tail => cases length
  | cons c rest ih =>
    cases b with
    | nil => cases length
    | cons d tail =>
      have same : rest.length = tail.length := Nat.succ.inj length
      have small := value_lt first.tail
      have large := value_lt second.tail
      rw [List.cons_lt_cons_iff, ih first.tail second.tail same, value_cons, value_cons,
        ← figure_lt_iff first.head second.head, same]
      rw [same] at small
      -- A smaller leading figure leaves room for all digits behind it.
      rcases Nat.lt_trichotomy (figure c) (figure d) with less | equal | greater
      · have room := Nat.mul_le_mul_right (span tail.length) (Nat.succ_le_of_lt less)
        rw [Nat.succ_mul] at room
        constructor
        · intro _; omega
        · intro _; exact .inl less
      · have figures : c = d := by
          have low := bounds_of_isDigit first.head
          have high := bounds_of_isDigit second.head
          have zero : '0'.toNat = 48 := rfl
          unfold figure at equal
          exact Char.toNat_inj.1 (by omega)
        rw [equal]
        constructor
        · rintro (less | ⟨_, later⟩) <;> omega
        · intro less; exact .inr ⟨figures, by omega⟩
      · have room := Nat.mul_le_mul_right (span tail.length) (Nat.succ_le_of_lt greater)
        rw [Nat.succ_mul] at room
        constructor
        · rintro (less | ⟨figures, _⟩)
          · omega
          · rw [figures] at greater; omega
        · intro less; omega

theorem less_iff {a b : List Char} (first : Digits a) (second : Digits b) (firstTrimmed : Trimmed a)
    (secondTrimmed : Trimmed b) : less a b = true ↔ value a < value b := by
  have longer : ∀ {few many : List Char}, Digits few → Digits many → Trimmed many →
      few.length < many.length → value few < value many := by
    intro few many small large trimmed shorter
    cases many with
    | nil => cases shorter
    | cons d tail =>
      have below := value_lt small
      have fits := span_le_span (Nat.le_of_lt_succ shorter)
      have above := span_le_value large trimmed
      omega
  unfold less
  rw [Bool.or_eq_true, Bool.and_eq_true, decide_eq_true_eq, decide_eq_true_eq, beq_iff_eq]
  rcases Nat.lt_trichotomy a.length b.length with shorter | equal | greater
  · have smaller := longer first second secondTrimmed shorter
    simp [shorter, smaller]
  · rw [← value_lt_of_lt first second equal]
    simp [equal]
  · have larger := longer second first firstTrimmed greater
    constructor
    · rintro (shorter | ⟨equal, _⟩) <;> omega
    · intro smaller; omega

theorem eq_of_value_eq {a b : List Char} (first : Digits a) (second : Digits b) (firstTrimmed : Trimmed a)
    (secondTrimmed : Trimmed b) (equal : value a = value b) : a = b := by
  have notLess : less a b = false := by
    rw [Bool.eq_false_iff, Ne, less_iff first second firstTrimmed secondTrimmed, equal]
    exact Nat.lt_irrefl _
  have notGreater : less b a = false := by
    rw [Bool.eq_false_iff, Ne, less_iff second first secondTrimmed firstTrimmed, equal]
    exact Nat.lt_irrefl _
  unfold less at notLess notGreater
  rw [Bool.or_eq_false_iff, decide_eq_false_iff_not] at notLess notGreater
  have length : a.length = b.length := Nat.le_antisymm (Nat.not_lt.1 notGreater.1) (Nat.not_lt.1 notLess.1)
  simp only [length, beq_self_eq_true, Bool.true_and, decide_eq_false_iff_not, List.not_lt] at notLess notGreater
  exact List.le_antisymm notGreater.2 notLess.2

theorem greatest_eq_none_iff (texts : List (List Char)) : greatest texts = none ↔ texts = [] := by
  cases texts with
  | nil => simp [greatest]
  | cons digits rest => unfold greatest; split <;> simp

theorem greatest_exact {texts : List (List Char)} (each : ∀ digits ∈ texts, Digits digits ∧ Trimmed digits)
    {top : List Char} (found : greatest texts = some top) :
    top ∈ texts ∧ ∀ digits ∈ texts, value digits ≤ value top := by
  induction texts generalizing top with
  | nil => cases found
  | cons digits rest ih =>
    have others := fun text member => each text (List.mem_cons_of_mem digits member)
    unfold greatest at found
    split at found
    · rename_i none
      cases found
      rw [(greatest_eq_none_iff rest).1 none]
      simp
    · rename_i other some
      obtain ⟨member, bound⟩ := ih others some
      have order := less_iff (each digits List.mem_cons_self).1 (others other member).1
        (each digits List.mem_cons_self).2 (others other member).2
      split at found
      · rename_i less
        cases found
        refine ⟨List.mem_cons_of_mem _ member, ?_⟩
        intro text present
        rcases List.mem_cons.1 present with rfl | later
        · exact Nat.le_of_lt (order.1 less)
        · exact bound text later
      · rename_i notLess
        cases found
        have above : value other ≤ value digits := Nat.le_of_not_lt fun less => notLess (order.2 less)
        refine ⟨List.mem_cons_self, ?_⟩
        intro text present
        rcases List.mem_cons.1 present with rfl | later
        · exact Nat.le_refl _
        · exact Nat.le_trans (bound text later) above

end Order

end Decimals

namespace Graph

open Decimals

def Numeric (id : String) : Prop := id ≠ "" ∧ Digits id.toList

def numberOf (id : String) : Nat := value id.toList

-- One more than the greatest id that is a number, or one if no id is a number.
def Succeeds (graph : Graph) (number : Nat) : Prop :=
  (∀ id ∈ graph.ids, ¬ Numeric id) ∧ number = 1 ∨
    ∃ id ∈ graph.ids, Numeric id ∧ (∀ other ∈ graph.ids, Numeric other → numberOf other ≤ numberOf id) ∧
      number = numberOf id + 1

theorem Succeeds.numberOf_lt {graph : Graph} {number : Nat} (succeeds : graph.Succeeds number) {id : String}
    (member : id ∈ graph.ids) (numeric : Numeric id) : numberOf id < number := by
  rcases succeeds with ⟨none, _⟩ | ⟨top, _, _, greatest, rfl⟩
  · exact absurd numeric (none id member)
  · exact Nat.lt_succ_of_le (greatest id member numeric)

theorem Succeeds.unique {graph other : Graph} (same : ∀ id, id ∈ graph.ids ↔ id ∈ other.ids) {one two : Nat}
    (first : graph.Succeeds one) (second : other.Succeeds two) : one = two := by
  rcases first with ⟨none, rfl⟩ | ⟨top, inside, numeric, greatest, rfl⟩
  · rcases second with ⟨_, rfl⟩ | ⟨id, member, numeric, _, _⟩
    · rfl
    · exact absurd numeric (none id ((same id).2 member))
  · rcases second with ⟨none, _⟩ | ⟨id, member, another, highest, rfl⟩
    · exact absurd numeric (none top ((same top).1 inside))
    · have below := highest top ((same top).1 inside) numeric
      have above := greatest id ((same id).2 member) another
      rw [Nat.le_antisymm below above]

theorem isNumeric_iff (id : String) : isNumeric id = true ↔ Numeric id := by
  simp [isNumeric, Numeric, Digits]

theorem value_dropZeros (digits : List Char) : value (digits.dropWhile (· == '0')) = value digits := by
  induction digits with
  | nil => rfl
  | cons c rest ih =>
    rw [List.dropWhile_cons]
    split
    · rename_i zero
      have none : figure '0' = 0 := rfl
      rw [ih, value_cons, beq_iff_eq.1 zero, none, Nat.zero_mul, Nat.zero_add]
    · rfl

theorem significantDigits_exact {id : String} (numeric : Numeric id) :
    Digits (significantDigits id) ∧ Trimmed (significantDigits id) ∧
      value (significantDigits id) = numberOf id := by
  refine ⟨fun c member => numeric.2 c (List.dropWhile_sublist _ |>.subset member), ?_, value_dropZeros _⟩
  intro zero
  have stopped := List.head?_dropWhile_not (· == '0') id.toList
  unfold significantDigits at zero
  rw [zero] at stopped
  cases stopped

theorem numeric_nextId (graph : Graph) :
    Numeric graph.nextId ∧ Trimmed graph.nextId.toList ∧ graph.Succeeds (numberOf graph.nextId) := by
  have known : ∀ id, id ∈ graph.ids.filter isNumeric ↔ id ∈ graph.ids ∧ Numeric id := by
    intro id
    rw [List.mem_filter, isNumeric_iff]
  unfold nextId
  split
  · rename_i none
    have spelled : "1".toList = ['1'] := rfl
    have digits : ∀ c ∈ "1".toList, c.isDigit = true := by simp [spelled]
    have trimmed : "1".toList.head? ≠ some '0' := by simp [spelled]
    refine ⟨⟨by decide, digits⟩, trimmed, .inl ⟨?_, rfl⟩⟩
    intro id member numeric
    have gone := List.map_eq_nil_iff.1 ((greatest_eq_none_iff _).1 none)
    have present := (known id).2 ⟨member, numeric⟩
    rw [gone] at present
    cases present
  · rename_i top some
    have each : ∀ digits ∈ (graph.ids.filter isNumeric).map significantDigits, Digits digits ∧ Trimmed digits := by
      intro digits member
      obtain ⟨id, present, rfl⟩ := List.mem_map.1 member
      have parts := significantDigits_exact ((known id).1 present).2
      exact ⟨parts.1, parts.2.1⟩
    obtain ⟨member, bound⟩ := greatest_exact each some
    obtain ⟨digits, nonempty, trimmed, counted⟩ := successor_exact (each top member).1 (each top member).2
    obtain ⟨id, present, rfl⟩ := List.mem_map.1 member
    obtain ⟨inside, numeric⟩ := (known id).1 present
    have number := (significantDigits_exact numeric).2.2
    unfold Numeric numberOf
    rw [String.toList_ofList]
    refine ⟨⟨?_, digits⟩, trimmed, .inr ⟨id, inside, numeric, ?_, by rw [counted, number]⟩⟩
    · intro empty
      exact nonempty (by rw [← String.toList_ofList (l := successor (significantDigits id)), empty]; rfl)
    · intro other held others
      have below := bound _ (List.mem_map_of_mem ((known other).2 ⟨held, others⟩))
      rwa [number, (significantDigits_exact others).2.2] at below

theorem nextId_not_mem (graph : Graph) : graph.nextId ∉ graph.ids := by
  obtain ⟨numeric, _, succeeds⟩ := graph.numeric_nextId
  exact fun taken => Nat.lt_irrefl _ (succeeds.numberOf_lt taken numeric)

theorem nextId_eq_of_ids {graph other : Graph} (same : ∀ id, id ∈ graph.ids ↔ id ∈ other.ids) :
    graph.nextId = other.nextId := by
  obtain ⟨⟨_, digits⟩, trimmed, succeeds⟩ := graph.numeric_nextId
  obtain ⟨⟨_, otherDigits⟩, otherTrimmed, otherSucceeds⟩ := other.numeric_nextId
  exact String.toList_injective
    (eq_of_value_eq digits otherDigits trimmed otherTrimmed (succeeds.unique same otherSucceeds))

-- The fresh id is a number without leading zeros and one more than all ids that are numbers. So it is new,
-- and a node that is added comes last under it, after all that were there.
theorem nextId_exact (graph : Graph) :
    Numeric graph.nextId ∧ Trimmed graph.nextId.toList ∧ graph.Succeeds (numberOf graph.nextId) ∧
    graph.nextId ∉ graph.ids ∧
    ∀ classType inputs title, (graph.add classType inputs title).1 = graph.nextId ∧ ∃ node,
      (graph.add classType inputs title).2.nodes.entries = graph.nodes.entries ++ [(graph.nextId, node)] := by
  obtain ⟨numeric, trimmed, succeeds⟩ := graph.numeric_nextId
  have fresh := graph.nextId_not_mem
  refine ⟨numeric, trimmed, succeeds, fresh, ?_⟩
  intro classType inputs title
  exact ⟨rfl, _, Table.insert_of_not_mem graph.nodes graph.nextId _ fresh⟩

end Graph

end NodeFlow
