import NodeFlow.Proofs.Json.Tokens

namespace NodeFlow

namespace Binary64

theorem unitsOfRank_pos {rank : Nat} (positive : 0 < rank) : 0 < unitsOfRank rank := by
  unfold unitsOfRank
  dsimp only
  split
  · rename_i small
    have whole := Nat.div_add_mod rank binade
    rw [small] at whole
    omega
  · have top : 0 < binade + rank % binade := Nat.add_pos_left (by decide) _
    rw [Nat.shiftLeft_eq]
    exact Nat.mul_pos top (Nat.two_pow_pos _)

theorem onGrid_pos {twiceUnits : Nat} (positive : 0 < twiceUnits) : 0 < onGrid twiceUnits := by
  unfold onGrid
  generalize finestGrid = grid
  exact Nat.mul_pos positive (Nat.pow_pos (by decide))

-- No grid has zero as a decimal for a number that is not zero.
theorem rounds_zero {x : Binary64} (nonzero : x.isZero = false) (grid : Nat) : x.rounds grid 0 = false := by
  have rank : 0 < x.rank := Nat.pos_of_ne_zero (by simpa [isZero] using nonzero)
  have units : 0 < x.units := unitsOfRank_pos rank
  have low := onGrid_pos (Nat.add_pos_right (unitsOfRank (x.rank - 1)) units)
  have high := onGrid_pos (Nat.add_pos_left units (unitsOfRank (x.rank + 1)))
  simp only [rounds, Nat.zero_mul, Nat.not_lt_zero, decide_false, Bool.false_and,
    beq_eq_false_iff_ne.2 (Nat.ne_of_lt low), beq_eq_false_iff_ne.2 (Nat.ne_of_lt high), Bool.and_false,
    Bool.or_false]

theorem le_round (tie : Tie) (num den : Nat) : num / den ≤ tie.round num den := by
  cases tie with
  | toEven => exact (roundHalfEven_bounds num den).1
  | up =>
    show num / den ≤ (2 * num + den) / (2 * den)
    rw [← Nat.mul_div_mul_left num den (show 0 < 2 by decide)]
    exact Nat.div_le_div_right (Nat.le_add_right _ _)

theorem nearestPoint_ne_zero {tie : Tie} {rounds : Nat → Bool} (zero : rounds 0 = false) {value scale point : Nat}
    (found : nearestPoint tie rounds value scale = some point) : point ≠ 0 := by
  have visible : ∀ point, rounds point = true → point ≠ 0 := by
    intro point rounded same
    rw [same, zero] at rounded
    cases rounded
  unfold nearestPoint at found
  dsimp only at found
  split at found
  · cases found
    have least := le_round tie value scale
    have positive := Nat.pos_of_ne_zero (visible (value / scale) ‹_›)
    exact Nat.ne_of_gt (Nat.lt_of_lt_of_le positive least)
  · cases found
    exact visible _ ‹_›
  · cases found
    exact Nat.succ_ne_zero _
  · cases found

-- The digit zero is written on the finest grid alone, where a point is taken without being looked at.
theorem coarsestPoint_zero {point? : Nat → Option Nat}
    (nonzero : ∀ grid point, point? grid = some point → point ≠ 0) (grid : Nat) (zero : (coarsestPoint point? grid).digits = 0) : (coarsestPoint point? grid).exponent ≤ 0 := by
  induction grid with
  | zero => exact Int.neg_nonpos_of_nonneg (Int.natCast_nonneg finestGrid)
  | succ grid ih =>
    unfold coarsestPoint at zero ⊢
    cases found : point? (grid + 1) with
    | some point =>
      rw [found] at zero
      exact absurd zero (nonzero _ point found)
    | none =>
      rw [found] at zero
      exact ih zero

theorem shortest_zero {x : Binary64} {tie : Tie} (zero : (x.shortest tie).digits = 0) :
    (x.shortest tie).exponent ≤ 0 := by
  unfold shortest at zero ⊢
  by_cases isZero : x.isZero = true
  · simp [isZero]
  · rw [if_neg isZero] at zero ⊢
    have nonzero : ∀ grid point, gridPoint tie x grid = some point → point ≠ 0 := fun grid point found =>
      nearestPoint_ne_zero (rounds_zero (Bool.eq_false_iff.2 isZero) grid) found
    exact coarsestPoint_zero nonzero _ zero

end Binary64

open Json Json.Scan Json.Read

namespace Json.Scan

def Digits (text : List Char) : Prop := ∀ c ∈ text, c.isDigit = true

def Whole (text : List Char) : Prop :=
  ∃ lead digits, text = lead :: digits ∧ Digits (lead :: digits) ∧ (lead = '0' → digits = [])

def Fraction (text : List Char) : Prop :=
  text = [] ∨ ∃ digits, text = '.' :: digits ∧ digits ≠ [] ∧ Digits digits

def Exponent (text : List Char) : Prop :=
  text = [] ∨ ∃ sign n, text = 'e' :: sign :: Nat.toDigits 10 n ∧ (sign = '+' ∨ sign = '-')

variable (cut : Cause) {after : List Char}

def Ends (after : List Char) : Prop := ∀ c tail, after = c :: tail → c.isDigit = false

theorem takeWhile_digits {digits : List Char} (each : Digits digits) (ends : Ends after) :
    (digits ++ after).takeWhile Char.isDigit = digits ∧ (digits ++ after).dropWhile Char.isDigit = after := by
  have none : after.takeWhile Char.isDigit = [] ∧ after.dropWhile Char.isDigit = after := by
    cases after with
    | nil => exact ⟨rfl, rfl⟩
    | cons c tail => simp [ends c tail rfl]
  rw [List.takeWhile_append_of_pos each, List.dropWhile_append_of_pos each, none.1, none.2, List.append_nil]
  exact ⟨rfl, rfl⟩

theorem wholePart_whole {whole : List Char} (shape : Whole whole) (ends : Ends after) :
    wholePart cut (whole ++ after) = .ok (whole, after) := by
  obtain ⟨lead, digits, rfl, each, single⟩ := shape
  have span := takeWhile_digits (fun c member => each c (List.mem_cons_of_mem _ member)) ends
  rw [List.cons_append, wholePart, leadingDigit_cons cut _ (each lead List.mem_cons_self)]
  simp only [bind, Except.bind, span.1, span.2]
  by_cases zero : lead = '0'
  · simp [zero, single zero]
  · simp [zero]

theorem fractionPart_fraction {fraction : List Char} (shape : Fraction fraction) (ends : Ends after)
    (noPoint : ∀ tail, after ≠ '.' :: tail) :
    ∃ digits, fractionPart cut (fraction ++ after) = .ok (digits, after) := by
  obtain rfl | ⟨digits, rfl, some, each⟩ := shape
  · exact ⟨[], fractionPart_none cut after noPoint⟩
  · have span := takeWhile_digits each ends
    rw [List.cons_append, fractionPart_point cut _ (by rw [span.1]; exact some), span.1, span.2]
    exact ⟨digits, rfl⟩

theorem exponentPart_exponent {exponent : List Char} (shape : Exponent exponent) :
    ∃ read, exponentPart cut exponent = .ok (read, []) := by
  obtain rfl | ⟨sign, n, rfl, signed⟩ := shape
  · exact ⟨none, rfl⟩
  · obtain ⟨lead, digits, written, digit, others, _⟩ := toDigits_head n
    have span := takeWhile_of_digits others
    rw [written]
    rcases signed with rfl | rfl <;>
      simp [exponentPart, leadingDigit_cons cut digits digit, bind, Except.bind, span.1, span.2]

theorem ends_exponent {exponent : List Char} (shape : Exponent exponent) :
    Ends exponent ∧ ∀ tail, exponent ≠ '.' :: tail := by
  obtain rfl | ⟨sign, n, rfl, _⟩ := shape
  · exact ⟨nofun, nofun⟩
  · refine ⟨?_, nofun⟩
    intro c tail same
    cases same
    decide

theorem unsignedNumeral_parts (negative : Bool) {whole fraction exponent : List Char} (first : Whole whole)
    (second : Fraction fraction) (third : Exponent exponent) :
    ∃ made, unsignedNumeral cut negative (whole ++ (fraction ++ exponent)) = .ok (made, []) := by
  obtain ⟨ends, noPoint⟩ := ends_exponent third
  have behind : Ends (fraction ++ exponent) := by
    obtain rfl | ⟨digits, rfl, _, _⟩ := second
    · exact ends
    · intro c tail same
      cases same
      decide
  obtain ⟨digits, fractional⟩ := fractionPart_fraction cut second ends noPoint
  obtain ⟨power, raised⟩ := exponentPart_exponent cut third
  simp [unsignedNumeral, bind, Except.bind, wholePart_whole cut first behind, fractional, raised]

def Spelled (text : List Char) : Prop :=
  ∃ whole fraction exponent, Whole whole ∧ Fraction fraction ∧ Exponent exponent ∧
    text = whole ++ (fraction ++ exponent)

theorem numeral_spelled (cut : Cause) (negative : Bool) {text : List Char} (spelled : Spelled text) :
    ∃ made, numeral cut (if negative then '-' :: text else text) = .ok (made, []) := by
  obtain ⟨whole, fraction, exponent, first, second, third, rfl⟩ := spelled
  cases negative with
  | true => exact unsignedNumeral_parts cut true first second third
  | false =>
    obtain ⟨made, read⟩ := unsignedNumeral_parts cut false first second third
    refine ⟨made, ?_⟩
    obtain ⟨lead, digits, rfl, each, _⟩ := first
    have unsigned : lead ≠ '-' := by
      rintro rfl
      exact absurd (each '-' List.mem_cons_self) (by decide)
    rw [← read]
    exact numeral_of_no_sign cut _ unsigned

theorem digits_toDigits (n : Nat) : Digits (Nat.toDigits 10 n) := by
  intro c member
  exact Nat.isDigit_of_mem_toDigits (by decide) (by decide) member

theorem Digits.append {first second : List Char} (one : Digits first) (two : Digits second) :
    Digits (first ++ second) := by
  intro c member
  exact (List.mem_append.1 member).elim (one c) (two c)

theorem whole_toDigits_append (n : Nat) {zeros : List Char} (digits : Digits zeros) (single : n = 0 → zeros = []) :
    Whole (Nat.toDigits 10 n ++ zeros) := by
  obtain ⟨lead, others, written, digit, each, zero⟩ := toDigits_head n
  have whole := (digits_toDigits n).append digits
  rw [written] at whole ⊢
  refine ⟨lead, others ++ zeros, rfl, whole, ?_⟩
  intro same
  rw [(zero same).2, single (zero same).1, List.append_nil]

theorem whole_take_toDigits (n count : Nat) (some : 0 < count) : Whole ((Nat.toDigits 10 n).take count) := by
  obtain ⟨lead, others, written, digit, each, zero⟩ := toDigits_head n
  obtain ⟨more, rfl⟩ := Nat.exists_eq_succ_of_ne_zero (Nat.ne_of_gt some)
  rw [written, List.take_succ_cons]
  refine ⟨lead, others.take more, rfl, ?_, ?_⟩
  · intro c member
    rcases List.mem_cons.1 member with rfl | later
    · exact digit
    · exact each c (List.mem_of_mem_take later)
  · intro same
    rw [(zero same).2, List.take_nil]

end Json.Scan

namespace FloatLayout

theorem digits_zeros (count : Int) : Digits (zeros count) := by
  intro c member
  rw [List.eq_of_mem_replicate member]
  decide

theorem zeros_of_nonpos {count : Int} (none : count ≤ 0) : zeros count = [] := by
  rw [zeros, Int.toNat_eq_zero.2 none, List.replicate_zero]

theorem placed_spelled (layout : FloatLayout) {digits : Nat} {exponent : Int} (zero : digits = 0 → exponent ≤ 0) :
    Spelled (layout.placed (Nat.toDigits 10 digits) ((Nat.toDigits 10 digits).length + exponent)) := by
  have each := digits_toDigits digits
  have nonempty : 0 < (Nat.toDigits 10 digits).length := List.length_pos_iff.2 Nat.toDigits_ne_nil
  unfold placed
  split
  · have whole : Whole ['0'] := ⟨'0', [], rfl, by simp [Digits], fun _ => rfl⟩
    have fraction : Fraction ('.' :: (zeros (-((Nat.toDigits 10 digits).length + exponent)) ++ Nat.toDigits 10 digits)) :=
      .inr ⟨_, rfl, by simp [Nat.toDigits_ne_nil], (digits_zeros _).append each⟩
    exact ⟨_, _, [], whole, fraction, .inl rfl, by simp⟩
  · split
    · have single : digits = 0 →
          zeros ((Nat.toDigits 10 digits).length + exponent - (Nat.toDigits 10 digits).length) = [] := by
        intro none
        have low := zero none
        exact zeros_of_nonpos (by omega)
      have whole := whole_toDigits_append digits (digits_zeros _) single
      have fraction : Fraction (if layout.keepsFraction then ['.', '0'] else []) := by
        split
        · exact .inr ⟨['0'], rfl, by simp, by simp [Digits]⟩
        · exact .inl rfl
      exact ⟨_, _, [], whole, fraction, .inl rfl, by rw [List.append_nil]⟩
    · rename_i positive inner
      have whole := whole_take_toDigits digits ((Nat.toDigits 10 digits).length + exponent).toNat (by omega)
      have behind : (Nat.toDigits 10 digits).drop ((Nat.toDigits 10 digits).length + exponent).toNat ≠ [] := by
        rw [Ne, List.drop_eq_nil_iff]
        omega
      refine ⟨_, _, [], whole, .inr ⟨_, rfl, behind, fun c member => each c (List.mem_of_mem_drop member)⟩,
        .inl rfl, by rw [List.append_nil]⟩

theorem scientific_spelled (digits : Nat) (exponent : Int) : Spelled (scientific (Nat.toDigits 10 digits) exponent) := by
  obtain ⟨lead, others, written, digit, each, _⟩ := toDigits_head digits
  have power : Exponent ('e' :: (if exponent < 0 then '-' else '+') :: Nat.toDigits 10 exponent.natAbs) := by
    refine .inr ⟨_, _, rfl, ?_⟩
    split
    · exact .inr rfl
    · exact .inl rfl
  have whole : Whole [lead] := ⟨lead, [], rfl, by simpa [Digits] using digit, fun _ => rfl⟩
  unfold scientific
  rw [written]
  cases others with
  | nil => exact ⟨_, [], _, whole, .inl rfl, power, rfl⟩
  | cons next rest => exact ⟨_, '.' :: next :: rest, _, whole, .inr ⟨_, rfl, by simp, each⟩, power, by simp⟩

theorem render_numeral (layout : FloatLayout) (x : Binary64) (cut : Cause) :
    ∃ made, numeral cut (layout.render x) = .ok (made, []) := by
  unfold render
  dsimp only
  refine numeral_spelled cut x.negative ?_
  split
  · exact placed_spelled layout Binary64.shortest_zero
  · exact scientific_spelled _ _

end FloatLayout

-- What is written for a number is a numeral, though it may stand for another number or for none.
theorem Number.render_numeral (value : Number) (cut : Cause) : ∃ made, numeral cut value.render = .ok (made, []) := by
  cases value with
  | integer n fits =>
    have whole := whole_toDigits_append n.natAbs (show Digits [] by simp [Digits]) fun _ => rfl
    have spelled : Spelled (Nat.toDigits 10 n.natAbs) := ⟨_, [], [], whole, .inl rfl, .inl rfl, by simp⟩
    obtain ⟨made, read⟩ := numeral_spelled cut (decide (n < 0)) spelled
    refine ⟨made, ?_⟩
    rw [← read, Number.render]
    by_cases negative : n < 0 <;> simp [negative]
  | float x => exact FloatLayout.document.render_numeral x cut

theorem Number.zero_readsBack (negative : Bool) : (Number.float ⟨negative, 0, by decide⟩).ReadsBack := by
  cases negative <;> decide +kernel

-- Two floats that compare equal are one, or they are zeros, which always read back.
theorem Number.readsBack_of_same {value found : Number} (read : Scan.number value.render = .ok (found, []))
    (same : found.same value = true) : value.ReadsBack := by
  suffices one : found = value ∨ value.ReadsBack by
    rcases one with rfl | back
    · exact read
    · exact back
  cases value with
  | integer n fits =>
    cases found with
    | integer m _ => left; simpa [Number.same] using same
    | float y => cases same
  | float x =>
    cases found with
    | integer m _ => cases same
    | float y =>
      obtain ⟨negative, rank, small⟩ := x
      obtain ⟨other, position, _⟩ := y
      have keys : Binary64.key ⟨other, position, ‹_›⟩ = Binary64.key ⟨negative, rank, small⟩ := by
        simpa [Number.same, Binary64.same] using same
      by_cases zero : rank = 0
      · subst zero
        exact .inr (Number.zero_readsBack negative)
      · left
        unfold Binary64.key at keys
        cases negative <;> cases other <;> simp at keys ⊢ <;> omega

namespace Json.Scan

variable {rest : List Char}

theorem number_of_append (value : Number) (stops : Stops rest) {found : Number} {after : List Char}
    (done : number (value.render ++ rest) = .ok (found, after)) :
    after = rest ∧ number value.render = .ok (found, []) := by
  obtain ⟨made, read⟩ := value.render_numeral .endInValue
  obtain ⟨⟨other, behind⟩, one, done⟩ := (bind_eq_ok_iff _ _ _).1 done
  rw [numeral_append stops read] at one
  cases one
  dsimp only at done
  split at done
  · rename_i same
    cases done
    exact ⟨rfl, by simp [number, read, bind, Except.bind, same]⟩
  · cases done

end Json.Scan

end NodeFlow
