import Mathlib.Tactic.Ring
import NodeFlow.Number.Numeral

namespace NodeFlow

namespace Binary64

def greatestUnits : Nat := 0x1fffffffffffff <<< 2045

theorem shiftLeft_mul (a b shift : Nat) : (a <<< shift) * b = a * (b <<< shift) := by
  rw [Nat.shiftLeft_eq, Nat.shiftLeft_eq, Nat.mul_assoc, Nat.mul_comm b]

theorem shiftLeft_mono {a b few many : Nat} (le : a ≤ b) (fewer : few ≤ many) : a <<< few ≤ b <<< many := by
  rw [Nat.shiftLeft_eq, Nat.shiftLeft_eq]
  exact Nat.mul_le_mul le (Nat.pow_le_pow_right (by decide) fewer)

def exponentOf (num den : Nat) : Nat := (num / den).log2 - 52

def significandOf (num den : Nat) : Nat := roundHalfEven num (den <<< exponentOf num den)

theorem rankOf_eq (num den : Nat) : rankOf num den = exponentOf num den * binade + significandOf num den := rfl

theorem rankOf_shifted (exponent : Nat) {significand den : Nat} (positive : 0 < den) (low : binade ≤ significand)
    (high : significand < 2 * binade) : rankOf ((significand <<< exponent) * den) den = exponent * binade + significand := by
  have bits : (significand <<< exponent).log2 = 52 + exponent := by
    rw [Nat.shiftLeft_eq, Nat.log2_eq_iff (Nat.mul_ne_zero (by omega) (Nat.ne_of_gt (Nat.two_pow_pos _))),
      show 52 + exponent + 1 = 53 + exponent by omega, Nat.pow_add, Nat.pow_add]
    exact ⟨Nat.mul_le_mul_right _ low, Nat.mul_lt_mul_of_pos_right high (Nat.two_pow_pos _)⟩
  have exponentOf_eq : exponentOf ((significand <<< exponent) * den) den = exponent := by
    rw [exponentOf, Nat.mul_div_cancel _ positive, bits, Nat.add_sub_cancel_left]
  rw [rankOf_eq, significandOf, exponentOf_eq, shiftLeft_mul]
  congr 1
  exact roundHalfEven_exact _ _ (Nat.lt_of_lt_of_le positive (shiftLeft_mono (Nat.le_refl _) (Nat.zero_le _)))

theorem rankOf_greatest (den : Nat) (positive : 0 < den) : rankOf (greatestUnits * den) den < rankLimit := by
  rw [greatestUnits, rankOf_shifted 2045 positive (by decide) (by decide)]
  decide

theorem nearestUnits_isSome {num den : Nat} (positive : 0 < den) (le : num ≤ greatestUnits * den) :
    ∃ x, nearestUnits num den = some x := by
  have rank : rankOf num den < rankLimit := Nat.lt_of_le_of_lt (rankOf_mono den le) (rankOf_greatest den positive)
  exact ⟨⟨false, _, rank⟩, by simp [nearestUnits, rank]⟩

-- The top of a binade is the bottom of the next one.
theorem unitsOfRank_eq {exponent significand : Nat} (le : significand ≤ 2 * binade)
    (ge : 0 < exponent → binade ≤ significand) :
    unitsOfRank (exponent * binade + significand) = significand <<< exponent := by
  have positive : 0 < binade := by decide
  unfold unitsOfRank
  dsimp only
  rcases Nat.lt_or_ge significand binade with small | large
  · have zero : exponent = 0 := Nat.eq_zero_of_not_pos fun some => Nat.not_lt.2 (ge some) small
    subst zero
    simp [Nat.div_eq_of_lt small, Nat.mod_eq_of_lt small]
  rcases Nat.lt_or_ge significand (2 * binade) with inside | top
  · obtain ⟨fraction, rfl⟩ := Nat.exists_eq_add_of_le large
    have bound : fraction < binade := by omega
    have split : exponent * binade + (binade + fraction) = fraction + binade * (exponent + 1) := by ring
    rw [split, Nat.add_mul_div_left _ _ positive, Nat.add_mul_mod_self_left, Nat.div_eq_of_lt bound,
      Nat.mod_eq_of_lt bound]
    simp
  · obtain rfl := Nat.le_antisymm le top
    have split : exponent * binade + 2 * binade = binade * (exponent + 2) := by ring
    rw [split, Nat.mul_div_cancel_left _ positive, Nat.mul_mod_right]
    simp [Nat.shiftLeft_eq, Nat.pow_succ]
    ring

theorem units_nearestUnits {num den : Nat} {x : Binary64} (found : nearestUnits num den = some x) :
    x.units = significandOf num den <<< exponentOf num den := by
  unfold nearestUnits at found
  dsimp only at found
  split at found <;> cases found
  exact unitsOfRank_eq (significand_le num den) (significand_ge num den)

-- Rounding adds less than one in the last place.
theorem units_le {num den : Nat} {x : Binary64} (found : nearestUnits num den = some x) :
    x.units ≤ num / den + num / den / 2 ^ 52 + 1 := by
  have last : 2 ^ exponentOf num den ≤ num / den / 2 ^ 52 + 1 := by
    unfold exponentOf
    rcases Nat.lt_or_ge (num / den).log2 52 with small | large
    · simp [Nat.sub_eq_zero_of_le (Nat.le_of_lt small)]
    · have whole : num / den ≠ 0 := by
        intro zero
        simp [zero] at large
      have power : 2 ^ ((num / den).log2 - 52) * 2 ^ 52 ≤ num / den := by
        rw [← Nat.pow_add, Nat.sub_add_cancel large]
        exact Nat.log2_self_le whole
      exact Nat.le_succ_of_le ((Nat.le_div_iff_mul_le (by decide)).2 power)
  have significand : significandOf num den ≤ num / den / 2 ^ exponentOf num den + 1 := by
    have bound : significandOf num den ≤ num / (den <<< exponentOf num den) + 1 := (roundHalfEven_bounds _ _).2
    rwa [Nat.shiftLeft_eq, ← Nat.div_div_eq_div_mul] at bound
  calc x.units = significandOf num den * 2 ^ exponentOf num den := by
        rw [units_nearestUnits found, Nat.shiftLeft_eq]
    _ ≤ (num / den / 2 ^ exponentOf num den + 1) * 2 ^ exponentOf num den := Nat.mul_le_mul_right _ significand
    _ ≤ num / den + 2 ^ exponentOf num den := by
        rw [Nat.add_mul, Nat.one_mul]
        exact Nat.add_le_add_right (Nat.div_mul_le_self _ _) _
    _ ≤ num / den + num / den / 2 ^ 52 + 1 := by
        rw [Nat.add_assoc]
        exact Nat.add_le_add_left last _

-- Rounding does not go below a power of two.
theorem le_units {num den power : Nat} {x : Binary64} (found : nearestUnits num den = some x) (high : 52 < power)
    (le : 1 <<< power ≤ num / den) : 1 <<< power ≤ x.units := by
  rw [Nat.one_shiftLeft] at le ⊢
  have whole : num / den ≠ 0 := by
    intro zero
    rw [zero] at le
    exact absurd le (Nat.not_le.2 (Nat.two_pow_pos _))
  have top : power ≤ (num / den).log2 := (Nat.le_log2 whole).2 le
  have exponent : exponentOf num den = (num / den).log2 - 52 := rfl
  have significand : binade ≤ significandOf num den := significand_ge num den (by omega)
  rw [units_nearestUnits found, Nat.shiftLeft_eq]
  have unit : binade = 2 ^ 52 := rfl
  calc 2 ^ power ≤ 2 ^ (52 + exponentOf num den) := Nat.pow_le_pow_right (by decide) (by omega)
    _ = binade * 2 ^ exponentOf num den := by rw [Nat.pow_add, unit]
    _ ≤ significandOf num den * 2 ^ exponentOf num den := Nat.mul_le_mul_right _ significand

theorem units_le_greatest (x : Binary64) : x.units ≤ greatestUnits := by
  have limit := x.rank_lt
  have exponent : x.rank / binade ≤ 2046 := by
    have span : rankLimit = 2047 * binade := rfl
    rw [span] at limit
    exact Nat.le_of_lt_succ (Nat.div_lt_of_lt_mul (by rwa [Nat.mul_comm]))
  have fraction : x.rank % binade < binade := Nat.mod_lt _ (by decide)
  have all : 0x1fffffffffffff = 2 * binade - 1 := rfl
  have below : x.rank % binade ≤ 2 * binade - 1 := by omega
  have implied : binade + x.rank % binade ≤ 2 * binade - 1 := by omega
  unfold units unitsOfRank greatestUnits
  dsimp only
  rw [all]
  split
  · show (x.rank % binade) <<< 0 ≤ _
    exact shiftLeft_mono below (Nat.zero_le _)
  · exact shiftLeft_mono implied (Nat.sub_le_of_le_add exponent)

theorem div_isSome (x : Binary64) {y : Binary64} (one : unitsPerOne ≤ y.units) : ∃ z, x.div y = some z := by
  have positive : 0 < unitsPerOne := by decide +kernel
  unfold div
  exact nearestUnits_isSome (Nat.lt_of_lt_of_le positive one) (Nat.mul_le_mul x.units_le_greatest one)

theorem ofNat_eq (n : Nat) : ofNat n = nearestUnits (n * unitsPerOne) 1 := rfl

theorem ofNat_zero : ofNat 0 = some zero := by
  have rank : rankOf 0 1 = 0 := by simp [rankOf, roundHalfEven]
  simp [ofNat, ofRatio, nearestUnits, rank, rankLimit, zero]

theorem units_ofNat_le {n : Nat} {x : Binary64} (found : ofNat n = some x) :
    2 ^ 50 * x.units ≤ (2 ^ 50 + 1) * (n * unitsPerOne) := by
  have room : 2 ^ 52 ≤ unitsPerOne := by decide +kernel
  rcases Nat.eq_zero_or_pos n with zero | positive
  · rw [zero, ofNat_zero] at found
    cases found
    exact Nat.zero_le _
  · rw [ofNat_eq] at found
    have bound := units_le found
    rw [Nat.div_one] at bound
    have large := Nat.le_trans room (Nat.le_mul_of_pos_left unitsPerOne positive)
    omega

end Binary64

namespace Numeral

open Binary64

-- In fourteen digits, a magnitude up to which no rounding step leads beyond the finite numbers.
def safe : Nat := 17976931348623 * Nat.pow 10 295

theorem pow_le {few many bound : Nat} (le : few ≤ many) (top : Nat.pow 10 many ≤ bound) : Nat.pow 10 few ≤ bound :=
  Nat.le_trans (Nat.pow_le_pow_right (by decide) le) top

theorem lt_pow {few many bound : Nat} (le : few ≤ many) (top : bound < Nat.pow 10 few) : bound < Nat.pow 10 many :=
  Nat.lt_of_lt_of_le top (Nat.pow_le_pow_right (by decide) le)

theorem ofNat_isSome {n : Nat} (le : n ≤ safe) : ∃ x, ofNat n = some x := by
  have finite : safe * unitsPerOne ≤ greatestUnits * 1 := by decide +kernel
  rw [ofNat_eq]
  exact nearestUnits_isSome Nat.one_pos ((Nat.mul_le_mul_right unitsPerOne le).trans finite)

theorem powerOfTen_found {exponent : Nat} (few : exponent ≤ 308) :
    ofNat (Nat.pow 10 exponent) = some (powerOfTen exponent) := by
  have least : Nat.pow 10 exponent ≤ safe := pow_le few (by decide +kernel)
  obtain ⟨x, found⟩ := ofNat_isSome least
  rw [powerOfTen, found, Option.getD_some]

theorem one_le_powerOfTen {exponent : Nat} (few : exponent ≤ 308) : unitsPerOne ≤ (powerOfTen exponent).units := by
  have least : unitsPerOne ≤ Nat.pow 10 exponent * unitsPerOne / 1 := by
    rw [Nat.div_one]
    exact Nat.le_mul_of_pos_left _ (Nat.pow_pos (by decide))
  have found := powerOfTen_found few
  rw [ofNat_eq] at found
  exact le_units found (show 52 < 1074 by decide) least

-- The errors of two rounded factors stay below what is left between the limit and the greatest number.
theorem mul_isSome {leading exponent : Nat} {x : Binary64} (found : ofNat leading = some x) (few : exponent ≤ 308)
    (small : leading * Nat.pow 10 exponent ≤ safe) : ∃ y, x.mul (powerOfTen exponent) = some y := by
  have room : (2 ^ 50 + 1) * (2 ^ 50 + 1) * safe * unitsPerOne ≤ 2 ^ 50 * 2 ^ 50 * greatestUnits := by decide +kernel
  have one := units_ofNat_le found
  have two := units_ofNat_le (powerOfTen_found few)
  unfold Binary64.mul
  refine nearestUnits_isSome (by decide +kernel) ?_
  generalize Nat.pow 10 exponent = power at small two
  generalize unitsPerOne = unit at room one two ⊢
  generalize 2 ^ 50 + 1 = above at room one two
  have scale : 0 < 2 ^ 50 := by decide
  generalize 2 ^ 50 = below at room one two scale
  refine Nat.le_of_mul_le_mul_left ?_ (Nat.mul_pos scale scale)
  calc below * below * (x.units * (powerOfTen exponent).units)
      = below * x.units * (below * (powerOfTen exponent).units) := by ring
    _ ≤ above * (leading * unit) * (above * (power * unit)) := Nat.mul_le_mul one two
    _ = above * above * (leading * power) * unit * unit := by ring
    _ ≤ above * above * safe * unit * unit :=
        Nat.mul_le_mul_right _ (Nat.mul_le_mul_right _ (Nat.mul_le_mul_left _ small))
    _ ≤ below * below * greatestUnits * unit := Nat.mul_le_mul_right _ room
    _ = below * below * (greatestUnits * unit) := by ring

theorem scaled_isSome {leading : Nat} {power : Int} (word : leading ≤ largestWord)
    (small : 0 ≤ power → leading * Nat.pow 10 power.toNat ≤ safe) : (scaled leading power).isSome := by
  have within : largestWord ≤ safe := by decide +kernel
  obtain ⟨x, found⟩ := ofNat_isSome (word.trans within)
  unfold scaled
  rw [found]
  simp only [Option.bind_eq_bind, Option.bind_some]
  split
  · rename_i large
    have high : 309 ≤ power.toNat := by omega
    have beyond : safe < Nat.pow 10 power.toNat := lt_pow high (by decide +kernel)
    have none : leading = 0 := by
      refine Nat.eq_zero_of_not_pos fun positive => Nat.not_le.2 beyond ?_
      exact Nat.le_trans (Nat.le_mul_of_pos_left _ positive) (small (by omega))
    rw [none, ofNat_zero] at found
    cases found
    rfl
  split
  · rename_i few nonneg
    obtain ⟨y, done⟩ := mul_isSome found (by omega) (small nonneg)
    rw [done]
    rfl
  split
  · obtain ⟨y, done⟩ := x.div_isSome (one_le_powerOfTen (show (-power).toNat ≤ 308 by omega))
    rw [done]
    rfl
  split
  · obtain ⟨y, first⟩ := x.div_isSome (one_le_powerOfTen (Nat.le_refl 308))
    obtain ⟨z, second⟩ := y.div_isSome (one_le_powerOfTen (show (-power - 308).toNat ≤ 308 by omega))
    rw [first, Option.bind_some, second]
    rfl
  · rfl

section Digits

variable {limit start got : Nat} {digits left : List Char}

theorem le_ofDigitChars (digits : List Char) (start : Nat) :
    start * Nat.pow 10 digits.length ≤ Nat.ofDigitChars 10 digits start := by
  rw [Nat.ofDigitChars_eq_ofDigitChars_zero, Nat.mul_comm start]
  exact Nat.le_add_right _ _

theorem accumulate_cons (limit start : Nat) (c : Char) (rest : List Char) :
    accumulate limit start (c :: rest) =
      if start * 10 + digitValue c ≤ limit then accumulate limit (start * 10 + digitValue c) rest
      else (start, c :: rest) := rfl

-- What is left unread goes on from what was read.
theorem accumulate_value (done : accumulate limit start digits = (got, left)) :
    Nat.ofDigitChars 10 digits start = Nat.ofDigitChars 10 left got := by
  induction digits generalizing start with
  | nil =>
    cases done
    rfl
  | cons c rest ih =>
    rw [accumulate_cons] at done
    split at done
    · rw [Nat.ofDigitChars_cons, ← ih done, Nat.mul_comm]
      rfl
    · cases done
      rfl

theorem accumulate_le (within : start ≤ limit) (done : accumulate limit start digits = (got, left)) : got ≤ limit := by
  induction digits generalizing start with
  | nil =>
    cases done
    exact within
  | cons c rest ih =>
    rw [accumulate_cons] at done
    split at done
    · exact ih ‹_› done
    · cases done
      exact within

-- The first unread digit would lead beyond the limit.
theorem accumulate_stop {c : Char} {rest : List Char} (done : accumulate limit start digits = (got, c :: rest)) :
    limit < 10 * got + digitValue c := by
  induction digits generalizing start with
  | nil => cases done
  | cons d others ih =>
    rw [accumulate_cons] at done
    split at done
    · exact ih done
    · cases done
      omega

theorem accumulate_took (done : accumulate limit start digits = (got, left)) :
    (got = start ∧ left = digits) ∨ left.length < digits.length := by
  induction digits generalizing start with
  | nil =>
    cases done
    exact .inl ⟨rfl, rfl⟩
  | cons c rest ih =>
    rw [accumulate_cons] at done
    split at done
    · refine .inr ?_
      rcases ih done with ⟨_, rfl⟩ | fewer
      · exact Nat.lt_succ_self _
      · exact Nat.lt_succ_of_lt fewer
    · cases done
      exact .inl ⟨rfl, rfl⟩

end Digits

section Values

def digits (n : Numeral) : Nat := Nat.ofDigitChars 10 (n.whole ++ n.fraction) 0

def raised (n : Numeral) : Int :=
  match n.exponent with
  | none => 0
  | some (below, digits) =>
    if below then -(Nat.ofDigitChars 10 digits 0 : Int) else (Nat.ofDigitChars 10 digits 0 : Int)

def power (n : Numeral) : Int := n.raised - n.fraction.length

def AtMost (n : Numeral) (limit : Nat) : Prop :=
  n.digits * Nat.pow 10 n.power.toNat ≤ limit * Nat.pow 10 (-n.power).toNat

def greatest : Nat := 0x1fffffffffffff <<< 971

-- A magnitude that every evaluation keeps finite, in a text of a length that machines can hold.
structure InRange (n : Numeral) : Prop where
  small : n.AtMost safe
  short : n.fraction.length + 309 ≤ largestExponent

-- The leading digits stand for no more than all of them. A fraction digit that is taken after a dropped
-- one is not greater than that, since with the dropped one the word would have been exceeded.
theorem significand_shape (n : Numeral) : ∃ leading kept : Nat,
    n.significand = (leading, (kept : Int) - n.fraction.length) ∧ leading ≤ largestWord ∧
      leading * Nat.pow 10 kept ≤ n.digits := by
  obtain ⟨negative, whole, fraction, exponent⟩ := n
  unfold significand digits
  obtain ⟨⟨first, dropped⟩, one⟩ : ∃ read, accumulate largestWord 0 whole = read := ⟨_, rfl⟩
  obtain ⟨⟨leading, unread⟩, two⟩ : ∃ read, accumulate largestWord first fraction = read := ⟨_, rfl⟩
  simp only [one, two]
  have word := accumulate_le (Nat.zero_le _) one
  have lead := accumulate_le word two
  have took := accumulate_took two
  have fewer : unread.length ≤ fraction.length := by
    rcases took with ⟨_, rfl⟩ | fewer
    · exact Nat.le_refl _
    · exact Nat.le_of_lt fewer
  refine ⟨leading, dropped.length + unread.length, by simp only [Prod.mk.injEq, true_and]; omega, lead, ?_⟩
  rw [Nat.ofDigitChars_append, accumulate_value one]
  cases dropped with
  | nil =>
    have read : Nat.ofDigitChars 10 fraction first = Nat.ofDigitChars 10 unread leading := accumulate_value two
    rw [Nat.ofDigitChars_nil, read, List.length_nil, Nat.zero_add]
    exact le_ofDigitChars unread leading
  | cons d others =>
    refine Nat.le_trans ?_ (le_ofDigitChars fraction _)
    rcases took with ⟨rfl, rfl⟩ | fewer
    · have whole := le_ofDigitChars (d :: others) leading
      calc leading * Nat.pow 10 ((d :: others).length + unread.length)
          = leading * Nat.pow 10 (d :: others).length * Nat.pow 10 unread.length := by
            rw [Nat.mul_assoc]
            exact congrArg _ (Nat.pow_add ..)
        _ ≤ _ := Nat.mul_le_mul_right _ whole
    · have below : leading ≤ 10 * first + digitValue d := Nat.le_of_lt (Nat.lt_of_le_of_lt lead (accumulate_stop one))
      have digits : (d :: others).length + unread.length ≤ others.length + fraction.length := by
        rw [List.length_cons]
        omega
      have whole := le_ofDigitChars others (10 * first + digitValue d)
      calc leading * Nat.pow 10 ((d :: others).length + unread.length)
          ≤ (10 * first + digitValue d) * Nat.pow 10 (others.length + fraction.length) :=
            Nat.mul_le_mul below (pow_le digits (Nat.le_refl _))
        _ = (10 * first + digitValue d) * Nat.pow 10 others.length * Nat.pow 10 fraction.length := by
            rw [Nat.mul_assoc]
            exact congrArg _ (Nat.pow_add ..)
        _ ≤ _ := Nat.mul_le_mul_right _ whole

theorem leading_small {leading kept all : Nat} {scale : Int} (le : leading * Nat.pow 10 kept ≤ all)
    (small : all * Nat.pow 10 scale.toNat ≤ safe * Nat.pow 10 (-scale).toNat) (nonneg : 0 ≤ kept + scale) :
    leading * Nat.pow 10 (kept + scale).toNat ≤ safe := by
  have shift : (kept + scale).toNat + (-scale).toNat = kept + scale.toNat := by omega
  refine Nat.le_of_mul_le_mul_right ?_ (Nat.pow_pos (n := (-scale).toNat) (show 0 < 10 by decide))
  calc leading * Nat.pow 10 (kept + scale).toNat * Nat.pow 10 (-scale).toNat
      = leading * Nat.pow 10 kept * Nat.pow 10 scale.toNat := by
        rw [Nat.mul_assoc, Nat.mul_assoc]
        exact congrArg _ ((Nat.pow_add ..).symm.trans ((congrArg _ shift).trans (Nat.pow_add ..)))
    _ ≤ all * Nat.pow 10 scale.toNat := Nat.mul_le_mul_right _ le
    _ ≤ safe * Nat.pow 10 (-scale).toNat := small

-- An exponent that is too large to be read leads beyond the limit, whatever the digits are.
theorem not_inRange_of_raised {n : Numeral} (positive : 0 < n.digits) (beyond : largestExponent < n.raised) :
    ¬ n.InRange := by
  rintro ⟨small, short⟩
  unfold AtMost at small
  have high : 309 ≤ n.power.toNat := by
    unfold power
    omega
  have none : (-n.power).toNat = 0 := by omega
  have least : safe < Nat.pow 10 n.power.toNat := lt_pow high (by decide +kernel)
  rw [none] at small
  generalize safe = limit at small least
  have within : Nat.pow 10 n.power.toNat ≤ limit * 1 := (Nat.le_mul_of_pos_left _ positive).trans small
  omega

theorem magnitude_isSome {n : Numeral} (inRange : n.InRange) : n.magnitude.isSome := by
  obtain ⟨leading, kept, shape, word, le⟩ := significand_shape n
  have finite : (scaled leading ((kept : Int) - n.fraction.length + n.raised)).isSome := by
    have total : (kept : Int) - n.fraction.length + n.raised = kept + n.power := by
      unfold power
      omega
    rw [total]
    exact scaled_isSome word (leading_small le inRange.small)
  unfold magnitude
  rw [shape]
  cases written : n.exponent with
  | none =>
    have raised : n.raised = 0 := by simp [raised, written]
    simpa [raised] using finite
  | some exponent =>
    obtain ⟨below, digits⟩ := exponent
    obtain ⟨⟨value, unread⟩, read⟩ : ∃ read, accumulate largestExponent 0 digits = read := ⟨_, rfl⟩
    have total := accumulate_value read
    simp only [read]
    cases unread with
    | nil =>
      rw [Nat.ofDigitChars_nil] at total
      cases below with
      | true =>
        have raised : n.raised = -value := by simp [raised, written, total]
        simpa [raised, Int.sub_eq_add_neg] using finite
      | false =>
        have raised : n.raised = value := by simp [raised, written, total]
        simpa [raised] using finite
    | cons d others =>
      by_cases vanishes : (below || leading == 0) = true
      · simp [vanishes]
      · exfalso
        simp only [Bool.or_eq_true, beq_iff_eq, not_or, Bool.not_eq_true] at vanishes
        have raised : n.raised = Nat.ofDigitChars 10 digits 0 := by simp [raised, written, vanishes.1]
        refine not_inRange_of_raised ?_ ?_ inRange
        · exact Nat.lt_of_lt_of_le (Nat.mul_pos (Nat.pos_of_ne_zero vanishes.2) (Nat.pow_pos (by decide))) le
        · have least := le_ofDigitChars others (10 * value + digitValue d)
          have one : 10 * value + digitValue d ≤ (10 * value + digitValue d) * Nat.pow 10 others.length :=
            Nat.le_mul_of_pos_right _ (Nat.pow_pos (by decide))
          rw [raised, total]
          exact Int.ofNat_lt.2 (Nat.lt_of_lt_of_le (accumulate_stop read) (one.trans least))

theorem number?_of_inRange {n : Numeral} (inRange : n.InRange) : n.number?.isSome := by
  unfold number?
  split
  · rfl
  · rw [Option.isSome_map]
    exact magnitude_isSome inRange

end Values

end Numeral

end NodeFlow
