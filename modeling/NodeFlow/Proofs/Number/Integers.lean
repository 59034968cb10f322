import NodeFlow.Proofs.Number.Magnitudes

namespace NodeFlow

theorem roundHalfEven_near (num : Nat) {den : Nat} (positive : 0 < den) :
    2 * (roundHalfEven num den * den) ≤ 2 * num + den ∧ 2 * num ≤ 2 * (roundHalfEven num den * den) + den := by
  have whole := Nat.div_add_mod num den
  have rest := Nat.mod_lt num positive
  have low : (num / den) * den = den * (num / den) := Nat.mul_comm _ _
  have next : (num / den + 1) * den = den * (num / den) + den := by rw [Nat.add_mul, low, Nat.one_mul]
  unfold roundHalfEven
  dsimp only
  split
  · rw [low]
    omega
  split
  · rw [next]
    omega
  · rcases Nat.mod_two_eq_zero_or_one (num / den) with even | odd
    · rw [even, Nat.add_zero, low]
      omega
    · rw [odd, next]
      omega

namespace Binary64

-- The least magnitude from which on integers may have one float.
def wholeLimit : Nat := 0x20000000000000

def wordLimit : Nat := 0x10000000000000000

def coarsest : Nat := 2048

def rankOfNat (n : Nat) : Nat := rankOf (n * unitsPerOne) 1

def nearest (n : Int) : Binary64 := (ofInt n).getD .zero

section Naturals

variable {n : Nat} {x : Binary64}

theorem unitsPerOne_eq : ∃ bits, unitsPerOne = 2 ^ bits := by
  have shifted : ∀ bits, 1 <<< bits = 2 ^ bits := Nat.one_shiftLeft
  exact ⟨_, shifted _⟩

theorem exponentOf_le {num bits : Nat} (small : num < 2 ^ (bits + 53)) : exponentOf num 1 ≤ bits := by
  unfold exponentOf
  rw [Nat.div_one]
  rcases Nat.eq_zero_or_pos num with zero | positive
  · simp [zero]
  · have top := (Nat.log2_lt (Nat.ne_of_gt positive)).2 small
    omega

theorem mul_unitsPerOne_lt {limit bits more : Nat} (ones : unitsPerOne = 2 ^ bits) (power : limit = 2 ^ more)
    (small : n < limit) : n * unitsPerOne < 2 ^ (bits + more) := by
  rw [ones, Nat.add_comm, Nat.pow_add, ← power]
  exact Nat.mul_lt_mul_of_pos_right small (Nat.two_pow_pos _)

-- A shift by no more bits than one has units is exact.
theorem units_ofNat_whole (found : ofNat n = some x) (small : n < wholeLimit) : x.units = n * unitsPerOne := by
  obtain ⟨bits, ones⟩ := unitsPerOne_eq
  have few := exponentOf_le (mul_unitsPerOne_lt ones (show wholeLimit = 2 ^ 53 from rfl) small)
  rw [ofNat_eq] at found
  have made := units_nearestUnits found
  rw [significandOf, Nat.one_shiftLeft, Nat.shiftLeft_eq] at made
  generalize exponentOf (n * unitsPerOne) 1 = exponent at few made
  have split : n * unitsPerOne = n * 2 ^ (bits - exponent) * 2 ^ exponent := by
    rw [Nat.mul_assoc, ← Nat.pow_add, Nat.sub_add_cancel few, ones]
  rw [made, split, roundHalfEven_exact _ _ (Nat.two_pow_pos exponent)]

theorem units_ofNat_near (found : ofNat n = some x) (word : n < wordLimit) :
    2 * x.units ≤ 2 * (n * unitsPerOne) + coarsest * unitsPerOne ∧
      2 * (n * unitsPerOne) ≤ 2 * x.units + coarsest * unitsPerOne := by
  obtain ⟨bits, ones⟩ := unitsPerOne_eq
  have bound : n * unitsPerOne < 2 ^ (bits + 11 + 53) := by
    rw [Nat.add_assoc]
    exact mul_unitsPerOne_lt ones (show wordLimit = 2 ^ (11 + 53) from rfl) word
  have last : 2 ^ exponentOf (n * unitsPerOne) 1 ≤ coarsest * unitsPerOne := by
    have gap : coarsest * unitsPerOne = 2 ^ (bits + 11) := by
      rw [ones, Nat.pow_add, Nat.mul_comm]
      rfl
    rw [gap]
    exact Nat.pow_le_pow_right (by decide) (exponentOf_le bound)
  have near := roundHalfEven_near (n * unitsPerOne) (Nat.two_pow_pos (exponentOf (n * unitsPerOne) 1))
  rw [ofNat_eq] at found
  rw [units_nearestUnits found, significandOf, Nat.one_shiftLeft, Nat.shiftLeft_eq]
  omega

theorem ofNat_word (word : n < wordLimit) : ∃ x, ofNat n = some x ∧ x.negative = false ∧ x.rank = rankOfNat n := by
  have within : wordLimit ≤ Numeral.safe := by decide +kernel
  obtain ⟨x, found⟩ := Numeral.ofNat_isSome (Nat.le_of_lt (Nat.lt_of_lt_of_le word within))
  refine ⟨x, found, ?_⟩
  rw [ofNat_eq] at found
  unfold nearestUnits at found
  dsimp only at found
  split at found
  · cases found
    exact ⟨rfl, rfl⟩
  · cases found

theorem rankOfNat_mono {a b : Nat} (le : a ≤ b) : rankOfNat a ≤ rankOfNat b :=
  rankOf_mono 1 (Nat.mul_le_mul_right unitsPerOne le)

theorem near_of_rankOfNat_eq {a b : Nat} (lt : a < b) (word : b < wordLimit) (same : rankOfNat a = rankOfNat b) :
    wholeLimit ≤ a ∧ b ≤ a + coarsest := by
  have positive : 0 < unitsPerOne := by decide +kernel
  obtain ⟨x, foundA, _, rankA⟩ := ofNat_word (Nat.lt_trans lt word)
  obtain ⟨y, foundB, _, rankB⟩ := ofNat_word word
  have units : x.units = y.units := congrArg unitsOfRank (rankA.trans (same.trans rankB.symm))
  constructor
  · refine Nat.le_of_not_lt fun small => ?_
    have exact_ := units_ofNat_whole foundA small
    rcases Nat.lt_or_ge b wholeLimit with low | high
    · rw [exact_, units_ofNat_whole foundB low] at units
      exact Nat.ne_of_lt lt (Nat.eq_of_mul_eq_mul_right positive units)
    · -- A float does not fall below a power of two that the integer reaches.
      have power : wholeLimit * unitsPerOne = 1 <<< 1127 := by decide +kernel
      rw [ofNat_eq] at foundB
      have top := le_units foundB (show 52 < 1127 by decide)
        (by rw [Nat.div_one, ← power]; exact Nat.mul_le_mul_right _ high)
      rw [← units, exact_, ← power] at top
      exact absurd (Nat.le_of_mul_le_mul_right top positive) (Nat.not_le.2 small)
  · have above := (units_ofNat_near foundA (Nat.lt_trans lt word)).1
    have below := (units_ofNat_near foundB word).2
    have scaled : b * unitsPerOne ≤ (a + coarsest) * unitsPerOne := by
      rw [Nat.add_mul]
      omega
    exact Nat.le_of_mul_le_mul_right scaled positive

theorem rankOfNat_zero : rankOfNat 0 = 0 := by simp [rankOfNat, rankOf, roundHalfEven]

theorem rankOfNat_pos {n : Nat} (positive : 0 < n) : 0 < rankOfNat n := by
  have least : 0 < rankOfNat 1 := by
    refine Nat.pos_of_ne_zero fun none => ?_
    have far := near_of_rankOfNat_eq Nat.one_pos (by decide) (rankOfNat_zero.trans none.symm)
    exact absurd far.1 (by decide)
  exact Nat.lt_of_lt_of_le least (rankOfNat_mono positive)

end Naturals

section Integers

variable {a b : Int}

theorem nearest_parts (word : a.natAbs < wordLimit) :
    (nearest a).negative = decide (a < 0) ∧ (nearest a).rank = rankOfNat a.natAbs := by
  obtain ⟨x, found, positive, rank⟩ := ofNat_word word
  unfold nearest ofInt
  rw [found]
  by_cases sign : a < 0 <;> simp [sign, neg, positive, rank]

theorem key_nearest (word : a.natAbs < wordLimit) :
    (nearest a).key = if a < 0 then -(rankOfNat a.natAbs : Int) else rankOfNat a.natAbs := by
  obtain ⟨sign, rank⟩ := nearest_parts word
  simp [key, sign, rank]

theorem nearest_mono (wordA : a.natAbs < wordLimit) (wordB : b.natAbs < wordLimit) (le : a ≤ b) :
    nearest a ≤ nearest b := by
  show (nearest a).key ≤ (nearest b).key
  rw [key_nearest wordA, key_nearest wordB]
  by_cases signA : a < 0
  · by_cases signB : b < 0
    · have ranks := rankOfNat_mono (show b.natAbs ≤ a.natAbs by omega)
      simp only [signA, signB, if_true]
      omega
    · simp only [signA, signB, if_true, if_false]
      omega
  · have ranks := rankOfNat_mono (show a.natAbs ≤ b.natAbs by omega)
    simp only [signA, show ¬ b < 0 by omega, if_false]
    omega

-- Equal as numbers: no integer has the float of a negative zero.
theorem nearest_eq_of_key_eq (wordA : a.natAbs < wordLimit) (wordB : b.natAbs < wordLimit)
    (same : (nearest a).key = (nearest b).key) : nearest a = nearest b := by
  rw [key_nearest wordA, key_nearest wordB] at same
  obtain ⟨signA, rankA⟩ := nearest_parts wordA
  obtain ⟨signB, rankB⟩ := nearest_parts wordB
  have signs : (a < 0 ↔ b < 0) ∧ rankOfNat a.natAbs = rankOfNat b.natAbs := by
    by_cases negA : a < 0
    · have some := rankOfNat_pos (show 0 < a.natAbs by omega)
      by_cases negB : b < 0
      · simp only [negA, negB, if_true] at same
        exact ⟨⟨fun _ => negB, fun _ => negA⟩, by omega⟩
      · simp only [negA, negB, if_true, if_false] at same
        omega
    · by_cases negB : b < 0
      · have some := rankOfNat_pos (show 0 < b.natAbs by omega)
        simp only [negA, negB, if_true, if_false] at same
        omega
      · simp only [negA, negB, if_false] at same
        exact ⟨⟨fun neg => absurd neg negA, fun neg => absurd neg negB⟩, by omega⟩
  have negatives : (nearest a).negative = (nearest b).negative := by rw [signA, signB, decide_eq_decide.2 signs.1]
  have ranks : (nearest a).rank = (nearest b).rank := by rw [rankA, rankB, signs.2]
  cases first : nearest a
  cases second : nearest b
  simp_all

theorem nearest_lt_iff (wordA : a.natAbs < wordLimit) (wordB : b.natAbs < wordLimit) :
    nearest a < nearest b ↔ a < b ∧ nearest a ≠ nearest b := by
  constructor
  · intro lt
    refine ⟨Int.not_le.1 fun le => not_lt.2 (nearest_mono wordB wordA le) lt, fun same => ?_⟩
    rw [same] at lt
    exact lt_irrefl _ lt
  · intro ⟨lt, apart⟩
    have le : (nearest a).key ≤ (nearest b).key := nearest_mono wordA wordB (Int.le_of_lt lt)
    exact Int.lt_iff_le_and_ne.2 ⟨le, fun same => apart (nearest_eq_of_key_eq wordA wordB same)⟩

theorem near_of_nearest_eq (wordA : a.natAbs < wordLimit) (wordB : b.natAbs < wordLimit) (same : nearest a = nearest b)
    (apart : a ≠ b) :
    wholeLimit ≤ a.natAbs ∧ wholeLimit ≤ b.natAbs ∧ (a - b).natAbs ≤ coarsest := by
  obtain ⟨signA, rankA⟩ := nearest_parts wordA
  obtain ⟨signB, rankB⟩ := nearest_parts wordB
  have ranks : rankOfNat a.natAbs = rankOfNat b.natAbs := by rw [← rankA, ← rankB, same]
  have signs : a < 0 ↔ b < 0 := decide_eq_decide.1 (by rw [← signA, ← signB, same])
  rcases Nat.lt_or_gt_of_ne (show a.natAbs ≠ b.natAbs by omega) with lt | gt
  · have near := near_of_rankOfNat_eq lt wordB ranks
    omega
  · have near := near_of_rankOfNat_eq gt wordA ranks.symm
    omega

end Integers

end Binary64

end NodeFlow
