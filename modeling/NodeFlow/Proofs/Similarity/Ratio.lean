import NodeFlow.Proofs.Number.Magnitudes
import NodeFlow.Proofs.Similarity.Ranking

namespace NodeFlow

namespace Binary64

theorem nearestUnits_eq {num den rank : Nat} (found : rankOf num den = rank) (finite : rank < rankLimit) :
    nearestUnits num den = some ⟨false, rank, finite⟩ := by
  subst found
  exact dif_pos finite

theorem unitsPerOne_eq_shifted : unitsPerOne = binade <<< 1022 := by decide +kernel

theorem rankOf_ones {total : Nat} (positive : 0 < total) : rankOf (total * unitsPerOne) total = 1023 * binade := by
  rw [Nat.mul_comm, unitsPerOne_eq_shifted, rankOf_shifted 1022 positive (Nat.le_refl _) (by decide)]
  rfl

theorem rankOf_zero (den : Nat) : rankOf 0 den = 0 := by
  have rounded : ∀ unit, roundHalfEven 0 unit = 0 := by
    intro unit
    unfold roundHalfEven
    simp
  simp [rankOf, rounded]

end Binary64

namespace Similarity

section Scores

variable {common total : Nat}

theorem one_eq : one = ⟨false, 1023 * binade, by decide⟩ := by
  have rank := Binary64.rankOf_ones (show 0 < 1 by decide)
  unfold one Binary64.ofNat Binary64.ofRatio
  rw [Binary64.nearestUnits_eq rank (by decide), Option.getD_some]

-- A score is a non-negative float, with the rank of the quotient.
theorem score_eq (positive : 0 < total) (le : 2 * common ≤ total) :
    (score common total).negative = false ∧
      (score common total).rank = Binary64.rankOf (2 * common * Binary64.unitsPerOne) total := by
  obtain ⟨x, found⟩ := Binary64.ofRatio_isSome le
  rw [score, if_neg (Nat.ne_of_gt positive), found, Option.getD_some]
  unfold Binary64.ofRatio Binary64.nearestUnits at found
  dsimp only at found
  split at found
  · cases found
    exact ⟨rfl, rfl⟩
  · cases found

theorem score_full (full : 2 * common = total) : score common total = one := by
  rcases Nat.eq_zero_or_pos total with zero | positive
  · rw [score, if_pos zero]
  · rw [score, if_neg (Nat.ne_of_gt positive), full, Binary64.ofRatio,
      Binary64.nearestUnits_eq (Binary64.rankOf_ones positive) (by decide), Option.getD_some, one_eq]

theorem score_none (positive : 0 < total) : score 0 total = .zero := by
  rw [score, if_neg (Nat.ne_of_gt positive), Nat.mul_zero, Binary64.ofRatio, Nat.zero_mul,
    Binary64.nearestUnits_eq (Binary64.rankOf_zero total) (by decide), Option.getD_some]
  rfl

theorem score_range (le : 2 * common ≤ total) : .zero ≤ score common total ∧ score common total ≤ one := by
  rcases Nat.eq_zero_or_pos total with zero | positive
  · rw [score, if_pos zero, one_eq]
    decide
  · obtain ⟨sign, rank⟩ := score_eq positive le
    have top := Binary64.rankOf_mono total (Nat.mul_le_mul_right Binary64.unitsPerOne le)
    rw [Binary64.rankOf_ones positive, ← rank] at top
    have bottom : Binary64.zero.key = 0 := rfl
    have key : (score common total).key = (score common total).rank := by rw [Binary64.key, sign]; rfl
    have oneKey : one.key = (1023 * binade : Nat) := by rw [one_eq]; rfl
    show Binary64.zero.key ≤ (score common total).key ∧ (score common total).key ≤ one.key
    rw [bottom, key, oneKey]
    omega

-- Up to this number of characters, every number of characters is a float.
def exactTotal : Nat := 0x20000000000000

-- The quotient does not come nearer to one than the float before it.
theorem score_ne_one (less : 2 * common < total) (exact : total ≤ exactTotal) : score common total ≠ one := by
  have positive : 0 < total := Nat.lt_of_le_of_lt (Nat.zero_le _) less
  have below : 2 * common * Binary64.unitsPerOne ≤ ((2 * binade - 1) <<< 1021) * total := by
    have counts : 2 * common * (2 * binade) ≤ (2 * binade - 1) * total := by
      have scale : exactTotal = 2 * binade := rfl
      have parts : (2 * binade - 1) * total + total = 2 * binade * total := by
        rw [← Nat.succ_mul]; rfl
      have step : (2 * common + 1) * (2 * binade) ≤ total * (2 * binade) := Nat.mul_le_mul_right _ less
      rw [Nat.add_mul, Nat.one_mul, Nat.mul_comm total] at step
      omega
    have units : Binary64.unitsPerOne = 2 * binade * 2 ^ 1021 := by decide +kernel
    calc 2 * common * Binary64.unitsPerOne = 2 * common * (2 * binade) * 2 ^ 1021 := by
          rw [units, ← Nat.mul_assoc (2 * common)]
      _ ≤ (2 * binade - 1) * total * 2 ^ 1021 := Nat.mul_le_mul_right _ counts
      _ = ((2 * binade - 1) <<< 1021) * total := by rw [Nat.shiftLeft_eq, Nat.mul_right_comm]
  have rank := Binary64.rankOf_mono total below
  rw [Binary64.rankOf_shifted 1021 positive (by decide) (by decide), ← (score_eq positive (Nat.le_of_lt less)).2] at rank
  intro same
  rw [same, one_eq] at rank
  exact absurd rank (by decide)

theorem score_ne_zero (some : 0 < common) (le : 2 * common ≤ total) (exact : total ≤ exactTotal) :
    score common total ≠ .zero := by
  have positive : 0 < total := by omega
  have above : (binade <<< 970) * total ≤ 2 * common * Binary64.unitsPerOne := by
    have units : (binade <<< 970) * exactTotal = 2 * Binary64.unitsPerOne := by decide +kernel
    calc (binade <<< 970) * total ≤ (binade <<< 970) * exactTotal := Nat.mul_le_mul_left _ exact
      _ = 2 * Binary64.unitsPerOne := units
      _ ≤ 2 * common * Binary64.unitsPerOne := Nat.mul_le_mul_right _ (by omega)
  have rank := Binary64.rankOf_mono total above
  rw [Binary64.rankOf_shifted 970 positive (Nat.le_refl _) (by decide), ← (score_eq positive le).2] at rank
  intro same
  rw [same] at rank
  exact absurd rank (by decide)

end Scores

section Matching

variable {a b : List Char}

theorem twice_matchingChars_le (a b : List Char) :
    2 * matchingChars a b ≤ a.length + b.length ∧ (2 * matchingChars a b = a.length + b.length → a = b) := by
  obtain ⟨part, length, left, right⟩ := matchingChars_common a b
  have inLeft := left.length_le
  have inRight := right.length_le
  refine ⟨by omega, fun full => ?_⟩
  rw [← left.eq_of_length (by omega), ← right.eq_of_length (by omega)]

theorem matchingChars_self (a : List Char) : matchingChars a a = a.length := by
  obtain ⟨part, length, within, _⟩ := matchingChars_common a a
  refine Nat.le_antisymm (length ▸ within.length_le) ?_
  obtain ⟨blocks, divides⟩ := exists_blocks a a
  have whole : (⟨0, 0, a.length⟩ : Block).Common a a (.whole a a) :=
    ⟨Nat.le_refl _, Nat.le_refl _, Nat.le_of_eq (Nat.zero_add _), Nat.le_of_eq (Nat.zero_add _), a, rfl,
      by simp [slice], by simp [slice]⟩
  generalize matchingChars a a = count at divides
  cases divides with
  | apart none =>
    refine Nat.le_of_eq (List.length_eq_zero_iff.2 (List.eq_nil_iff_forall_not_mem.2 fun c member => ?_))
    have both : c ∈ slice a 0 a.length := by rwa [slice_whole]
    exact none c both both
  | around longest _ _ _ =>
    have le := longest.size_le _ whole
    dsimp only at le
    omega

theorem matchingChars_eq_zero_iff : matchingChars a b = 0 ↔ ∀ c ∈ a, c ∉ b := by
  have apart : (Window.whole a b).Apart a b ↔ ∀ c ∈ a, c ∉ b := by
    simp only [Window.Apart, Window.whole, slice_whole]
  obtain ⟨blocks, divides⟩ := exists_blocks a b
  rw [← apart]
  generalize matchingChars a b = count at divides
  cases divides with
  | apart none => exact iff_of_true rfl none
  | around longest positive _ _ =>
    refine iff_of_false (by omega) fun none => ?_
    have empty := longest.size_eq_zero_iff.2 none
    omega

end Matching

def matching (a b : String) : Nat := matchingChars a.toList b.toList

def total (a b : String) : Nat := a.toList.length + b.toList.length

def Shareless (a b : String) : Prop := ∀ c ∈ a.toList, c ∉ b.toList

theorem ratio_eq (a b : String) : ratio a b = score (matching a b) (total a b) := rfl

theorem matching_full_iff (a b : String) : 2 * matching a b = total a b ↔ a = b := by
  constructor
  · exact fun full => String.toList_inj.1 ((twice_matchingChars_le _ _).2 full)
  · rintro rfl
    rw [matching, total, matchingChars_self]
    omega

-- For all names. The ratio is a float, which tells the two extremes from what lies close to them as long as the characters
-- themselves can be counted in floats.
theorem ratio_exact (a b : String) :
    (2 * matching a b ≤ total a b ∧ .zero ≤ ratio a b ∧ ratio a b ≤ one) ∧
    ((2 * matching a b = total a b ↔ a = b) ∧ (matching a b = 0 ↔ Shareless a b)) ∧
    ((a = b → ratio a b = one) ∧ (0 < total a b → Shareless a b → ratio a b = .zero)) ∧
    (total a b ≤ exactTotal → (ratio a b = one → a = b) ∧ (ratio a b = .zero → Shareless a b)) := by
  have le : 2 * matching a b ≤ total a b := (twice_matchingChars_le _ _).1
  have full := matching_full_iff a b
  have none : matching a b = 0 ↔ Shareless a b := matchingChars_eq_zero_iff
  refine ⟨⟨le, score_range le⟩, ⟨full, none⟩, ⟨fun same => score_full (full.2 same), fun positive shareless => ?_⟩,
    fun exact => ⟨fun top => ?_, fun bottom => ?_⟩⟩
  · rw [ratio_eq, none.2 shareless, score_none positive]
  · by_contra differ
    exact score_ne_one (Nat.lt_of_le_of_ne le fun same => differ (full.1 same)) exact top
  · by_contra shared
    exact score_ne_zero (Nat.pos_of_ne_zero fun empty => shared (none.1 empty)) le exact bottom

theorem overlapping_ratio : total "abcd" "bcde" ≤ exactTotal ∧ matching "abcd" "bcde" = 3 ∧
    ratio "abcd" "bcde" ≠ one ∧ ratio "abcd" "bcde" ≠ .zero := by
  have few : total "abcd" "bcde" ≤ exactTotal := by decide
  have three : matching "abcd" "bcde" = 3 := by decide
  obtain ⟨_, ⟨_, none⟩, _, extremes⟩ := ratio_exact "abcd" "bcde"
  obtain ⟨top, bottom⟩ := extremes few
  refine ⟨few, three, fun same => absurd (top same) (by decide), fun same => ?_⟩
  have zero := none.2 (bottom same)
  omega

end Similarity

end NodeFlow
