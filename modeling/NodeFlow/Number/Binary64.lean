import NodeFlow.Number.Rounding

namespace NodeFlow

def rankLimit : Nat := 0x7ff0000000000000

-- How many ranks share one binary exponent: 52 bits of fraction.
def binade : Nat := 0x10000000000000

structure Binary64 where
  negative : Bool
  rank : Nat
  rank_lt : rank < rankLimit
  deriving DecidableEq

namespace Binary64

-- Magnitudes are counted in units of 2 ^ -1074, the least positive one.
def unitsOfRank (rank : Nat) : Nat :=
  let exponent := rank / binade
  let fraction := rank % binade
  if exponent = 0 then fraction else (binade + fraction) <<< (exponent - 1)

def unitsPerOne : Nat := 1 <<< 1074

def units (x : Binary64) : Nat := unitsOfRank x.rank

def zero : Binary64 := ⟨false, 0, by decide⟩

def neg (x : Binary64) : Binary64 := ⟨!x.negative, x.rank, x.rank_lt⟩

def isZero (x : Binary64) : Bool := x.rank == 0

-- Both zeros have key 0, so they compare equal.
def key (x : Binary64) : Int := if x.negative then -(x.rank : Int) else x.rank

instance : LT Binary64 := ⟨fun x y => x.key < y.key⟩
instance : LE Binary64 := ⟨fun x y => x.key ≤ y.key⟩
instance (x y : Binary64) : Decidable (x < y) := inferInstanceAs (Decidable (x.key < y.key))
instance (x y : Binary64) : Decidable (x ≤ y) := inferInstanceAs (Decidable (x.key ≤ y.key))

def same (x y : Binary64) : Bool := x.key == y.key

-- The rank nearest to the quotient of units; it may lie beyond the finite ones.
def rankOf (num den : Nat) : Nat :=
  let shift := (num / den).log2 - 52
  shift * binade + roundHalfEven num (den <<< shift)

def nearestUnits (num den : Nat) : Option Binary64 :=
  let rank := rankOf num den
  if h : rank < rankLimit then some ⟨false, rank, h⟩ else none

def ofRatio (num den : Nat) : Option Binary64 := nearestUnits (num * unitsPerOne) den

def ofNat (n : Nat) : Option Binary64 := ofRatio n 1

def ofInt (n : Int) : Option Binary64 :=
  (ofNat n.natAbs).map fun x => if n < 0 then x.neg else x

def mul (x y : Binary64) : Option Binary64 := nearestUnits (x.units * y.units) unitsPerOne

def div (x y : Binary64) : Option Binary64 := nearestUnits (x.units * unitsPerOne) y.units

theorem lt_irrefl (x : Binary64) : ¬ x < x := Int.lt_irrefl x.key

theorem not_lt {x y : Binary64} : ¬ x < y ↔ y ≤ x := Int.not_lt

theorem le_trans {x y z : Binary64} (xy : x ≤ y) (yz : y ≤ z) : x ≤ z := Int.le_trans xy yz

theorem lt_of_lt_of_le {x y z : Binary64} (xy : x < y) (yz : y ≤ z) : x < z :=
  Int.lt_of_lt_of_le xy yz

theorem log2_mono {a b : Nat} (le : a ≤ b) : a.log2 ≤ b.log2 := by
  by_cases zero : a = 0
  · simp [zero]
  · have nonzero : b ≠ 0 := by omega
    exact (Nat.le_log2 nonzero).2 (Nat.le_trans (Nat.log2_self_le zero) le)

-- A rounded significand reaches the top of its binade at most, so that ranks of different binades
-- stay in order.
theorem significand_le (num den : Nat) :
    roundHalfEven num (den <<< ((num / den).log2 - 52)) ≤ 2 * binade := by
  refine Nat.le_trans (roundHalfEven_bounds _ _).2 ?_
  have whole : 2 * binade = 2 ^ 53 := rfl
  rw [whole, Nat.shiftLeft_eq, ← Nat.div_div_eq_div_mul]
  have top : num / den < 2 ^ ((num / den).log2 - 52 + 53) :=
    Nat.lt_of_lt_of_le Nat.lt_log2_self (Nat.pow_le_pow_right (by omega) (by omega))
  rw [Nat.add_comm, Nat.pow_add] at top
  exact Nat.div_lt_of_lt_mul (by rw [Nat.mul_comm]; exact top)

theorem significand_ge (num den : Nat) (shifted : 0 < (num / den).log2 - 52) :
    binade ≤ roundHalfEven num (den <<< ((num / den).log2 - 52)) := by
  refine Nat.le_trans ?_ (roundHalfEven_bounds _ _).1
  have whole : binade = 2 ^ 52 := rfl
  rw [whole, Nat.shiftLeft_eq, ← Nat.div_div_eq_div_mul,
    Nat.le_div_iff_mul_le (Nat.two_pow_pos _), ← Nat.pow_add]
  have nonzero : num / den ≠ 0 := by intro zero; simp [zero] at shifted
  have exponent : 52 + ((num / den).log2 - 52) = (num / den).log2 := by omega
  rw [exponent]
  exact Nat.log2_self_le nonzero

theorem rankOf_mono (den : Nat) {a b : Nat} (le : a ≤ b) : rankOf a den ≤ rankOf b den := by
  have logs := log2_mono (Nat.div_le_div_right (c := den) le)
  unfold rankOf
  dsimp only
  rcases Nat.lt_or_ge ((a / den).log2 - 52) ((b / den).log2 - 52) with lt | ge
  · have low := significand_le a den
    have high := significand_ge b den (by omega)
    have step := Nat.mul_le_mul_right binade (Nat.succ_le_of_lt lt)
    rw [Nat.succ_mul] at step
    omega
  · have same : (a / den).log2 - 52 = (b / den).log2 - 52 := by omega
    rw [same]
    exact Nat.add_le_add_left (roundHalfEven_mono _ le) _

theorem nearestUnits_mono (den : Nat) {a b : Nat} {x y : Binary64} (le : a ≤ b)
    (hx : nearestUnits a den = some x) (hy : nearestUnits b den = some y) : x ≤ y := by
  unfold nearestUnits at hx hy
  dsimp only at hx hy
  split at hx <;> cases hx
  split at hy <;> cases hy
  show ((rankOf a den : Nat) : Int) ≤ ((rankOf b den : Nat) : Int)
  exact Int.ofNat_le.2 (rankOf_mono den le)

end Binary64

end NodeFlow
