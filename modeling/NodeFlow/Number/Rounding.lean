namespace NodeFlow

def roundHalfEven (num den : Nat) : Nat :=
  let low := num / den
  let twice := 2 * (num % den)
  if twice < den then low else if den < twice then low + 1 else low + low % 2

inductive Tie
  | toEven
  | up
  deriving DecidableEq

def roundHalfUp (num den : Nat) : Nat := (2 * num + den) / (2 * den)

def Tie.round : Tie → Nat → Nat → Nat
  | .toEven => roundHalfEven
  | .up => roundHalfUp

theorem roundHalfEven_exact (q den : Nat) (positive : 0 < den) : roundHalfEven (q * den) den = q := by
  simp [roundHalfEven, Nat.mul_div_cancel _ positive, positive]

theorem roundHalfEven_bounds (num den : Nat) :
    num / den ≤ roundHalfEven num den ∧ roundHalfEven num den ≤ num / den + 1 := by
  unfold roundHalfEven
  dsimp only
  split
  · omega
  · split <;> omega

theorem roundHalfEven_mono (den : Nat) {a b : Nat} (le : a ≤ b) :
    roundHalfEven a den ≤ roundHalfEven b den := by
  have low := Nat.div_le_div_right (c := den) le
  rcases Nat.lt_or_ge (a / den) (b / den) with lt | ge
  · exact Nat.le_trans (roundHalfEven_bounds a den).2 (Nat.le_trans lt (roundHalfEven_bounds b den).1)
  · have same : a / den = b / den := Nat.le_antisymm low ge
    have ha := Nat.div_add_mod a den
    have hb := Nat.div_add_mod b den
    have rest : a % den ≤ b % den := by rw [same] at ha; omega
    unfold roundHalfEven
    dsimp only
    rw [same]
    repeat' split
    all_goals omega

end NodeFlow
