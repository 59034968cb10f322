import NodeFlow.Number.Binary64

namespace NodeFlow

structure Decimal where
  digits : Nat
  exponent : Int
  deriving DecidableEq

namespace Binary64

-- Grids are numbered from the finest one that can be needed, 10 ^ -324.
def finestGrid : Nat := 324

-- Points of grid `grid`, twice the units and the interval's ends on one common scale.
def gridScale (grid : Nat) : Nat := Nat.pow 10 grid * (2 * unitsPerOne)

def onGrid (twiceUnits : Nat) : Nat := twiceUnits * Nat.pow 10 finestGrid

-- A midpoint rounds to the neighbour of even rank.
def rounds (x : Binary64) (grid point : Nat) : Bool :=
  let low := onGrid (unitsOfRank (x.rank - 1) + x.units)
  let high := onGrid (x.units + unitsOfRank (x.rank + 1))
  let place := point * gridScale grid
  (low < place && place < high) || (x.rank % 2 == 0 && (place == low || place == high))

def nearestPoint (tie : Tie) (rounds : Nat → Bool) (value scale : Nat) : Option Nat :=
  let below := value / scale
  match rounds below, rounds (below + 1) with
  | true, true => some (tie.round value scale)
  | true, false => some below
  | false, true => some (below + 1)
  | false, false => none

def gridPoint (tie : Tie) (x : Binary64) (grid : Nat) : Option Nat :=
  nearestPoint tie (x.rounds grid) (onGrid (2 * x.units)) (gridScale grid)

-- The point on the coarsest grid that has one. The finest grid always has, as it is finer than the
-- least distance of two numbers.
def coarsestPoint (point? : Nat → Option Nat) : Nat → Decimal
  | 0 => ⟨(point? 0).getD 0, -(finestGrid : Int)⟩
  | grid + 1 => match point? (grid + 1) with
    | some point => ⟨point, ((grid + 1 : Nat) : Int) - finestGrid⟩
    | none => coarsestPoint point? grid

-- A grid from which on no coarser one has a point below the interval's end: 10 ^ 31 is more than
-- 2 ^ 100, so a power of ten below a number has an exponent of less than 31 parts in 100 of its bits.
def startGrid (x : Binary64) : Nat :=
  let high := onGrid (x.units + unitsOfRank (x.rank + 1)) / (2 * unitsPerOne)
  (high.log2 + 1) * 31 / 100 + 1

def shortest (x : Binary64) (tie : Tie) : Decimal :=
  if x.isZero then ⟨0, 0⟩ else coarsestPoint (gridPoint tie x) x.startGrid

end Binary64

structure FloatLayout where
  positional : Int → Bool
  keepsFraction : Bool
  tie : Tie

namespace FloatLayout

def document : FloatLayout := ⟨fun point => -5 < point && point ≤ 16, true, .toEven⟩

def message : FloatLayout := ⟨fun _ => true, false, .up⟩

def zeros (count : Int) : List Char := List.replicate count.toNat '0'

def placed (layout : FloatLayout) (digits : List Char) (point : Int) : List Char :=
  if point ≤ 0 then '0' :: '.' :: zeros (-point) ++ digits
  else if digits.length ≤ point then
    digits ++ zeros (point - digits.length) ++ (if layout.keepsFraction then ['.', '0'] else [])
  else digits.take point.toNat ++ '.' :: digits.drop point.toNat

def scientific (digits : List Char) (exponent : Int) : List Char :=
  let significand := match digits with
    | [] => []
    | [lead] => [lead]
    | lead :: rest => lead :: '.' :: rest
  significand ++ 'e' :: (if exponent < 0 then '-' else '+') :: Nat.toDigits 10 exponent.natAbs

def render (layout : FloatLayout) (x : Binary64) : List Char :=
  let decimal := x.shortest layout.tie
  let digits := Nat.toDigits 10 decimal.digits
  let point := digits.length + decimal.exponent
  let magnitude :=
    if layout.positional point then layout.placed digits point else scientific digits (point - 1)
  if x.negative then '-' :: magnitude else magnitude

end FloatLayout

end NodeFlow
