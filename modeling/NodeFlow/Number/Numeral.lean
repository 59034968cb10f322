import NodeFlow.Number.Basic

namespace NodeFlow

structure Numeral where
  negative : Bool
  whole : List Char
  fraction : List Char
  exponent : Option (Bool × List Char)
  deriving DecidableEq

namespace Numeral

def digitValue (c : Char) : Nat := c.toNat - '0'.toNat

-- Reads digits while the number stays within the limit; the digits left unread come second.
def accumulate (limit : Nat) (start : Nat) : List Char → Nat × List Char
  | [] => (start, [])
  | c :: cs =>
    let next := start * 10 + digitValue c
    if next ≤ limit then accumulate limit next cs else (start, c :: cs)

def largestWord : Nat := 0xffffffffffffffff

def largestExponent : Nat := 0x7fffffff

-- The leading digits, and the power of ten that the dropped and the fraction digits stand for. A
-- fraction digit may still be taken after a digit of the whole part was dropped.
def significand (n : Numeral) : Nat × Int :=
  let (whole, dropped) := accumulate largestWord 0 n.whole
  let (leading, unread) := accumulate largestWord whole n.fraction
  (leading, dropped.length - (n.fraction.length - unread.length : Nat))

-- Digits of the exponent that were not looked at, because one before them made it too large.
def unreadExponent (n : Numeral) : List Char :=
  match n.exponent with
  | none => []
  | some (_, digits) => (accumulate largestExponent 0 digits).2.drop 1

def powerOfTen (exponent : Nat) : Binary64 := (Binary64.ofNat (Nat.pow 10 exponent)).getD .zero

-- Below 10 ^ -616 every 64-bit significand is rounded to zero.
def scaled (significand : Nat) (exponent : Int) : Option Binary64 := do
  let x ← Binary64.ofNat significand
  if 308 < exponent then
    if x.isZero then some x else none
  else if 0 ≤ exponent then
    x.mul (powerOfTen exponent.toNat)
  else if -308 ≤ exponent then
    x.div (powerOfTen (-exponent).toNat)
  else if -616 ≤ exponent then
    (← x.div (powerOfTen 308)).div (powerOfTen (-exponent - 308).toNat)
  else
    some .zero

def magnitude (n : Numeral) : Option Binary64 :=
  let (leading, power) := n.significand
  match n.exponent with
  | none => scaled leading power
  | some (below, digits) =>
    let (exponent, unread) := accumulate largestExponent 0 digits
    if unread.isEmpty then scaled leading (if below then power - exponent else power + exponent)
    else if below || leading == 0 then some .zero
    else none

-- Without fraction and exponent a numeral is an integer if that fits; `-0` is a float.
def integer? (n : Numeral) : Option Number :=
  if n.fraction.isEmpty && n.exponent.isNone then
    let value := Nat.ofDigitChars 10 n.whole 0
    if n.negative then (if value = 0 then none else Number.ofInt? (-value)) else Number.ofInt? value
  else none

def number? (n : Numeral) : Option Number :=
  match n.integer? with
  | some number => some number
  | none => n.magnitude.map fun x => .float (if n.negative then x.neg else x)

end Numeral

end NodeFlow
