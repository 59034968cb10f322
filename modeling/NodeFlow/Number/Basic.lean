import NodeFlow.Number.Shortest

namespace NodeFlow

inductive Number
  | integer (value : Int) (fits : -0x8000000000000000 ≤ value ∧ value ≤ 0xffffffffffffffff)
  | float (x : Binary64)
  deriving DecidableEq

namespace Number

def ofInt? (value : Int) : Option Number :=
  if fits : -0x8000000000000000 ≤ value ∧ value ≤ 0xffffffffffffffff then some (.integer value fits) else none

def ofNat (n : Nat) : Number := (ofInt? n).getD (.float ((Binary64.ofNat n).getD .zero))

def ofWord (word : UInt64) : Number :=
  .integer word.toNat ⟨by omega, by have := word.toNat_lt; omega⟩

-- Non-negative integers alone are words; `1.0` and `-0.0` are not.
def word? : Number → Option UInt64
  | .integer value _ => if 0 ≤ value then some (UInt64.ofNat value.toNat) else none
  | .float _ => none

-- The nearest float. Every integer here is in the finite range, so no default is ever taken.
def toBinary64 : Number → Binary64
  | .integer value _ => (Binary64.ofInt value).getD .zero
  | .float x => x

-- Equality as numbers of one kind: the two zeros of a float are equal.
def same : Number → Number → Bool
  | .integer a _, .integer b _ => a == b
  | .float x, .float y => x.same y
  | _, _ => false

def render : Number → List Char
  | .integer value _ => (if value < 0 then ['-'] else []) ++ Nat.toDigits 10 value.natAbs
  | .float x => FloatLayout.document.render x

theorem word?_ofWord (word : UInt64) : (ofWord word).word? = some word := by
  simp [ofWord, word?]

end Number

end NodeFlow
