import NodeFlow.Number.Shortest

namespace NodeFlow

-- Any 64-bit float: a number, an infinity, or one that is no number.
inductive Float64
  | finite (x : Binary64)
  | infinite (negative : Bool)
  | undefined
  deriving DecidableEq

namespace Float64

instance : Coe Binary64 Float64 := ⟨finite⟩

def isAbove (bound : Float64) (x : Binary64) : Bool :=
  match bound with
  | .finite y => x < y
  | .infinite negative => !negative
  | .undefined => false

def isBelow (bound : Float64) (x : Binary64) : Bool :=
  match bound with
  | .finite y => y < x
  | .infinite negative => negative
  | .undefined => false

-- Not the negation of `isAbove`: what is no number neither exceeds a number nor is reached by one.
def isReachedBy (bound : Float64) (x : Binary64) : Bool :=
  match bound with
  | .finite y => y ≤ x
  | .infinite negative => negative
  | .undefined => false

def message : Float64 → List Char
  | .finite x => FloatLayout.message.render x
  | .infinite negative => if negative then ['-', 'i', 'n', 'f'] else ['i', 'n', 'f']
  | .undefined => ['N', 'a', 'N']

theorem isAbove_of_key (bound : Float64) {x y : Binary64} (key : x.key = y.key) : bound.isAbove x = bound.isAbove y := by
  cases bound with
  | finite z =>
    show decide (x.key < z.key) = decide (y.key < z.key)
    rw [key]
  | _ => rfl

theorem isBelow_of_key (bound : Float64) {x y : Binary64} (key : x.key = y.key) : bound.isBelow x = bound.isBelow y := by
  cases bound with
  | finite z =>
    show decide (z.key < x.key) = decide (z.key < y.key)
    rw [key]
  | _ => rfl

theorem not_isReachedBy {bound : Float64} {least most : Binary64} (le : least ≤ most)
    (above : bound.isAbove most = true) : bound.isReachedBy least = false := by
  cases bound with
  | finite x =>
    have above : most < x := of_decide_eq_true above
    exact decide_eq_false fun reached =>
      Binary64.lt_irrefl _ (Binary64.lt_of_lt_of_le above (Binary64.le_trans reached le))
  | infinite negative =>
    cases negative with
    | true => cases above
    | false => rfl
  | undefined => rfl

theorem lt_of_isReachedBy {bound : Float64} {reaching missing : Binary64} (reached : bound.isReachedBy reaching = true)
    (missed : bound.isReachedBy missing = false) : missing < reaching := by
  cases bound with
  | finite x =>
    have above : x ≤ reaching := of_decide_eq_true reached
    have below : missing < x := Int.not_le.1 (of_decide_eq_false missed)
    exact Binary64.lt_of_lt_of_le below above
  | infinite negative => exact absurd (reached.symm.trans missed) (by decide)
  | undefined => cases reached

end Float64

end NodeFlow
