import NodeFlow.Proofs.Similarity.Blocks

namespace NodeFlow.Similarity

section Search

variable (a b : List Char) (window : Window)

structure Progress where
  row : List Nat
  best : Block

def store? (row : List Nat) (place value : Nat) : Option (List Nat) :=
  if place < row.length then some (row.set place value) else none

def difference? (n m : Nat) : Option Nat := if m ≤ n then some (n - m) else none

-- The run that ends one place earlier in both sequences. A run is stored one place behind the one where it ends, and at
-- the left edge of the window no run goes on.
def runBefore? (above : List Nat) (j : Nat) : Option Nat := if window.right < j then above[j]? else some 0

def visitPlace? (above : List Nat) (i : Nat) (progress : Progress) (j : Nat) : Option Progress := do
  let x ← a[i]?
  let y ← b[j]?
  if x = y then
    let run := (← runBefore? window above j) + 1
    let row ← store? progress.row (j + 1) run
    if progress.best.size < run then
      let left ← difference? (i + 1) run
      let right ← difference? (j + 1) run
      some ⟨row, left, right, run⟩
    else some ⟨row, progress.best⟩
  else some progress

def visitRow? (progress : Progress) (i : Nat) : Option Progress :=
  (List.range' window.right (window.rightEnd - window.right)).foldlM (visitPlace? a b window progress.row i)
    ⟨List.replicate (b.length + 1) 0, progress.best⟩

def searchPlaces? : Option Block :=
  ((List.range' window.left (window.leftEnd - window.left)).foldlM (visitRow? a b window)
    ⟨List.replicate (b.length + 1) 0, window.left, window.right, 0⟩).map Progress.best

end Search

section Rows

variable {a b : List Char} {window : Window}

structure Window.Within (a b : List Char) (window : Window) : Prop extends window.Ordered where
  le_length : window.leftEnd ≤ a.length
  le_length_right : window.rightEnd ≤ b.length

theorem store?_append {front : List Nat} {place : Nat} (length : front.length = place) (old value : Nat)
    (back : List Nat) : store? (front ++ old :: back) place value = some (front ++ value :: back) := by
  subst length
  simp [store?]

theorem difference?_eq {n m : Nat} (le : m ≤ n) : difference? n m = some (n - m) := if_pos le

theorem visitPlace?_eq {above front : List Nat} {i j rest : Nat} {x y : Char} {xs passed : List Char} (best : Block)
    (left : a[i]? = some x) (right : b[j]? = some y)
    (diagonal : runBefore? window above j = some (runLength xs passed))
    (inLeft : xs.length ≤ i) (inRight : passed.length ≤ j) (length : front.length = j + 1) :
    visitPlace? a b window above i ⟨front ++ List.replicate (rest + 1) 0, best⟩ j =
      some ⟨(front ++ [runLength (x :: xs) (y :: passed)]) ++ List.replicate rest 0,
        longer best (.ending i j (runLength (x :: xs) (y :: passed)))⟩ := by
  have bounds := runLength_le xs passed
  simp only [visitPlace?, left, right, Option.bind_eq_bind, Option.bind_some, runLength, List.replicate_succ,
    List.append_assoc, List.singleton_append]
  by_cases same : x = y
  · rw [if_pos same, if_pos same, diagonal, Option.bind_some, store?_append length, Option.bind_some,
      difference?_eq (show runLength xs passed + 1 ≤ i + 1 by omega),
      difference?_eq (show runLength xs passed + 1 ≤ j + 1 by omega)]
    unfold longer Block.ending
    dsimp only
    split <;> rfl
  · rw [if_neg same, if_neg same, longer, if_neg (by simp [Block.ending])]

theorem visitPlaces?_eq {above front rest : List Nat} {i j : Nat} {x : Char} {xs passed ys tail : List Char} (best : Block)
    (left : a[i]? = some x) (right : b.drop j = ys ++ tail)
    (diagonal : runBefore? window above j = some (runLength xs passed))
    (row : above.drop (j + 1) = rowOf xs passed ys ++ rest) (within : window.right ≤ j)
    (inLeft : xs.length ≤ i) (inRight : passed.length ≤ j) (length : front.length = j + 1) (free : Nat) :
    (List.range' j ys.length).foldlM (visitPlace? a b window above i)
        ⟨front ++ List.replicate (ys.length + free) 0, best⟩ =
      some ⟨(front ++ rowOf (x :: xs) passed ys) ++ List.replicate free 0,
        improve i j (rowOf (x :: xs) passed ys) best⟩ := by
  induction ys generalizing j passed front best with
  | nil => simp [rowOf, improve]
  | cons y ys ih =>
    have place : b[j]? = some y := by
      rw [← List.head?_drop, right]
      rfl
    have next : b.drop (j + 1) = ys ++ tail := by
      rw [← List.tail_drop, right]
      rfl
    have above' : above[j + 1]? = some (runLength xs (y :: passed)) := by
      rw [← List.head?_drop, row]
      rfl
    have row' : above.drop (j + 1 + 1) = rowOf xs (y :: passed) ys ++ rest := by
      rw [← List.tail_drop, row]
      rfl
    have amount : (y :: ys).length + free = ys.length + free + 1 := by simp only [List.length_cons]; omega
    rw [List.length_cons, List.range'_succ, List.foldlM_cons, ← List.length_cons (a := y), amount,
      visitPlace?_eq best left place diagonal inLeft inRight length]
    rw [Option.bind_eq_bind, Option.bind_some, ih _ next ?_ row' (by omega) (Nat.succ_le_succ inRight) (by simp [length])]
    · rw [List.append_assoc front, List.singleton_append]
      rfl
    · rw [runBefore?, if_pos (Nat.lt_succ_of_le within), above']

-- A row for the whole second sequence, with the runs that end at the last of the characters passed in the first one.
def fullRow (b : List Char) (window : Window) (passed : List Char) : List Nat :=
  (List.replicate (window.right + 1) 0 ++ rowOf passed [] (slice b window.right window.rightEnd)) ++
    List.replicate (b.length - window.rightEnd) 0

theorem freshRow_eq (within : window.Within a b) :
    List.replicate (b.length + 1) 0 = List.replicate (window.right + 1) 0 ++
      List.replicate ((slice b window.right window.rightEnd).length + (b.length - window.rightEnd)) 0 := by
  have first := within.right_le
  have last := within.le_length_right
  rw [length_slice last, List.replicate_append_replicate]
  congr 1
  omega

theorem fullRow_nil (within : window.Within a b) : fullRow b window [] = List.replicate (b.length + 1) 0 := by
  rw [fullRow, rowOf_nil, freshRow_eq within, List.append_assoc, List.replicate_append_replicate]

theorem visitRow?_eq (within : window.Within a b) {i : Nat} {x : Char} {passed : List Char} (best : Block)
    (left : a[i]? = some x) (inLeft : passed.length ≤ i) :
    visitRow? a b window ⟨fullRow b window passed, best⟩ i = some ⟨fullRow b window (x :: passed),
      improve i window.right (rowOf (x :: passed) [] (slice b window.right window.rightEnd)) best⟩ := by
  have edge : runBefore? window (fullRow b window passed) window.right = some (runLength passed []) := by
    rw [runBefore?, if_neg (Nat.lt_irrefl _), runLength_nil_right]
  have length : (List.replicate (window.right + 1) 0).length = window.right + 1 := List.length_replicate
  have row : (fullRow b window passed).drop (window.right + 1) =
      rowOf passed [] (slice b window.right window.rightEnd) ++ List.replicate (b.length - window.rightEnd) 0 := by
    rw [fullRow, List.append_assoc, List.drop_left' length]
  have visited := visitPlaces?_eq best left (drop_eq_slice_append b window.right window.rightEnd) edge row
    (Nat.le_refl _) inLeft (Nat.zero_le _) length (b.length - window.rightEnd)
  rwa [← freshRow_eq within, length_slice within.le_length_right] at visited

theorem visitRows?_eq (within : window.Within a b) {i : Nat} {passed xs tail : List Char} (best : Block)
    (left : a.drop i = xs ++ tail) (inLeft : passed.length ≤ i) :
    (List.range' i xs.length).foldlM (visitRow? a b window) ⟨fullRow b window passed, best⟩ =
      some ⟨fullRow b window (xs.reverse ++ passed), scanRows (slice b window.right window.rightEnd) window.right i xs
        (rowOf passed [] (slice b window.right window.rightEnd)) best⟩ := by
  induction xs generalizing i passed best with
  | nil => rfl
  | cons x xs ih =>
    have place : a[i]? = some x := by
      rw [← List.head?_drop, left]
      rfl
    have next : a.drop (i + 1) = xs ++ tail := by
      rw [← List.tail_drop, left]
      rfl
    have more : (x :: passed).length ≤ i + 1 := Nat.succ_le_succ inLeft
    have row := nextRow_rowOf x passed [] (slice b window.right window.rightEnd)
    rw [runLength_nil_right] at row
    rw [List.length_cons, List.range'_succ, List.foldlM_cons, visitRow?_eq within best place inLeft, Option.bind_eq_bind,
      Option.bind_some, ih _ next more]
    simp only [scanRows, row, List.reverse_cons, List.append_assoc, List.singleton_append]

end Rows

-- Every place is there, and what is found is the longest block.
theorem searchPlaces?_eq {a b : List Char} {window : Window} (within : window.Within a b) :
    searchPlaces? a b window = some (longestBlock a b window) := by
  have none : ([] : List Char).length ≤ window.left := Nat.zero_le _
  have visited := visitRows?_eq within ⟨window.left, window.right, 0⟩
    (drop_eq_slice_append a window.left window.leftEnd) none
  rw [length_slice within.le_length, fullRow_nil within] at visited
  rw [searchPlaces?, visited, Option.map_some, longestBlock, rowOf_nil]

end NodeFlow.Similarity
