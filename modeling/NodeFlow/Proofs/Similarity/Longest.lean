import NodeFlow.Proofs.Similarity.Places

namespace NodeFlow.Similarity

section Order

-- Blocks by the place in which they end: first by the place in the first sequence, then by that in the other one.
def Block.EndsBefore (one two : Block) : Prop :=
  one.left + one.size < two.left + two.size ∨
    one.left + one.size = two.left + two.size ∧ one.right + one.size < two.right + two.size

theorem Block.ending_ends {i j run : Nat} (inLeft : run ≤ i + 1) (inRight : run ≤ j + 1) :
    (Block.ending i j run).left + (Block.ending i j run).size = i + 1 ∧
      (Block.ending i j run).right + (Block.ending i j run).size = j + 1 :=
  ⟨Nat.sub_add_cancel inLeft, Nat.sub_add_cancel inRight⟩

theorem ends_of_mem_row {i j : Nat} {xs passed ys : List Char} (inLeft : xs.length ≤ i + 1) (inRight : passed.length ≤ j)
    {block : Block} (member : block ∈ blocksOfRow i j (rowOf xs passed ys)) :
    block.left + block.size = i + 1 ∧ j + 1 ≤ block.right + block.size := by
  obtain ⟨before, y, after, rfl, rfl⟩ := (mem_blocksOfRow_iff _ _ _ _ _ _).1 member
  obtain ⟨left, right⟩ := runLength_le xs (y :: (before.reverse ++ passed))
  simp only [List.length_cons, List.length_append, List.length_reverse] at right
  obtain ⟨leftEnd, rightEnd⟩ := Block.ending_ends (Nat.le_trans left inLeft)
    (show runLength xs (y :: (before.reverse ++ passed)) ≤ j + before.length + 1 by omega)
  omega

theorem blocksOfRow_pairwise {i j : Nat} {xs passed : List Char} (ys : List Char) (inLeft : xs.length ≤ i + 1)
    (inRight : passed.length ≤ j) : (blocksOfRow i j (rowOf xs passed ys)).Pairwise Block.EndsBefore := by
  induction ys generalizing j passed with
  | nil => exact .nil
  | cons y ys ih =>
    have more : (y :: passed).length ≤ j + 1 := Nat.succ_le_succ inRight
    refine List.pairwise_cons.2 ⟨fun block member => .inr ?_, ih more⟩
    obtain ⟨left, right⟩ := runLength_le xs (y :: passed)
    obtain ⟨leftEnd, rightEnd⟩ := Block.ending_ends (Nat.le_trans left inLeft) (Nat.le_trans right more)
    obtain ⟨otherLeft, otherRight⟩ := ends_of_mem_row inLeft more member
    omega

theorem ends_of_mem_rows {ys : List Char} {right i : Nat} {passed xs : List Char} (inLeft : passed.length ≤ i)
    {block : Block} (member : block ∈ blocksOfRows ys right i passed xs) : i + 1 ≤ block.left + block.size := by
  obtain ⟨first, x, last, before, y, after, rfl, rfl, rfl⟩ := (mem_blocksOfRows_iff _ _ _ _ _ _).1 member
  obtain ⟨left, right⟩ := runLength_le (x :: (first.reverse ++ passed)) (y :: before.reverse)
  simp only [List.length_cons, List.length_append, List.length_reverse] at left right
  unfold Block.ending
  dsimp only
  omega

theorem blocksOfRows_pairwise (ys : List Char) (right : Nat) {i : Nat} {passed : List Char} (xs : List Char)
    (inLeft : passed.length ≤ i) : (blocksOfRows ys right i passed xs).Pairwise Block.EndsBefore := by
  induction xs generalizing i passed with
  | nil => exact .nil
  | cons x xs ih =>
    have more : (x :: passed).length ≤ i + 1 := Nat.succ_le_succ inLeft
    refine List.pairwise_append.2 ⟨blocksOfRow_pairwise ys more (Nat.zero_le _), ih more, ?_⟩
    intro one inRow two later
    obtain ⟨leftEnd, _⟩ := ends_of_mem_row more (Nat.zero_le _) inRow
    have laterEnd := ends_of_mem_rows more later
    exact .inl (by omega)

theorem searched_pairwise (a b : List Char) (window : Window) : (searched a b window).Pairwise Block.EndsBefore := by
  refine List.pairwise_cons.2 ⟨fun block member => .inl ?_, blocksOfRows_pairwise _ _ _ (Nat.zero_le _)⟩
  exact Nat.lt_of_succ_le (ends_of_mem_rows (Nat.zero_le _) member)

end Order

section Longest

variable {a b : List Char} {window : Window}

theorem le_runLength {xs ys : List Char} {size : Nat} (same : xs.take size = ys.take size) (inLeft : size ≤ xs.length) :
    size ≤ runLength xs ys := by
  induction xs generalizing ys size with
  | nil => exact Nat.le_trans inLeft (Nat.zero_le _)
  | cons x xs ih =>
    cases size with
    | zero => exact Nat.zero_le _
    | succ size =>
      cases ys with
      | nil => simp at same
      | cons y ys =>
        obtain ⟨rfl, rest⟩ := List.cons.inj same
        rw [runLength, if_pos rfl]
        exact Nat.succ_le_succ (ih rest (Nat.le_of_succ_le_succ inLeft))

theorem exists_split_at {chars : List Char} {place : Nat} (within : place < chars.length) :
    ∃ before c after, chars = before ++ c :: after ∧ before.length = place :=
  ⟨chars.take place, chars[place], chars.drop (place + 1), by simp, by simp; omega⟩

theorem slice_split {chars : List Char} {first past start size : Nat} (positive : 0 < size) (from_le : first ≤ start)
    (le_past : start + size ≤ past) (whole : (slice chars start (start + size)).length = size) :
    ∃ before x after, slice chars first past = before ++ x :: after ∧ first + before.length + 1 = start + size ∧
      slice chars start (start + size) = ((x :: before.reverse).take size).reverse := by
  have within : start + size - 1 - first < (slice chars first past).length := by
    simp only [slice, List.length_take, List.length_drop] at whole ⊢
    omega
  obtain ⟨before, x, after, split, length⟩ := exists_split_at within
  have place : first + before.length + 1 - size = start := by omega
  obtain ⟨_, run⟩ := slice_run split (show size ≤ before.length + 1 by omega)
  rw [place] at run
  exact ⟨before, x, after, split, by omega, run⟩

-- A common block is a part of one that the search goes through and that ends in the same places.
theorem Block.Common.exists_searched {other : Block} (common : other.Common a b window) (positive : 0 < other.size) :
    ∃ block ∈ searched a b window, block.left + block.size = other.left + other.size ∧
      block.right + block.size = other.right + other.size ∧ other.size ≤ block.size := by
  obtain ⟨chars, length, left, right⟩ := common.same
  obtain ⟨first, x, last, leftSplit, leftEnd, leftRun⟩ :=
    slice_split positive common.left_le common.le_leftEnd (by rw [left, length])
  obtain ⟨before, y, after, rightSplit, rightEnd, rightRun⟩ :=
    slice_split positive common.right_le common.le_rightEnd (by rw [right, length])
  have same : (x :: first.reverse).take other.size = (y :: before.reverse).take other.size := by
    rw [← List.reverse_inj, ← leftRun, ← rightRun, left, right]
  have size : other.size ≤ first.length + 1 := by have := common.left_le; omega
  have run := le_runLength same (by simpa using size)
  obtain ⟨inLeft, inRight⟩ := runLength_le (x :: first.reverse) (y :: before.reverse)
  simp only [List.length_cons, List.length_reverse] at inLeft inRight
  obtain ⟨endLeft, endRight⟩ := Block.ending_ends
    (show runLength (x :: first.reverse) (y :: before.reverse) ≤ window.left + first.length + 1 by omega)
    (show runLength (x :: first.reverse) (y :: before.reverse) ≤ window.right + before.length + 1 by omega)
  refine ⟨_, List.mem_cons_of_mem _ ((mem_blocksOfRows_iff _ _ _ _ _ _).2
    ⟨first, x, last, before, y, after, leftSplit, rightSplit, rfl⟩), ?_⟩
  rw [List.append_nil]
  exact ⟨by omega, by omega, run⟩

-- A common block that no other one exceeds, and the earliest of those that are as long: in the first sequence, and
-- from one place of it in the second sequence.
structure Block.Longest (a b : List Char) (window : Window) (block : Block) : Prop extends
    Block.Common a b window block where
  size_le : ∀ other : Block, other.Common a b window → other.size ≤ block.size
  earliest : ∀ other : Block, other.Common a b window → other.size = block.size →
    block.left < other.left ∨ block.left = other.left ∧ block.right ≤ other.right

theorem longestBlock_of_empty (empty : (longestBlock a b window).size = 0) :
    longestBlock a b window = ⟨window.left, window.right, 0⟩ := by
  obtain ⟨before, after, split, shorter, _⟩ := longestBlock_firstLongest a b window
  cases before with
  | nil => exact (List.cons.inj split).1.symm
  | cons head before =>
    have less := shorter head List.mem_cons_self
    omega

theorem longestBlock_longest (a b : List Char) {window : Window} (ordered : window.Ordered) :
    (longestBlock a b window).Longest a b window := by
  have found := longestBlock_firstLongest a b window
  refine ⟨longestBlock_common a b ordered, fun other common => ?_, fun other common same => ?_⟩
  · rcases Nat.eq_zero_or_pos other.size with empty | positive
    · omega
    · obtain ⟨block, member, _, _, le⟩ := common.exists_searched positive
      exact Nat.le_trans le (found.size_le block member)
  · rcases Nat.eq_zero_or_pos other.size with empty | positive
    · have left := common.left_le
      have right := common.right_le
      rw [longestBlock_of_empty (same.symm.trans empty)]
      dsimp only
      omega
    · -- The search goes through a block that ends where the other one does; it stands behind the one that is found.
      obtain ⟨block, member, left, right, le⟩ := common.exists_searched positive
      have inOrder := searched_pairwise a b window
      obtain ⟨before, after, split, shorter, within⟩ := found
      rw [split] at member inOrder
      rcases List.mem_append.1 member with early | late
      · have less := shorter block early
        omega
      · rcases List.mem_cons.1 late with rfl | behind
        · omega
        · have bound := within block behind
          have later := (List.pairwise_cons.1 (List.pairwise_append.1 inOrder).2.1).1 block behind
          unfold Block.EndsBefore at later
          omega

theorem Block.Longest.unique {block other : Block} (one : block.Longest a b window) (two : other.Longest a b window) :
    other = block := by
  have size : other.size = block.size :=
    Nat.le_antisymm (one.size_le other two.toCommon) (two.size_le block one.toCommon)
  have forth := one.earliest other two.toCommon size
  have back := two.earliest block one.toCommon size.symm
  obtain ⟨left, right, length⟩ := block
  obtain ⟨otherLeft, otherRight, otherLength⟩ := other
  simp only [Block.mk.injEq] at *
  omega

def Window.Apart (a b : List Char) (window : Window) : Prop :=
  ∀ c ∈ slice a window.left window.leftEnd, c ∉ slice b window.right window.rightEnd

theorem mem_slice_of_part {chars : List Char} {first past start stop : Nat} (from_le : first ≤ start) (le : start ≤ stop)
    (le_past : stop ≤ past) {c : Char} (member : c ∈ slice chars start stop) : c ∈ slice chars first past := by
  rw [slice_around chars from_le le le_past]
  exact List.mem_append_right _ (List.mem_append_left _ member)

theorem Window.exists_common {c : Char} (inLeft : c ∈ slice a window.left window.leftEnd)
    (inRight : c ∈ slice b window.right window.rightEnd) : ∃ block : Block, block.Common a b window ∧ block.size = 1 := by
  obtain ⟨first, last, left⟩ := List.append_of_mem inLeft
  obtain ⟨before, after, right⟩ := List.append_of_mem inRight
  obtain ⟨leftEnd, leftRun⟩ := slice_run left (Nat.le_add_left 1 _)
  obtain ⟨rightEnd, rightRun⟩ := slice_run right (Nat.le_add_left 1 _)
  exact ⟨⟨window.left + first.length, window.right + before.length, 1⟩,
    ⟨Nat.le_add_right _ _, Nat.le_add_right _ _, leftEnd, rightEnd, [c], rfl, leftRun, rightRun⟩, rfl⟩

theorem Block.Longest.size_eq_zero_iff {block : Block} (longest : block.Longest a b window) :
    block.size = 0 ↔ window.Apart a b := by
  constructor
  · intro empty c inLeft inRight
    obtain ⟨other, common, size⟩ := Window.exists_common inLeft inRight
    have le := longest.size_le other common
    omega
  · intro apart
    obtain ⟨chars, length, left, right⟩ := longest.same
    rw [← length]
    refine List.length_eq_zero_iff.2 (List.eq_nil_iff_forall_not_mem.2 fun c member => ?_)
    refine apart c (mem_slice_of_part longest.left_le (Nat.le_add_right _ _) longest.le_leftEnd ?_)
      (mem_slice_of_part longest.right_le (Nat.le_add_right _ _) longest.le_rightEnd ?_)
    · rwa [left]
    · rwa [right]

end Longest

theorem longestBlock_exact {a b : List Char} {window : Window} (within : window.Within a b) :
    searchPlaces? a b window = some (longestBlock a b window) ∧ (longestBlock a b window).Longest a b window ∧
      ((longestBlock a b window).size = 0 ↔ window.Apart a b) := by
  have longest := longestBlock_longest a b within.toOrdered
  exact ⟨searchPlaces?_eq within, longest, longest.size_eq_zero_iff⟩

-- The edge of the window cuts a block of three characters off; of the two blocks of two characters the earlier one counts.
def clipped : Window := ⟨1, 7, 1, 5⟩

def clippedLeft : List Char := ['a', 'b', '-', 'a', 'b', 'c', '.', 'b', 'c']

def clippedRight : List Char := ['+', 'b', 'c', 'a', 'b', 'c']

theorem clipped_longest : clipped.Within clippedLeft clippedRight ∧
    searchPlaces? clippedLeft clippedRight clipped = some ⟨3, 3, 2⟩ ∧
    (⟨3, 3, 2⟩ : Block).Longest clippedLeft clippedRight clipped ∧ ¬ clipped.Apart clippedLeft clippedRight := by
  have within : clipped.Within clippedLeft clippedRight := ⟨⟨by decide, by decide⟩, by decide, by decide⟩
  have found : longestBlock clippedLeft clippedRight clipped = ⟨3, 3, 2⟩ := by decide
  obtain ⟨places, longest, apart⟩ := longestBlock_exact within
  rw [found] at places longest apart
  exact ⟨within, places, longest, fun none => absurd (apart.2 none) (by decide)⟩

end NodeFlow.Similarity
