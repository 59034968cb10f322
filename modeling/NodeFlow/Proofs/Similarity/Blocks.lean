import NodeFlow.Similarity.Blocks

namespace NodeFlow.Similarity

section Runs

-- How many characters two sequences begin with in common. The sequences here are read backwards, so
-- that this is the length of the run that ends at two places.
def runLength : List Char → List Char → Nat
  | x :: xs, y :: ys => if x = y then runLength xs ys + 1 else 0
  | _, _ => 0

theorem runLength_nil (ys : List Char) : runLength [] ys = 0 := by cases ys <;> rfl

theorem runLength_nil_right (xs : List Char) : runLength xs [] = 0 := by cases xs <;> rfl

theorem runLength_le (xs ys : List Char) : runLength xs ys ≤ xs.length ∧ runLength xs ys ≤ ys.length := by
  induction xs generalizing ys with
  | nil => simp [runLength]
  | cons x xs ih =>
    cases ys with
    | nil => simp [runLength]
    | cons y ys =>
      have tail := ih ys
      simp only [runLength, List.length_cons]
      split <;> omega

theorem take_runLength (xs ys : List Char) : xs.take (runLength xs ys) = ys.take (runLength xs ys) := by
  induction xs generalizing ys with
  | nil => simp [runLength_nil]
  | cons x xs ih =>
    cases ys with
    | nil => simp [runLength]
    | cons y ys =>
      simp only [runLength]
      split
      · rename_i same
        simp [same, ih ys]
      · simp

def rowOf (xs : List Char) : List Char → List Char → List Nat
  | _, [] => []
  | passed, y :: ys => runLength xs (y :: passed) :: rowOf xs (y :: passed) ys

theorem rowOf_nil (passed ys : List Char) : rowOf [] passed ys = List.replicate ys.length 0 := by
  induction ys generalizing passed with
  | nil => rfl
  | cons y ys ih => simp [rowOf, runLength_nil, ih, List.replicate_succ]

theorem nextRow_rowOf (x : Char) (xs passed ys : List Char) :
    nextRow x (runLength xs passed) ys (rowOf xs passed ys) = rowOf (x :: xs) passed ys := by
  induction ys generalizing passed with
  | nil => rfl
  | cons y ys ih => simp only [rowOf, nextRow, runLength, ih]

end Runs

section Search

def longer (best block : Block) : Block := if best.size < block.size then block else best

-- The first of the longest blocks: those before it are shorter, those behind it are not longer.
def FirstLongest (blocks : List Block) (first : Block) : Prop :=
  ∃ before after, blocks = before ++ first :: after ∧ (∀ block ∈ before, block.size < first.size) ∧
    ∀ block ∈ after, block.size ≤ first.size

theorem FirstLongest.mem {blocks : List Block} {first : Block} (found : FirstLongest blocks first) : first ∈ blocks := by
  obtain ⟨before, after, rfl, _, _⟩ := found
  simp

theorem FirstLongest.size_le {blocks : List Block} {first : Block} (found : FirstLongest blocks first) :
    ∀ block ∈ blocks, block.size ≤ first.size := by
  obtain ⟨before, after, rfl, shorter, within⟩ := found
  intro block member
  rcases List.mem_append.1 member with early | late
  · exact Nat.le_of_lt (shorter block early)
  · rcases List.mem_cons.1 late with rfl | behind
    · exact Nat.le_refl _
    · exact within block behind

theorem FirstLongest.behind_shorter {blocks : List Block} {first block : Block} (found : FirstLongest blocks first)
    (less : block.size < first.size) : FirstLongest (block :: blocks) first := by
  obtain ⟨before, after, rfl, shorter, within⟩ := found
  exact ⟨block :: before, after, rfl, List.forall_mem_cons.2 ⟨less, shorter⟩, within⟩

-- A block that is not longer than one before it is never the first of the longest.
theorem FirstLongest.insert {blocks : List Block} {first best block : Block}
    (found : FirstLongest (best :: blocks) first) (le : block.size ≤ best.size) :
    FirstLongest (best :: block :: blocks) first := by
  obtain ⟨before, after, split, shorter, within⟩ := found
  cases before with
  | nil =>
    obtain ⟨rfl, rfl⟩ := List.cons.inj split
    exact ⟨[], block :: blocks, rfl, by simp, List.forall_mem_cons.2 ⟨le, within⟩⟩
  | cons head before =>
    obtain ⟨rfl, rfl⟩ := List.cons.inj split
    obtain ⟨less, rest⟩ := List.forall_mem_cons.1 shorter
    exact ⟨best :: block :: before, after, rfl,
      List.forall_mem_cons.2 ⟨less, List.forall_mem_cons.2 ⟨Nat.lt_of_le_of_lt le less, rest⟩⟩, within⟩

theorem firstLongest_foldl (blocks : List Block) (best : Block) :
    FirstLongest (best :: blocks) (blocks.foldl longer best) := by
  induction blocks generalizing best with
  | nil => exact ⟨[], [], rfl, by simp, by simp⟩
  | cons block blocks ih =>
    rw [List.foldl_cons]
    by_cases less : best.size < block.size
    · rw [longer, if_pos less]
      have found := ih block
      exact found.behind_shorter (Nat.lt_of_lt_of_le less (found.size_le block List.mem_cons_self))
    · rw [longer, if_neg less]
      exact (ih best).insert (Nat.not_lt.1 less)

def Block.ending (i j run : Nat) : Block := ⟨i + 1 - run, j + 1 - run, run⟩

def blocksOfRow (i : Nat) : Nat → List Nat → List Block
  | _, [] => []
  | j, run :: row => .ending i j run :: blocksOfRow i (j + 1) row

def blocksOfRows (ys : List Char) (right : Nat) : Nat → List Char → List Char → List Block
  | _, _, [] => []
  | i, passed, x :: xs =>
    blocksOfRow i right (rowOf (x :: passed) [] ys) ++ blocksOfRows ys right (i + 1) (x :: passed) xs

theorem improve_eq (i j : Nat) (row : List Nat) (best : Block) :
    improve i j row best = (blocksOfRow i j row).foldl longer best := by
  induction row generalizing j best with
  | nil => rfl
  | cons run row ih => exact ih (j + 1) _

-- The search goes through the blocks row by row.
theorem scanRows_eq (ys : List Char) (right i : Nat) (passed xs : List Char) (best : Block) :
    scanRows ys right i xs (rowOf passed [] ys) best = (blocksOfRows ys right i passed xs).foldl longer best := by
  induction xs generalizing i passed best with
  | nil => rfl
  | cons x xs ih =>
    have row := nextRow_rowOf x passed [] ys
    rw [runLength_nil_right] at row
    simp only [scanRows, row, blocksOfRows, List.foldl_append, improve_eq]
    exact ih (i + 1) (x :: passed) _

theorem mem_blocksOfRow_iff (i j : Nat) (xs passed ys : List Char) (block : Block) :
    block ∈ blocksOfRow i j (rowOf xs passed ys) ↔ ∃ before y after, ys = before ++ y :: after ∧
      block = .ending i (j + before.length) (runLength xs (y :: (before.reverse ++ passed))) := by
  induction ys generalizing j passed with
  | nil => simp [rowOf, blocksOfRow]
  | cons y ys ih =>
    simp only [rowOf, blocksOfRow, List.mem_cons, ih]
    constructor
    · rintro (rfl | ⟨before, z, after, rfl, rfl⟩)
      · exact ⟨[], y, ys, rfl, rfl⟩
      · refine ⟨y :: before, z, after, rfl, ?_⟩
        simp [Nat.add_assoc, Nat.add_comm 1]
    · rintro ⟨before, z, after, split, rfl⟩
      cases before with
      | nil =>
        obtain ⟨rfl, rfl⟩ := List.cons.inj split
        exact .inl rfl
      | cons head before =>
        obtain ⟨rfl, rfl⟩ := List.cons.inj split
        refine .inr ⟨before, z, after, rfl, ?_⟩
        simp [Nat.add_assoc, Nat.add_comm 1]

theorem mem_blocksOfRows_iff (ys : List Char) (right i : Nat) (passed xs : List Char) (block : Block) :
    block ∈ blocksOfRows ys right i passed xs ↔ ∃ first x last before y after,
      xs = first ++ x :: last ∧ ys = before ++ y :: after ∧
      block = .ending (i + first.length) (right + before.length)
        (runLength (x :: (first.reverse ++ passed)) (y :: before.reverse)) := by
  induction xs generalizing i passed with
  | nil => simp [blocksOfRows]
  | cons x xs ih =>
    simp only [blocksOfRows, List.mem_append, mem_blocksOfRow_iff, ih, List.append_nil]
    constructor
    · rintro (⟨before, y, after, rfl, rfl⟩ | ⟨first, z, last, before, y, after, rfl, rfl, rfl⟩)
      · exact ⟨[], x, xs, before, y, after, rfl, rfl, rfl⟩
      · refine ⟨x :: first, z, last, before, y, after, rfl, rfl, ?_⟩
        simp [Nat.add_assoc, Nat.add_comm 1]
    · rintro ⟨first, z, last, before, y, after, split, rfl, rfl⟩
      cases first with
      | nil =>
        obtain ⟨rfl, rfl⟩ := List.cons.inj split
        exact .inl ⟨before, y, after, rfl, rfl⟩
      | cons head first =>
        obtain ⟨rfl, rfl⟩ := List.cons.inj split
        refine .inr ⟨first, z, last, before, y, after, rfl, rfl, ?_⟩
        simp [Nat.add_assoc, Nat.add_comm 1]

end Search

section Blocks

variable {a b : List Char}

theorem slice_append (chars : List Char) {first middle past : Nat} (early : first ≤ middle) (late : middle ≤ past) :
    slice chars first middle ++ slice chars middle past = slice chars first past := by
  unfold slice
  have rest : chars.drop middle = (chars.drop first).drop (middle - first) := by
    rw [List.drop_drop, Nat.add_sub_cancel' early]
  rw [rest, ← List.take_add]
  congr 1
  omega

theorem slice_around (chars : List Char) {first start stop past : Nat} (from_le : first ≤ start) (le : start ≤ stop)
    (le_past : stop ≤ past) :
    slice chars first past = slice chars first start ++ (slice chars start stop ++ slice chars stop past) := by
  rw [slice_append chars le le_past, slice_append chars from_le (Nat.le_trans le le_past)]

theorem length_slice_le (chars : List Char) (first past : Nat) : (slice chars first past).length ≤ past - first :=
  List.length_take_le _ _

theorem length_slice {chars : List Char} {first past : Nat} (within : past ≤ chars.length) :
    (slice chars first past).length = past - first := by
  simp only [slice, List.length_take, List.length_drop]
  omega

theorem drop_eq_slice_append (chars : List Char) (first past : Nat) :
    chars.drop first = slice chars first past ++ (chars.drop first).drop (past - first) :=
  (List.take_append_drop _ _).symm

theorem slice_run {chars before after : List Char} {x : Char} {first past size : Nat}
    (split : slice chars first past = before ++ x :: after) (size_le : size ≤ before.length + 1) :
    first + before.length + 1 ≤ past ∧
      slice chars (first + before.length + 1 - size) (first + before.length + 1 - size + size) =
        ((x :: before.reverse).take size).reverse := by
  have whole := length_slice_le chars first past
  have front : before ++ [x] = (chars.drop first).take (before.length + 1) := by
    have taken := congrArg (List.take (before.length + 1)) split
    rw [slice, List.take_take, List.append_cons, List.take_left' (by simp)] at taken
    rw [← taken]
    congr 1
    rw [split, List.length_append, List.length_cons] at whole
    omega
  rw [split, List.length_append, List.length_cons] at whole
  refine ⟨by omega, ?_⟩
  have backwards : x :: before.reverse = (before ++ [x]).reverse := by simp
  have place : first + before.length + 1 - size = first + (before.length + 1 - size) := by omega
  have amount : first + (before.length + 1 - size) + size - (first + (before.length + 1 - size)) =
    before.length + 1 - (before.length + 1 - size) := by omega
  rw [backwards, List.take_reverse, List.reverse_reverse, List.length_append, List.length_singleton, front,
    List.drop_take, List.drop_drop, slice, place, amount]

structure Block.Common (a b : List Char) (window : Window) (block : Block) : Prop where
  left_le : window.left ≤ block.left
  right_le : window.right ≤ block.right
  le_leftEnd : block.left + block.size ≤ window.leftEnd
  le_rightEnd : block.right + block.size ≤ window.rightEnd
  same : ∃ chars, chars.length = block.size ∧ slice a block.left (block.left + block.size) = chars ∧
    slice b block.right (block.right + block.size) = chars

structure Window.Ordered (window : Window) : Prop where
  left_le : window.left ≤ window.leftEnd
  right_le : window.right ≤ window.rightEnd

theorem slice_self (chars : List Char) (place : Nat) : slice chars place place = [] := by simp [slice]

def searched (a b : List Char) (window : Window) : List Block :=
  ⟨window.left, window.right, 0⟩ ::
    blocksOfRows (slice b window.right window.rightEnd) window.right window.left [] (slice a window.left window.leftEnd)

theorem longestBlock_firstLongest (a b : List Char) (window : Window) :
    FirstLongest (searched a b window) (longestBlock a b window) := by
  unfold longestBlock
  simp only [← rowOf_nil [], scanRows_eq]
  exact firstLongest_foldl _ _

theorem common_of_mem_searched {window : Window} (ordered : window.Ordered) {block : Block}
    (member : block ∈ searched a b window) : block.Common a b window := by
  rcases List.mem_cons.1 member with rfl | found
  · exact ⟨Nat.le_refl _, Nat.le_refl _, ordered.left_le, ordered.right_le,
      [], rfl, by simp [slice_self], by simp [slice_self]⟩
  · obtain ⟨first, x, last, before, y, after, left, right, rfl⟩ := (mem_blocksOfRows_iff _ _ _ _ _ _).1 found
    rw [List.append_nil]
    obtain ⟨inLeft, inRight⟩ := runLength_le (x :: first.reverse) (y :: before.reverse)
    have same := take_runLength (x :: first.reverse) (y :: before.reverse)
    generalize runLength (x :: first.reverse) (y :: before.reverse) = size at inLeft inRight same
    rw [List.length_cons, List.length_reverse] at inLeft inRight
    obtain ⟨leftEnd, leftRun⟩ := slice_run left inLeft
    obtain ⟨rightEnd, rightRun⟩ := slice_run right inRight
    have length : ((x :: first.reverse).take size).length = size :=
      List.length_take_of_le (by simpa using inLeft)
    refine ⟨?_, ?_, ?_, ?_, _, ?_, leftRun, by rw [Block.ending, rightRun, same]⟩
    · show window.left ≤ window.left + first.length + 1 - size; omega
    · show window.right ≤ window.right + before.length + 1 - size; omega
    · show window.left + first.length + 1 - size + size ≤ window.leftEnd; omega
    · show window.right + before.length + 1 - size + size ≤ window.rightEnd; omega
    · rw [List.length_reverse, length, Block.ending]

theorem longestBlock_common (a b : List Char) {window : Window} (ordered : window.Ordered) :
    (longestBlock a b window).Common a b window :=
  common_of_mem_searched ordered (longestBlock_firstLongest a b window).mem

end Blocks

end NodeFlow.Similarity
