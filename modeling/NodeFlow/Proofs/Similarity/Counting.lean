import Mathlib.Algebra.Ring.Nat
import Mathlib.Logic.Relation
import NodeFlow.Proofs.Similarity.Longest

namespace NodeFlow.Similarity

open Relation (ReflTransGen)

variable {a b : List Char}

section Recursion

variable {window : Window} {block : Block}

def Window.whole (a b : List Char) : Window := ⟨0, a.length, 0, b.length⟩

def Window.before (window : Window) (block : Block) : Window :=
  ⟨window.left, block.left, window.right, block.right⟩

def Window.after (window : Window) (block : Block) : Window :=
  ⟨block.left + block.size, window.leftEnd, block.right + block.size, window.rightEnd⟩

-- The blocks of a window in ascending order and the count of their characters: nothing if the ranges have no character in
-- common, otherwise the longest block and what both parts beside it have.
inductive Divides (a b : List Char) : Window → List Block → Nat → Prop
  | apart {window : Window} : window.Apart a b → Divides a b window [] 0
  | around {window : Window} {block : Block} {earlier later : List Block} {few many : Nat} :
    block.Longest a b window → 0 < block.size → Divides a b (window.before block) earlier few →
    Divides a b (window.after block) later many → Divides a b window (earlier ++ block :: later) (block.size + few + many)

def sizes (blocks : List Block) : Nat := (blocks.map Block.size).sum

theorem sizes_append (one two : List Block) : sizes (one ++ two) = sizes one + sizes two := by
  simp [sizes]

theorem sizes_cons (block : Block) (blocks : List Block) : sizes (block :: blocks) = block.size + sizes blocks := rfl

theorem sizes_of_perm {one two : List Block} (perm : one.Perm two) : sizes one = sizes two := (perm.map _).sum_nat

theorem Divides.count_eq {blocks : List Block} {count : Nat} (divides : Divides a b window blocks count) :
    count = sizes blocks := by
  induction divides with
  | apart _ => rfl
  | around _ _ _ _ few many =>
    rw [sizes_append, sizes_cons, ← few, ← many]
    omega

theorem Divides.unique {blocks others : List Block} {count other : Nat} (one : Divides a b window blocks count)
    (two : Divides a b window others other) : others = blocks ∧ other = count := by
  induction one generalizing others other with
  | apart none =>
    cases two with
    | apart _ => exact ⟨rfl, rfl⟩
    | around longest positive _ _ => exact absurd (longest.size_eq_zero_iff.2 none) (Nat.ne_of_gt positive)
  | around longest positive _ _ few many =>
    cases two with
    | apart none => exact absurd (longest.size_eq_zero_iff.2 none) (Nat.ne_of_gt positive)
    | around rival _ before after =>
      obtain rfl := longest.unique rival
      obtain ⟨rfl, rfl⟩ := few before
      obtain ⟨rfl, rfl⟩ := many after
      exact ⟨rfl, rfl⟩

theorem Block.Common.before_ordered (common : block.Common a b window) : (window.before block).Ordered :=
  ⟨common.left_le, common.right_le⟩

theorem Block.Common.after_ordered (common : block.Common a b window) : (window.after block).Ordered :=
  ⟨common.le_leftEnd, common.le_rightEnd⟩

theorem Block.Common.sides_ordered (common : block.Common a b window) : ∀ side ∈ sides window block, side.Ordered := by
  intro side member
  rcases List.mem_append.1 member with behind | before
  · split at behind
    · rw [List.mem_singleton.1 behind]
      exact common.after_ordered
    · cases behind
  · split at before
    · rw [List.mem_singleton.1 before]
      exact common.before_ordered
    · cases before

-- Both parts are shorter, so that the recursion ends.
theorem exists_divides (ordered : window.Ordered) : ∃ blocks count, Divides a b window blocks count := by
  induction bound : window.leftEnd - window.left using Nat.strongRecOn generalizing window with
  | ind bound ih =>
    have longest := longestBlock_longest a b ordered
    rcases Nat.eq_zero_or_pos (longestBlock a b window).size with empty | positive
    · exact ⟨[], 0, .apart (longest.size_eq_zero_iff.1 empty)⟩
    · have left := longest.left_le
      have leftEnd := longest.le_leftEnd
      obtain ⟨earlier, few, before⟩ := ih _ (by simp only [Window.before]; omega)
        longest.before_ordered rfl
      obtain ⟨later, many, after⟩ := ih _ (by simp only [Window.after]; omega)
        longest.after_ordered rfl
      exact ⟨_, _, .around longest positive before after⟩

theorem Block.Common.of_before {other : Block} (common : block.Common a b window)
    (inner : other.Common a b (window.before block)) : other.Common a b window :=
  ⟨inner.left_le, inner.right_le,
    Nat.le_trans inner.le_leftEnd (Nat.le_trans (Nat.le_add_right _ _) common.le_leftEnd),
    Nat.le_trans inner.le_rightEnd (Nat.le_trans (Nat.le_add_right _ _) common.le_rightEnd), inner.same⟩

theorem Block.Common.of_after {other : Block} (common : block.Common a b window)
    (inner : other.Common a b (window.after block)) : other.Common a b window :=
  ⟨Nat.le_trans common.left_le (Nat.le_trans (Nat.le_add_right _ _) inner.left_le),
    Nat.le_trans common.right_le (Nat.le_trans (Nat.le_add_right _ _) inner.right_le),
    inner.le_leftEnd, inner.le_rightEnd, inner.same⟩

theorem Divides.common {blocks : List Block} {count : Nat} (divides : Divides a b window blocks count) :
    ∀ block ∈ blocks, 0 < block.size ∧ block.Common a b window := by
  induction divides with
  | apart _ => simp
  | around longest positive _ _ few many =>
    intro other member
    rcases List.mem_append.1 member with early | late
    · exact ⟨(few other early).1, longest.toCommon.of_before (few other early).2⟩
    · rcases List.mem_cons.1 late with rfl | behind
      · exact ⟨positive, longest.toCommon⟩
      · exact ⟨(many other behind).1, longest.toCommon.of_after (many other behind).2⟩

def Block.Precedes (one two : Block) : Prop :=
  one.left + one.size ≤ two.left ∧ one.right + one.size ≤ two.right

theorem Divides.pairwise {blocks : List Block} {count : Nat} (divides : Divides a b window blocks count) :
    blocks.Pairwise Block.Precedes := by
  induction divides with
  | apart _ => exact .nil
  | @around window block earlier later _ _ _ _ before after few many =>
    have first : ∀ one ∈ earlier, one.Precedes block := fun one member =>
      ⟨(before.common one member).2.le_leftEnd, (before.common one member).2.le_rightEnd⟩
    have last : ∀ two ∈ later, block.Precedes two := fun two member =>
      ⟨(after.common two member).2.left_le, (after.common two member).2.right_le⟩
    refine List.pairwise_append.2 ⟨few, List.pairwise_cons.2 ⟨last, many⟩, fun one early two late => ?_⟩
    rcases List.mem_cons.1 late with rfl | behind
    · exact first one early
    · obtain ⟨left, right⟩ := first one early
      obtain ⟨nextLeft, nextRight⟩ := last two behind
      exact ⟨by omega, by omega⟩

def charsOf (a : List Char) (blocks : List Block) : List Char :=
  blocks.flatMap fun block => slice a block.left (block.left + block.size)

theorem length_charsOf {blocks : List Block} (common : ∀ block ∈ blocks, block.Common a b window) :
    (charsOf a blocks).length = sizes blocks := by
  rw [charsOf, List.length_flatMap, sizes]
  congr 1
  refine List.map_congr_left fun block member => ?_
  obtain ⟨chars, length, left, _⟩ := (common block member).same
  rw [left, length]

-- What stands before a block, the block itself and what stands behind it make up the window.
theorem Divides.sublist {blocks : List Block} {count : Nat} (divides : Divides a b window blocks count) :
    (charsOf a blocks).Sublist (slice a window.left window.leftEnd) ∧
      (charsOf a blocks).Sublist (slice b window.right window.rightEnd) := by
  induction divides with
  | apart _ => exact ⟨List.nil_sublist _, List.nil_sublist _⟩
  | @around window block earlier later _ _ longest _ _ _ few many =>
    obtain ⟨chars, _, left, right⟩ := longest.same
    have whole : charsOf a (earlier ++ block :: later) = charsOf a earlier ++ (chars ++ charsOf a later) := by
      simp only [charsOf, List.flatMap_append, List.flatMap_cons, left]
    rw [whole]
    constructor
    · rw [slice_around a longest.left_le (Nat.le_add_right _ block.size) longest.le_leftEnd, left]
      exact few.1.append ((List.Sublist.refl chars).append many.1)
    · rw [slice_around b longest.right_le (Nat.le_add_right _ block.size) longest.le_rightEnd, right]
      exact few.2.append ((List.Sublist.refl chars).append many.2)

end Recursion

section Work

-- The windows that are still to be searched, and the blocks counted so far, the last one first.
structure Work where
  pending : List Window
  counted : List Block

def Work.start (a b : List Char) : Work := ⟨[.whole a b], []⟩

-- The first pending window is dropped if it has no common character; otherwise its longest block is counted, and its
-- sides are searched next.
inductive Work.Step (a b : List Char) : Work → Work → Prop
  | drop {window : Window} {pending : List Window} {counted : List Block} : (longestBlock a b window).size = 0 →
    Work.Step a b ⟨window :: pending, counted⟩ ⟨pending, counted⟩
  | count {window : Window} {pending : List Window} {counted : List Block} : (longestBlock a b window).size ≠ 0 →
    Work.Step a b ⟨window :: pending, counted⟩
      ⟨sides window (longestBlock a b window) ++ pending, longestBlock a b window :: counted⟩

def Work.Ordered (work : Work) : Prop := ∀ window ∈ work.pending, window.Ordered

theorem start_ordered (a b : List Char) : (Work.start a b).Ordered := by
  intro window member
  rw [List.mem_singleton.1 member]
  exact ⟨Nat.zero_le _, Nat.zero_le _⟩

variable {work next : Work}

theorem Work.Step.ordered (step : Work.Step a b work next) (ordered : work.Ordered) : next.Ordered := by
  cases step with
  | drop _ => exact fun other member => ordered other (List.mem_cons_of_mem _ member)
  | @count window pending _ _ =>
    have common := longestBlock_common a b (ordered window List.mem_cons_self)
    intro other member
    rcases List.mem_append.1 member with side | later
    · exact common.sides_ordered other side
    · exact ordered other (List.mem_cons_of_mem _ later)

section Termination

-- How many windows there are at most in the search of a window: it is replaced by two, which are shorter by at least one
-- character together.
def Window.cost (window : Window) : Nat := 2 * (window.leftEnd - window.left) + 1

def Work.cost (work : Work) : Nat := (work.pending.map Window.cost).sum

theorem cost_sides_lt {window : Window} {block : Block} (common : block.Common a b window) (filled : block.size ≠ 0) :
    ((sides window block).map Window.cost).sum < window.cost := by
  have left := common.left_le
  have leftEnd := common.le_leftEnd
  unfold sides Window.cost
  dsimp only
  split <;> split <;> simp <;> omega

theorem Work.Step.cost_lt (step : Work.Step a b work next) (ordered : work.Ordered) : next.cost < work.cost := by
  cases step with
  | drop _ => simp [Work.cost, Window.cost]
  | @count window pending _ filled =>
    have less := cost_sides_lt (longestBlock_common a b (ordered window List.mem_cons_self)) filled
    simp only [Work.cost, List.map_append, List.sum_append, List.map_cons, List.sum_cons]
    omega

theorem Work.Ordered.acc (ordered : work.Ordered) : Acc (fun next work => Work.Step a b work next) work := by
  induction bound : work.cost using Nat.strongRecOn generalizing work with
  | ind bound ih =>
    exact ⟨_, fun next step => ih next.cost (bound ▸ step.cost_lt ordered) (step.ordered ordered) rfl⟩

-- With enough fuel the count is that of a run to its end.
theorem countFrom_steps (fuel : Nat) (work : Work) (ordered : work.Ordered) (enough : work.cost ≤ fuel) :
    ∃ counted, ReflTransGen (Work.Step a b) work ⟨[], counted⟩ ∧
      sizes counted = countFrom a b fuel work.pending + sizes work.counted := by
  induction fuel generalizing work with
  | zero =>
    obtain ⟨pending, counted⟩ := work
    cases pending with
    | nil => exact ⟨counted, .refl, by simp [countFrom]⟩
    | cons window pending => simp [Work.cost, Window.cost] at enough
  | succ fuel ih =>
    obtain ⟨pending, counted⟩ := work
    cases pending with
    | nil => exact ⟨counted, .refl, by simp [countFrom]⟩
    | cons window pending =>
      simp only [countFrom]
      split
      · rename_i empty
        have step : Work.Step a b ⟨window :: pending, counted⟩ ⟨pending, counted⟩ := .drop empty
        have less := step.cost_lt ordered
        obtain ⟨found, steps, total⟩ := ih _ (step.ordered ordered) (by omega)
        exact ⟨found, .head step steps, total⟩
      · rename_i filled
        have step : Work.Step a b ⟨window :: pending, counted⟩ _ := .count filled
        have less := step.cost_lt ordered
        obtain ⟨found, steps, total⟩ := ih _ (step.ordered ordered) (by omega)
        refine ⟨found, .head step steps, ?_⟩
        rw [total, sizes_cons]
        dsimp only
        omega

end Termination

-- The blocks that pending windows will give, one window after the other.
inductive Owes (a b : List Char) : List Window → List Block → Prop
  | nil : Owes a b [] []
  | cons {window : Window} {windows : List Window} {blocks others : List Block} {count : Nat} :
    Divides a b window blocks count → Owes a b windows others → Owes a b (window :: windows) (blocks ++ others)

theorem Owes.append {first second : List Window} {blocks others : List Block} (one : Owes a b first blocks)
    (two : Owes a b second others) : Owes a b (first ++ second) (blocks ++ others) := by
  induction one with
  | nil => exact two
  | cons divides _ ih =>
    rw [List.append_assoc]
    exact .cons divides ih

theorem Divides.owes_guarded {window : Window} {blocks : List Block} {count : Nat}
    (divides : Divides a b window blocks count) :
    Owes a b (if window.left < window.leftEnd && window.right < window.rightEnd then [window] else []) blocks := by
  split
  · rw [← List.append_nil blocks]
    exact .cons divides .nil
  · rename_i hollow
    have apart : window.Apart a b := by
      intro c inLeft inRight
      have left := Nat.lt_of_lt_of_le (List.length_pos_of_mem inLeft) (length_slice_le _ _ _)
      have right := Nat.lt_of_lt_of_le (List.length_pos_of_mem inRight) (length_slice_le _ _ _)
      simp only [Bool.and_eq_true, decide_eq_true_eq] at hollow
      omega
    rw [(divides.unique (.apart apart)).1.symm]
    exact .nil

-- What is counted moves from the blocks that are still to come to those that were counted.
theorem Work.Step.owes (step : Work.Step a b work next) (ordered : work.Ordered) {blocks : List Block}
    (owes : Owes a b work.pending blocks) :
    ∃ others, Owes a b next.pending others ∧ (blocks ++ work.counted).Perm (others ++ next.counted) := by
  cases step with
  | @drop window _ _ empty =>
    have longest := longestBlock_longest a b (ordered window List.mem_cons_self)
    cases owes with
    | @cons _ _ _ others _ divides rest =>
      have none := (divides.unique (.apart (longest.size_eq_zero_iff.1 empty))).1
      exact ⟨others, rest, by rw [← none, List.nil_append]⟩
  | @count window pending counted filled =>
    have longest := longestBlock_longest a b (ordered window List.mem_cons_self)
    cases owes with
    | @cons _ _ _ others _ divides rest =>
      cases divides with
      | apart none => exact absurd (longest.size_eq_zero_iff.2 none) filled
      | @around _ block earlier later _ _ found _ before after =>
        obtain rfl := found.unique longest
        refine ⟨(later ++ earlier) ++ others, (after.owes_guarded.append before.owes_guarded).append rest, ?_⟩
        have taken : (earlier ++ longestBlock a b window :: later).Perm (longestBlock a b window :: (later ++ earlier)) :=
          List.perm_middle.trans (List.perm_append_comm.cons _)
        exact ((taken.append_right others).append_right counted).trans List.perm_middle.symm

theorem steps_ordered (steps : ReflTransGen (Work.Step a b) work next) (ordered : work.Ordered) : next.Ordered := by
  induction steps with
  | refl => exact ordered
  | tail _ step ih => exact step.ordered ih

theorem steps_owes (steps : ReflTransGen (Work.Step a b) work next) (ordered : work.Ordered) {blocks : List Block}
    (owes : Owes a b work.pending blocks) :
    ∃ others, Owes a b next.pending others ∧ (blocks ++ work.counted).Perm (others ++ next.counted) := by
  induction steps with
  | refl => exact ⟨blocks, owes, .refl _⟩
  | tail steps step ih =>
    obtain ⟨middle, due, perm⟩ := ih
    obtain ⟨others, rest, later⟩ := step.owes (steps_ordered steps ordered) due
    exact ⟨others, rest, perm.trans later⟩

-- A run to the end counts the blocks of the recursion, in another order.
theorem counted_perm {blocks counted : List Block} {count : Nat} (divides : Divides a b (.whole a b) blocks count)
    (steps : ReflTransGen (Work.Step a b) (.start a b) ⟨[], counted⟩) : counted.Perm blocks := by
  obtain ⟨others, none, perm⟩ := steps_owes steps (start_ordered a b) (.cons divides .nil)
  cases none
  simpa [Work.start] using perm.symm

end Work

section Total

theorem exists_run (a b : List Char) : ∃ counted, ReflTransGen (Work.Step a b) (.start a b) ⟨[], counted⟩ ∧
    sizes counted = matchingChars a b := by
  obtain ⟨counted, steps, total⟩ := countFrom_steps (2 * a.length + 1) (.start a b) (start_ordered a b)
    (by simp [Work.cost, Work.start, Window.cost, Window.whole])
  exact ⟨counted, steps, total⟩

theorem exists_blocks (a b : List Char) : ∃ blocks, Divides a b (.whole a b) blocks (matchingChars a b) := by
  have ordered : (Window.whole a b).Ordered := start_ordered a b _ List.mem_cons_self
  obtain ⟨blocks, count, divides⟩ := exists_divides ordered
  obtain ⟨counted, steps, total⟩ := exists_run a b
  refine ⟨blocks, ?_⟩
  rw [← total, sizes_of_perm (counted_perm divides steps), ← divides.count_eq]
  exact divides

theorem slice_whole (chars : List Char) : slice chars 0 chars.length = chars := by simp [slice]

theorem Divides.chars {blocks : List Block} {count : Nat} (divides : Divides a b (.whole a b) blocks count) :
    (charsOf a blocks).length = count ∧ (charsOf a blocks).Sublist a ∧ (charsOf a blocks).Sublist b := by
  obtain ⟨left, right⟩ := divides.sublist
  have length := length_charsOf fun block member => (divides.common block member).2
  exact ⟨length.trans divides.count_eq.symm, by simpa [Window.whole, slice_whole] using left,
    by simpa [Window.whole, slice_whole] using right⟩

theorem matchingChars_common (a b : List Char) :
    ∃ part : List Char, part.length = matchingChars a b ∧ part.Sublist a ∧ part.Sublist b := by
  obtain ⟨blocks, divides⟩ := exists_blocks a b
  exact ⟨charsOf a blocks, divides.chars⟩

end Total

section Bags

-- A sequence in which no character stands more often than in a bag has no more shared characters than
-- any sequence that it is taken from.
theorem length_le_sharedChars (part available other : List Char) (scarce : ∀ c, part.count c ≤ available.count c)
    (within : part.Sublist other) : part.length ≤ sharedChars available other := by
  induction other generalizing part available with
  | nil => simp [List.sublist_nil.1 within]
  | cons c rest ih =>
    unfold sharedChars
    split
    · -- Without the character that is taken, the rest is still scarce in what is left of the bag.
      have fewer : ∀ d, (part.erase c).count d ≤ (available.erase c).count d := by
        intro d
        have bound := scarce d
        rw [List.count_erase, List.count_erase]
        split <;> omega
      have shorter : (part.erase c).Sublist rest := by
        have erased := within.erase c
        rwa [List.erase_cons_head] at erased
      have step := ih (part.erase c) (available.erase c) fewer shorter
      have length : part.length ≤ (part.erase c).length + 1 := by
        rw [List.length_erase]
        split <;> omega
      omega
    · rename_i absent
      have unused : c ∉ part := by
        rw [← List.count_pos_iff] at absent ⊢
        have bound := scarce c
        omega
      refine ih part available scarce ?_
      cases within with
      | cons _ shorter => exact shorter
      | cons_cons _ _ => exact absurd List.mem_cons_self unused

theorem sharedChars_le (available other : List Char) :
    sharedChars available other ≤ available.length ∧ sharedChars available other ≤ other.length := by
  induction other generalizing available with
  | nil => simp [sharedChars]
  | cons c rest ih =>
    unfold sharedChars
    split
    · rename_i present
      have step := ih (available.erase c)
      have length := List.length_erase_of_mem present
      have positive := List.length_pos_of_mem present
      simp only [List.length_cons]
      omega
    · have step := ih available
      simp only [List.length_cons]
      omega

theorem matchingChars_le_sharedChars (a b : List Char) : matchingChars a b ≤ sharedChars b a := by
  obtain ⟨part, length, left, right⟩ := matchingChars_common a b
  rw [← length]
  exact length_le_sharedChars part b a (fun c => right.count_le c) left

end Bags

-- For all sequences: the recursion has one result, and the run that works the windows off ends and counts its blocks.
theorem matchingChars_recursive (a b : List Char) : ∃ blocks counted,
    (∀ found count, Divides a b (.whole a b) found count ↔ found = blocks ∧ count = matchingChars a b) ∧
    Acc (fun next work => Work.Step a b work next) (.start a b) ∧
    ReflTransGen (Work.Step a b) (.start a b) ⟨[], counted⟩ ∧ sizes counted = matchingChars a b ∧ counted.Perm blocks ∧
    (∀ block ∈ blocks, 0 < block.size ∧ block.Common a b (.whole a b)) ∧ blocks.Pairwise Block.Precedes ∧
    (charsOf a blocks).length = matchingChars a b ∧ (charsOf a blocks).Sublist a ∧ (charsOf a blocks).Sublist b := by
  obtain ⟨blocks, divides⟩ := exists_blocks a b
  obtain ⟨counted, steps, total⟩ := exists_run a b
  refine ⟨blocks, counted, fun found count => ⟨divides.unique, ?_⟩, (start_ordered a b).acc, steps, total,
    counted_perm divides steps, divides.common, divides.pairwise, divides.chars⟩
  rintro ⟨rfl, rfl⟩
  exact divides

end NodeFlow.Similarity
