import Mathlib.Data.List.TakeWhile
import NodeFlow.Text.Fence

namespace NodeFlow.Text

theorem splitAtMark_eq {mark text before after : List Char}
    (found : splitAtMark mark text = some (before, after)) : text = before ++ (mark ++ after) := by
  induction text generalizing before with
  | nil =>
    unfold splitAtMark at found
    split at found
    · rename_i none
      cases found
      simp [List.isEmpty_iff.1 none]
    · cases found
  | cons c rest ih =>
    unfold splitAtMark at found
    split at found
    · rename_i here
      cases found
      obtain ⟨tail, whole⟩ := List.isPrefixOf_iff_prefix.1 here
      simp [← whole]
    · obtain ⟨⟨first, last⟩, later, same⟩ := Option.map_eq_some_iff.1 found
      cases same
      rw [ih later, List.cons_append]

theorem dropBlankEnd_append (text : List Char) : ∃ gap, text = dropBlankEnd text ++ gap := by
  refine ⟨(text.reverse.takeWhile isBlank).reverse, ?_⟩
  rw [dropBlankEnd, ← List.reverse_append, List.takeWhile_append_dropWhile, List.reverse_reverse]

def Opened (opening text block : List Char) : Prop :=
  ∃ before gap after, text = before ++ (opening ++ (gap ++ (block ++ after))) ∧ ∀ c ∈ gap, isBlank c = true

theorem Opened.append_left {opening text block : List Char} (opened : Opened opening text block)
    (skipped : List Char) : Opened opening (skipped ++ text) block := by
  obtain ⟨before, gap, after, rfl, blank⟩ := opened
  exact ⟨skipped ++ before, gap, after, by rw [List.append_assoc], blank⟩

theorem firstBlock_opened {opening text block rest : List Char} (found : firstBlock opening text = some (block, rest)) :
    Opened opening text block ∧ ∃ skipped, text = skipped ++ rest := by
  obtain ⟨⟨before, inside⟩, opened, found⟩ := Option.bind_eq_some_iff.1 found
  obtain ⟨⟨body, after⟩, closed, same⟩ := Option.bind_eq_some_iff.1 found
  cases same
  have blank : ∀ c ∈ inside.takeWhile isBlank, isBlank c = true := List.all_eq_true.1 List.all_takeWhile
  have whole : inside = inside.takeWhile isBlank ++ (body ++ (fence ++ rest)) := by
    rw [← splitAtMark_eq closed, List.takeWhile_append_dropWhile]
  obtain ⟨end_, trimmed⟩ := dropBlankEnd_append body
  rw [splitAtMark_eq opened]
  refine ⟨⟨before, inside.takeWhile isBlank, end_ ++ (fence ++ rest), ?_, blank⟩,
    before ++ (opening ++ (inside.takeWhile isBlank ++ (body ++ fence))), ?_⟩
  · rw [← List.append_assoc (dropBlankEnd body), ← trimmed, ← whole]
  · simp only [List.append_assoc, ← whole]

theorem blocksFrom_opened {opening : List Char} (fuel : Nat) (text block : List Char)
    (member : block ∈ blocksFrom opening fuel text) : Opened opening text block := by
  induction fuel generalizing text with
  | zero => cases member
  | succ fuel ih =>
    unfold blocksFrom at member
    split at member
    · rename_i body rest found
      obtain ⟨first, skipped, whole⟩ := firstBlock_opened found
      rcases List.mem_cons.1 member with rfl | later
      · exact first
      · rw [whole]
        exact (ih rest later).append_left skipped
    · cases member

theorem blocks_opened {opening text block : List Char} (member : block ∈ blocks opening text) :
    Opened opening text block :=
  blocksFrom_opened _ _ _ member

section Marks

variable {mark before rest : List Char} {c : Char}

theorem splitAtMark_eq_none_iff (mark text : List Char) : splitAtMark mark text = none ↔ ¬ mark <:+: text := by
  induction text with
  | nil => simp [splitAtMark]
  | cons c rest ih =>
    rw [splitAtMark, List.infix_cons_iff, not_or, ← List.isPrefixOf_iff_prefix]
    split
    · rename_i here
      simp [here]
    · rename_i elsewhere
      rw [Option.map_eq_none_iff, ih]
      simp [elsewhere]

-- The mark is found where it stands first, also if only a part of the one that is found stands behind the text before it.
theorem splitAtMark_append (filled : mark ≠ []) (first : ¬ mark <:+: before ++ mark.dropLast) (after : List Char) :
    splitAtMark mark (before ++ (mark ++ after)) = some (before, after) := by
  induction before with
  | nil =>
    obtain ⟨m, rest, rfl⟩ := List.exists_cons_of_ne_nil filled
    rw [List.nil_append, List.cons_append, splitAtMark, if_pos (by simp)]
    simp
  | cons c before ih =>
    have elsewhere : ¬ mark.isPrefixOf (c :: (before ++ (mark ++ after))) = true := by
      rw [List.isPrefixOf_iff_prefix]
      intro here
      have shorter : c :: (before ++ mark.dropLast) <+: c :: (before ++ (mark ++ after)) := by
        rw [List.prefix_cons_inj, List.prefix_append_right_inj]
        exact (List.dropLast_prefix mark).trans (List.prefix_append _ _)
      refine first (List.prefix_of_prefix_length_le here shorter ?_).isInfix
      simp only [List.length_cons, List.length_append, List.length_dropLast]
      omega
    rw [List.cons_append, splitAtMark, if_neg elsewhere, ih fun inside => first (List.infix_cons inside)]
    rfl

theorem infix_of_last_absent (last : mark.getLast? = some c) (absent : c ∉ rest) (inside : mark <:+: before ++ rest) :
    mark <:+: before := by
  rcases List.infix_append_iff.1 inside with early | late | ⟨front, back, rfl, ends, begins⟩
  · exact early
  · exact absurd (late.subset (List.mem_of_getLast? last)) absent
  · rcases List.eq_nil_or_concat back with rfl | ⟨others, d, rfl⟩
    · rw [List.append_nil]
      exact ends.isInfix
    · have same : d = c := by simpa [← List.append_assoc] using last
      exact absurd (begins.subset (by simp [same])) absent

theorem infix_of_last_foreign (last : before.getLast? = some c) (foreign : c ∉ mark) (inside : mark <:+: before ++ rest) :
    mark <:+: before ∨ mark <:+: rest := by
  rcases List.infix_append_iff.1 inside with early | late | ⟨front, back, rfl, ends, begins⟩
  · exact .inl early
  · exact .inr late
  · rcases List.eq_nil_or_concat front with rfl | ⟨others, d, rfl⟩
    · exact .inr begins.isInfix
    · obtain ⟨first, rfl⟩ := ends
      have same : d = c := by simpa [← List.append_assoc] using last
      exact absurd (by simp [same]) foreign

end Marks

section Blanks

theorem not_fence_prefix_blank {c : Char} {rest : List Char} (blank : isBlank c = true) : ¬ fence <+: c :: rest := by
  intro here
  have head : c = '\x60' := (List.cons_prefix_cons.1 here).1.symm
  rw [head] at blank
  exact absurd blank (by decide)

theorem fence_infix_dropWhile {text : List Char} (inside : fence <:+: text) : fence <:+: text.dropWhile isBlank := by
  induction text with
  | nil => exact inside
  | cons c rest ih =>
    by_cases blank : isBlank c = true
    · rw [List.dropWhile_cons_of_pos blank]
      exact ih ((List.infix_cons_iff.1 inside).resolve_left (not_fence_prefix_blank blank))
    · rwa [List.dropWhile_cons_of_neg blank]

-- White space and less than a fence hold no fence.
theorem not_fence_infix_gap {gap : List Char} (blank : ∀ c ∈ gap, isBlank c = true) :
    ¬ fence <:+: gap ++ fence.dropLast := by
  intro inside
  have none : gap.count '\x60' = 0 := List.count_eq_zero.2 fun member => absurd (blank _ member) (by decide)
  have few := inside.sublist.count_le '\x60'
  rw [List.count_append, none] at few
  exact absurd few (by decide)

theorem dropBlankEnd_cons (c : Char) (text : List Char) :
    dropBlankEnd (c :: text) = if isBlank c = true ∧ dropBlankEnd text = [] then [] else c :: dropBlankEnd text := by
  unfold dropBlankEnd
  rw [List.reverse_cons, List.dropWhile_append]
  by_cases empty : text.reverse.dropWhile isBlank = []
  · by_cases blank : isBlank c = true <;> simp [empty, blank]
  · simp [empty]

theorem dropBlankEnd_eq_nil_iff (text : List Char) : dropBlankEnd text = [] ↔ ∀ c ∈ text, isBlank c = true := by
  simp [dropBlankEnd, List.dropWhile_eq_nil_iff]

theorem dropBlankEnd_append_blank {block trail : List Char} {d : Char} (last : block.getLast? = some d)
    (solid : isBlank d = false) (blank : ∀ c ∈ trail, isBlank c = true) : dropBlankEnd (block ++ trail) = block := by
  obtain ⟨front, rfl⟩ := List.getLast?_eq_some_iff.1 last
  have none : trail.reverse.dropWhile isBlank = [] :=
    List.dropWhile_eq_nil_iff.2 fun c member => blank c (List.mem_reverse.1 member)
  rw [dropBlankEnd, List.reverse_append, List.dropWhile_append, none]
  simp [solid]

end Blanks

section Blocks

variable {before gap block trail : List Char} {c d : Char}

theorem firstBlock_marked (first : ¬ jsonFence <:+: before) (blankGap : ∀ c ∈ gap, isBlank c = true)
    (head : block.head? = some c) (solidHead : isBlank c = false) (last : block.getLast? = some d)
    (solidLast : isBlank d = false) (foreign : d ∉ fence) (unfenced : ¬ fence <:+: block)
    (blankTrail : ∀ c ∈ trail, isBlank c = true) (after : List Char) :
    firstBlock jsonFence (before ++ (jsonFence ++ (gap ++ (block ++ (trail ++ (fence ++ after)))))) = some (block, after) := by
  have opened : ¬ jsonFence <:+: before ++ jsonFence.dropLast := fun inside =>
    first (infix_of_last_absent (show jsonFence.getLast? = some 'n' by decide) (by decide) inside)
  have closed : ¬ fence <:+: (block ++ trail) ++ fence.dropLast := by
    rw [List.append_assoc]
    intro inside
    rcases infix_of_last_foreign last foreign inside with early | late
    · exact unfenced early
    · exact not_fence_infix_gap blankTrail late
  have entered : (gap ++ (block ++ (trail ++ (fence ++ after)))).dropWhile isBlank =
      (block ++ trail) ++ (fence ++ after) := by
    obtain ⟨others, rfl⟩ := List.head?_eq_some_iff.1 head
    rw [List.dropWhile_append_of_pos blankGap, List.cons_append, List.dropWhile_cons_of_neg (by simp [solidHead])]
    simp
  rw [firstBlock, splitAtMark_append (by decide) opened, Option.bind_eq_bind, Option.bind_some]
  dsimp only
  rw [entered, splitAtMark_append (by decide) closed, Option.bind_some]
  dsimp only
  rw [dropBlankEnd_append_blank last solidLast blankTrail]

theorem firstBlock_shorter {opening text block rest : List Char} (found : firstBlock opening text = some (block, rest)) :
    rest.length < text.length := by
  obtain ⟨⟨before, inside⟩, opened, found⟩ := Option.bind_eq_some_iff.1 found
  obtain ⟨⟨body, after⟩, closed, same⟩ := Option.bind_eq_some_iff.1 found
  cases same
  have whole := congrArg List.length (splitAtMark_eq opened)
  have inner := congrArg List.length (splitAtMark_eq closed)
  have trimmed : (inside.dropWhile isBlank).length ≤ inside.length := (List.dropWhile_suffix isBlank).length_le
  simp only [List.length_append, fence, List.length_cons] at whole inner
  omega

theorem blocks_of_firstBlock {opening text block rest : List Char} (found : firstBlock opening text = some (block, rest)) :
    ∃ others, blocks opening text = block :: others := by
  unfold blocks
  cases amount : text.length with
  | zero => exact absurd (firstBlock_shorter found) (by omega)
  | succ fuel =>
    rw [blocksFrom, found]
    exact ⟨_, rfl⟩

end Blocks

end NodeFlow.Text
