import NodeFlow.Proofs.Text.Fence

namespace NodeFlow.Text

section Patterns

-- The parts of a pattern. What a block takes is captured.
inductive Piece
  | mark (chars : List Char)
  | blanks
  | block

def behindBlanks : List Char → List (List Char)
  | [] => [[]]
  | c :: rest => if isBlank c then behindBlanks rest ++ [c :: rest] else [c :: rest]

def fronts : List Char → List (List Char × List Char)
  | [] => [([], [])]
  | c :: rest => ([], c :: rest) :: (fronts rest).map fun (front, left) => (c :: front, left)

structure Match where
  blocks : List (List Char)
  rest : List Char

-- The matches at the front of a text, the preferred one first: what an earlier piece prefers comes before what a later
-- one does.
def ways : List Piece → List Char → List Match
  | [], text => [⟨[], text⟩]
  | .mark chars :: pieces, text => if chars.isPrefixOf text then ways pieces (text.drop chars.length) else []
  | .blanks :: pieces, text => (behindBlanks text).flatMap (ways pieces)
  | .block :: pieces, text => (fronts text).flatMap fun (front, left) =>
    (ways pieces left).map fun found => ⟨front :: found.blocks, found.rest⟩

def firstMatch? (pattern : List Piece) : List Char → Option Match
  | [] => (ways pattern []).head?
  | c :: rest => (ways pattern (c :: rest)).head?.or (firstMatch? pattern rest)

inductive Captures (pattern : List Piece) : List Char → List (List Char) → Prop
  | done {text : List Char} : firstMatch? pattern text = none → Captures pattern text []
  | next {text : List Char} {found : Match} {later : List (List Char)} : firstMatch? pattern text = some found →
    Captures pattern found.rest later → Captures pattern text (found.blocks ++ later)

def fenced (opening : List Char) : List Piece := [.mark opening, .blanks, .block, .blanks, .mark fence]

end Patterns

section Matches

def Match.capture (c : Char) (found : Match) : Match := ⟨found.blocks.modifyHead (c :: ·), found.rest⟩

theorem ways_block_cons (pieces : List Piece) (c : Char) (rest : List Char) :
    ways (.block :: pieces) (c :: rest) = ((ways pieces (c :: rest)).map fun found => ⟨[] :: found.blocks, found.rest⟩) ++
      (ways (.block :: pieces) rest).map (Match.capture c) := by
  simp only [ways, fronts, List.flatMap_cons, List.flatMap_map, List.map_flatMap, List.map_map, Function.comp_def,
    Match.capture, List.modifyHead_cons]

theorem ways_blanks_cons (pieces : List Piece) {c : Char} (rest : List Char) (blank : isBlank c = true) :
    ways (.blanks :: pieces) (c :: rest) = ways (.blanks :: pieces) rest ++ ways pieces (c :: rest) := by
  simp only [ways, behindBlanks, if_pos blank, List.flatMap_append, List.flatMap_singleton]

theorem ways_blanks_of_not (pieces : List Piece) {c : Char} (rest : List Char) (solid : ¬ isBlank c = true) :
    ways (.blanks :: pieces) (c :: rest) = ways pieces (c :: rest) := by
  simp only [ways, behindBlanks, if_neg solid, List.flatMap_singleton]

theorem ways_closing (text : List Char) : ways [.blanks, .mark fence] text =
    if fence <+: text.dropWhile isBlank then [⟨[], (text.dropWhile isBlank).drop fence.length⟩] else [] := by
  induction text with
  | nil => rfl
  | cons c rest ih =>
    by_cases blank : isBlank c = true
    · have none : ways [.mark fence] (c :: rest) = [] := by
        rw [ways, if_neg]
        rw [List.isPrefixOf_iff_prefix]
        exact not_fence_prefix_blank blank
      rw [ways_blanks_cons _ _ blank, none, List.append_nil, List.dropWhile_cons_of_pos blank, ih]
    · rw [ways_blanks_of_not _ _ blank, List.dropWhile_cons_of_neg blank]
      simp only [ways, List.isPrefixOf_iff_prefix]

def closing (parts : List Char × List Char) : Match := ⟨[dropBlankEnd parts.1], parts.2⟩

theorem splitAtMark_of_closed {text : List Char} (closed : fence <+: text.dropWhile isBlank) :
    (splitAtMark fence text).map closing = some ⟨[[]], (text.dropWhile isBlank).drop fence.length⟩ := by
  obtain ⟨after, whole⟩ := closed
  have blank : ∀ c ∈ text.takeWhile isBlank, isBlank c = true := List.all_eq_true.1 List.all_takeWhile
  have found : splitAtMark fence text = some (text.takeWhile isBlank, after) := by
    have split := splitAtMark_append (by decide) (not_fence_infix_gap blank) after
    rwa [whole, List.takeWhile_append_dropWhile] at split
  rw [found, ← whole, List.drop_left, Option.map_some, closing, (dropBlankEnd_eq_nil_iff _).2 blank]

theorem splitAtMark_of_open {c : Char} {rest : List Char} (opened : ¬ fence <+: (c :: rest).dropWhile isBlank) :
    (splitAtMark fence (c :: rest)).map closing = ((splitAtMark fence rest).map closing).map (Match.capture c) := by
  have elsewhere : ¬ fence.isPrefixOf (c :: rest) = true := by
    rw [List.isPrefixOf_iff_prefix]
    intro here
    have solid : ¬ isBlank c = true := fun blank => not_fence_prefix_blank blank here
    exact opened (by rwa [List.dropWhile_cons_of_neg solid])
  rw [splitAtMark, if_neg elsewhere, Option.map_map, Option.map_map]
  cases found : splitAtMark fence rest with
  | none => rfl
  | some parts =>
    obtain ⟨front, after⟩ := parts
    -- White space before a fence would have closed the block at once.
    have kept : ¬ (isBlank c = true ∧ dropBlankEnd front = []) := by
      rintro ⟨blank, empty⟩
      refine opened ⟨after, ?_⟩
      rw [List.dropWhile_cons_of_pos blank, splitAtMark_eq found,
        List.dropWhile_append_of_pos ((dropBlankEnd_eq_nil_iff _).1 empty)]
      rfl
    simp only [Option.map_some, Function.comp_apply, closing, Match.capture, dropBlankEnd_cons, if_neg kept,
      List.modifyHead_cons]

-- A block ends before the first fence, without the white space at its end.
theorem head?_ways_block (text : List Char) :
    (ways [.block, .blanks, .mark fence] text).head? = (splitAtMark fence text).map closing := by
  induction text with
  | nil => rfl
  | cons c rest ih =>
    rw [ways_block_cons, ways_closing, List.head?_append]
    by_cases closed : fence <+: (c :: rest).dropWhile isBlank
    · rw [if_pos closed, splitAtMark_of_closed closed]
      rfl
    · rw [if_neg closed, splitAtMark_of_open closed, ← ih, ← List.head?_map]
      rfl

-- It begins behind all the white space: with less of it there is no match either.
theorem head?_ways_inside (text : List Char) : (ways [.blanks, .block, .blanks, .mark fence] text).head? =
    (splitAtMark fence (text.dropWhile isBlank)).map closing := by
  induction text with
  | nil => rfl
  | cons c rest ih =>
    by_cases blank : isBlank c = true
    · rw [ways_blanks_cons _ _ blank, List.head?_append, ih, head?_ways_block, List.dropWhile_cons_of_pos blank]
      cases found : splitAtMark fence (rest.dropWhile isBlank) with
      | some parts => rfl
      | none =>
        have absent : splitAtMark fence (c :: rest) = none := by
          rw [splitAtMark_eq_none_iff] at found ⊢
          intro inside
          have later := fence_infix_dropWhile inside
          rw [List.dropWhile_cons_of_pos blank] at later
          exact found later
        rw [absent]
        rfl
    · rw [ways_blanks_of_not _ _ blank, head?_ways_block, List.dropWhile_cons_of_neg blank]

theorem head?_ways_fenced (opening text : List Char) : (ways (fenced opening) text).head? =
    if opening.isPrefixOf text then
      (splitAtMark fence ((text.drop opening.length).dropWhile isBlank)).map closing else none := by
  rw [fenced, ways]
  split
  · exact head?_ways_inside _
  · rfl

theorem firstBlock_eq (opening text : List Char) : (firstBlock opening text).map (fun (block, rest) => ⟨[block], rest⟩) =
    (splitAtMark opening text).bind fun parts => (splitAtMark fence (parts.2.dropWhile isBlank)).map closing := by
  unfold firstBlock
  cases splitAtMark opening text with
  | none => rfl
  | some parts =>
    simp only [Option.bind_eq_bind, Option.bind_some]
    cases splitAtMark fence (parts.2.dropWhile isBlank) <;> rfl

-- A fence that closes a later block would also have closed an earlier one.
theorem no_later_block {opening inside rest : List Char} {c : Char} (opened : c :: rest = opening ++ inside)
    (unclosed : splitAtMark fence (inside.dropWhile isBlank) = none) :
    (splitAtMark opening rest).bind (fun parts => (splitAtMark fence (parts.2.dropWhile isBlank)).map closing) = none := by
  cases found : splitAtMark opening rest with
  | none => rfl
  | some parts =>
    obtain ⟨before, later⟩ := parts
    have split := splitAtMark_eq found
    have within : later <:+ inside := by
      have first : later <:+ c :: rest := ⟨c :: (before ++ opening), by rw [split]; simp⟩
      have second : inside <:+ c :: rest := ⟨opening, opened.symm⟩
      refine List.suffix_of_suffix_length_le first second ?_
      have whole := congrArg List.length opened
      rw [split] at whole
      simp only [List.length_cons, List.length_append] at whole
      omega
    have absent : splitAtMark fence (later.dropWhile isBlank) = none := by
      rw [splitAtMark_eq_none_iff] at unclosed ⊢
      intro closed
      exact unclosed (fence_infix_dropWhile ((closed.trans (List.dropWhile_suffix _).isInfix).trans within.isInfix))
    rw [Option.bind_some, absent]
    rfl

theorem firstMatch?_fenced (opening text : List Char) : firstMatch? (fenced opening) text =
    (firstBlock opening text).map fun (block, rest) => ⟨[block], rest⟩ := by
  rw [firstBlock_eq]
  induction text with
  | nil =>
    rw [firstMatch?, head?_ways_fenced, splitAtMark]
    cases opening <;> rfl
  | cons c rest ih =>
    rw [firstMatch?, head?_ways_fenced, ih, splitAtMark]
    by_cases here : opening.isPrefixOf (c :: rest) = true
    · rw [if_pos here, if_pos here, Option.bind_some]
      cases closed : splitAtMark fence (((c :: rest).drop opening.length).dropWhile isBlank) with
      | some parts => rfl
      | none =>
        have opened := List.prefix_iff_eq_append.1 (List.isPrefixOf_iff_prefix.1 here)
        rw [no_later_block opened.symm closed]
        rfl
    · rw [if_neg here, if_neg here, Option.bind_map]
      rfl

end Matches

section Captures

theorem captures_blocksFrom (opening : List Char) (fuel : Nat) (text : List Char) (enough : text.length ≤ fuel) :
    Captures (fenced opening) text (blocksFrom opening fuel text) := by
  have first := firstMatch?_fenced opening text
  induction fuel generalizing text with
  | zero =>
    refine .done (first.trans ?_)
    cases found : firstBlock opening text with
    | none => rfl
    | some parts =>
      have shorter := firstBlock_shorter found
      omega
  | succ fuel ih =>
    rw [blocksFrom]
    cases found : firstBlock opening text with
    | none =>
      rw [found] at first
      exact .done first
    | some parts =>
      obtain ⟨block, rest⟩ := parts
      rw [found] at first
      have shorter := firstBlock_shorter found
      exact .next first (ih rest (by omega) (firstMatch?_fenced opening rest))

-- For every text and every opening mark: the blocks are what the pattern captures.
theorem captures_blocks (opening text : List Char) : Captures (fenced opening) text (blocks opening text) :=
  captures_blocksFrom opening text.length text (Nat.le_refl _)

end Captures

end NodeFlow.Text
