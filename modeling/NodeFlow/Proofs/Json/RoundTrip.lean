import NodeFlow.Proofs.Json.Numerals
import NodeFlow.Proofs.Json.Stored

namespace NodeFlow.Json

open Scan Read

mutual
def numbers : Json → List Number
  | .number value => [value]
  | .array items => numbersOfItems items
  | .object members => numbersOfMembers members
  | _ => []

def numbersOfItems : List Json → List Number
  | [] => []
  | item :: rest => item.numbers ++ numbersOfItems rest

def numbersOfMembers : List (String × Json) → List Number
  | [] => []
  | (_, value) :: rest => value.numbers ++ numbersOfMembers rest
end

-- A style puts nothing but white space between tokens.
structure Style.Blank (style : Style) : Prop where
  space : ∀ c ∈ style.space, isBlank c = true
  newline : ∀ level, ∀ c ∈ style.newline level, isBlank c = true

theorem Style.compact_blank : Style.compact.Blank :=
  ⟨by simp [Style.compact], by simp [Style.compact]⟩

theorem Style.indented_blank : Style.indented.Blank := by
  refine ⟨by simp [Style.indented, isBlank], ?_⟩
  intro level c member
  simp only [Style.indented, List.mem_cons, List.mem_replicate] at member
  rcases member with rfl | ⟨_, rfl⟩ <;> decide

-- The reader makes the value of the text, whatever follows that is no more of a numeral.
def Reads {α : Type} (reader : Reader α) (text : List Char) (made : α) : Prop :=
  ∀ rest, Stops rest → reader (text ++ rest) = .ok (made, rest)

theorem value_skipBlank (budget : Nat) {gap : List Char} (blank : ∀ c ∈ gap, isBlank c = true)
    (text : List Char) : value budget (gap ++ text) = value budget text := by
  unfold value
  rw [skipBlank_append blank]

variable {style : Style}

theorem render_head (style : Style) (level : Nat) (value : Json) :
    ∃ c tail, value.render style level = c :: tail ∧ isBlank c = false ∧ c ≠ ']' ∧ c ≠ '}' := by
  cases value with
  | null => exact ⟨_, _, by simp only [render]; rfl, by decide, by decide, by decide⟩
  | bool value => cases value <;> exact ⟨_, _, by simp only [render]; rfl, by decide, by decide, by decide⟩
  | string text => exact ⟨_, _, by simp only [render]; rfl, by decide, by decide, by decide⟩
  | array items =>
    cases items <;> exact ⟨_, _, by simp only [render]; rfl, by decide, by decide, by decide⟩
  | object members =>
    cases members <;> exact ⟨_, _, by simp only [render]; rfl, by decide, by decide, by decide⟩
  | number n =>
    obtain ⟨_, read⟩ := n.render_numeral .endInValue
    obtain ⟨c, tail, text, head⟩ := numeral_head read
    refine ⟨c, tail, by simpa only [render] using text, ?_⟩
    rcases head with rfl | digit
    · decide
    · refine ⟨?_, ?_, ?_⟩
      · rw [Bool.eq_false_iff]
        intro blank
        rcases (isBlank_iff c).1 blank with rfl | rfl | rfl | rfl <;> exact absurd digit (by decide)
      · rintro rfl; exact absurd digit (by decide)
      · rintro rfl; exact absurd digit (by decide)

theorem skipBlank_render (style : Style) (level : Nat) (value : Json) (gap : List Char)
    (blank : ∀ c ∈ gap, isBlank c = true) (rest : List Char) :
    ∃ c tail, skipBlank (gap ++ (value.render style level ++ rest)) = c :: tail ∧ c ≠ ']' ∧ c ≠ '}' ∧
      c :: tail = value.render style level ++ rest := by
  obtain ⟨c, tail, text, visible, notList, notObject⟩ := render_head style level value
  refine ⟨c, tail ++ rest, ?_, notList, notObject, by rw [text, List.cons_append]⟩
  rw [skipBlank_append blank, text, List.cons_append, skipBlank_cons _ visible]

section Lists

variable {α : Type} {item : Reader α} {made : Json → α} {level : Nat}

theorem stops_renderItems (style : Style) (level : Nat) (items : List Json) {rest : List Char} (stops : Stops rest) :
    Stops (renderItems style level items ++ rest) := by
  cases items with
  | nil => simpa only [renderItems, List.nil_append] using stops
  | cons item others => simp only [renderItems, List.cons_append]; exact stops_cons _ (by decide)

theorem length_le_renderItems (style : Style) (level : Nat) (items : List Json) :
    items.length ≤ (renderItems style level items).length := by
  induction items with
  | nil => simp
  | cons item others ih => simp only [renderItems, List.length_cons, List.length_append]; omega

theorem stops_closing {gap : List Char} (blank : ∀ c ∈ gap, isBlank c = true) {bracket : Char}
    (closing : bracket = ']' ∨ bracket = '}') (rest : List Char) : Stops (gap ++ bracket :: rest) := by
  apply stops_append blank
  apply stops_cons
  rcases closing with rfl | rfl <;> decide

theorem moreItems_reads (item : Reader α) (made : Json → α) (blank : style.Blank) (items : List Json)
    (each : ∀ value ∈ items, Reads item (value.render style level) (made value))
    {gap : List Char} (blankGap : ∀ c ∈ gap, isBlank c = true) (bound rest : List Char)
    (enough : items.length < bound.length) :
    moreItems item bound (renderItems style level items ++ (gap ++ ']' :: rest)) =
      .ok (items.map made, rest) := by
  induction items generalizing bound with
  | nil =>
    rcases bound with _ | ⟨mark, bound⟩
    · cases enough
    · have closing := skipBlank_cons (c := ']') rest (by decide)
      simp [moreItems, renderItems, skipBlank_append blankGap, closing]
  | cons value others ih =>
    rcases bound with _ | ⟨mark, bound⟩
    · cases enough
    · have comma := fun tail => skipBlank_cons (c := ',') tail (by decide)
      obtain ⟨c, tail, skipped, open_, _, same⟩ := skipBlank_render style level value _ (blank.newline level)
        (renderItems style level others ++ (gap ++ ']' :: rest))
      have one := each value List.mem_cons_self _
        (stops_renderItems style level others (stops_closing blankGap (.inl rfl) rest))
      have more := ih (fun value member => each value (List.mem_cons_of_mem _ member)) bound
        (Nat.lt_of_succ_lt_succ enough)
      rw [← same] at one
      simp only [renderItems, List.cons_append, List.append_assoc, moreItems, comma, skipped]
      simp [open_, one, more, bind, Except.bind]

theorem items_reads (blank : style.Blank) (first : Json) (others : List Json)
    (each : ∀ value ∈ first :: others, Reads item (value.render style level) (made value))
    {opening closing : List Char} (blankOpening : ∀ c ∈ opening, isBlank c = true)
    (blankClosing : ∀ c ∈ closing, isBlank c = true) (rest : List Char) :
    items item (opening ++ (first.render style level ++ (renderItems style level others ++
      (closing ++ ']' :: rest)))) = .ok ((first :: others).map made, rest) := by
  obtain ⟨c, tail, skipped, open_, _, same⟩ := skipBlank_render style level first _ blankOpening
    (renderItems style level others ++ (closing ++ ']' :: rest))
  have one := each first List.mem_cons_self _
    (stops_renderItems style level others (stops_closing blankClosing (.inl rfl) rest))
  have enough := length_le_renderItems style level others
  have more := moreItems_reads item made blank others
    (fun value member => each value (List.mem_cons_of_mem _ member)) blankClosing (renderItems style level others ++ (closing ++ ']' :: rest)) rest
    (by simp only [List.length_append, List.length_cons]; omega)
  rw [← same] at one
  simp only [items, skipped]
  simp [open_, one, more, bind, Except.bind]

end Lists

section Objects

variable {σ : Type} {level : Nat}

inductive Gathers (style : Style) (level : Nat) (field : FieldReader σ) : σ → List (String × Json) → σ → Prop
  | nil (state : σ) : Gathers style level field state [] state
  | cons {state next final : σ} {name : String} {value : Json} {members : List (String × Json)} :
    Reads (field state name) (':' :: (style.space ++ value.render style level)) next →
    Gathers style level field next members final →
    Gathers style level field state ((name, value) :: members) final

variable {field : FieldReader σ}

theorem Gathers.append {state middle final : σ} {first second : List (String × Json)}
    (one : Gathers style level field state first middle) (two : Gathers style level field middle second final) :
    Gathers style level field state (first ++ second) final := by
  induction one with
  | nil state => exact two
  | cons reads _ ih => exact .cons reads (ih two)

theorem stops_renderMembers (style : Style) (level : Nat) (members : List (String × Json)) {rest : List Char} (stops : Stops rest) :
    Stops (renderMembers style level members ++ rest) := by
  cases members with
  | nil => simpa only [renderMembers, List.nil_append] using stops
  | cons member others => simp only [renderMembers, List.cons_append]; exact stops_cons _ (by decide)

theorem length_le_renderMembers (style : Style) (level : Nat) (members : List (String × Json)) :
    members.length ≤ (renderMembers style level members).length := by
  induction members with
  | nil => simp
  | cons member others ih => simp only [renderMembers, List.length_cons, List.length_append]; omega

theorem moreMembers_reads (blank : style.Blank) {state final : σ} {members : List (String × Json)}
    (gathers : Gathers style level field state members final)
    {gap : List Char} (blankGap : ∀ c ∈ gap, isBlank c = true) (bound rest : List Char)
    (enough : members.length < bound.length) :
    moreMembers field bound state (renderMembers style level members ++ (gap ++ '}' :: rest)) =
      .ok (final, rest) := by
  induction gathers generalizing bound with
  | nil state =>
    rcases bound with _ | ⟨mark, bound⟩
    · cases enough
    · have closing := skipBlank_cons (c := '}') rest (by decide)
      simp [moreMembers, renderMembers, skipBlank_append blankGap, closing]
  | @cons state next final name value members reads _ ih =>
    rcases bound with _ | ⟨mark, bound⟩
    · cases enough
    · have comma := fun tail => skipBlank_cons (c := ',') tail (by decide)
      have mark := fun tail => skipBlank_cons (c := '"') tail (by decide)
      have one := reads _
        (stops_renderMembers style level members (stops_closing blankGap (.inr rfl) rest))
      have more := ih bound (Nat.lt_of_succ_lt_succ enough)
      simp only [List.cons_append, List.append_assoc] at one
      simp only [renderMembers, quote, List.cons_append, List.append_assoc, List.nil_append, moreMembers, comma,
        skipBlank_append (blank.newline level), mark]
      simp [stringBody_quoted, one, more, bind, Except.bind]

theorem object_reads (blank : style.Blank) {state final : σ} {members : List (String × Json)}
    (gathers : Gathers style (level + 1) field state members final) :
    ∃ body, (Json.object members).render style level = '{' :: body ∧
      ∀ rest, Read.members field state (body ++ rest) = .ok (final, rest) := by
  cases gathers with
  | nil state =>
    refine ⟨['}'], by simp only [render], ?_⟩
    intro rest
    have closing := skipBlank_cons (c := '}') rest (by decide)
    simp [Read.members, closing]
  | @cons _ next _ name value members reads others =>
    refine ⟨_, by simp only [render, List.cons_append]; rfl, ?_⟩
    intro rest
    have mark := fun tail => skipBlank_cons (c := '"') tail (by decide)
    have one := reads _ (stops_renderMembers style (level + 1) members
      (stops_closing (blank.newline level) (.inr rfl) rest))
    have enough := length_le_renderMembers style (level + 1) members
    have more := moreMembers_reads blank others (blank.newline level)
      (renderMembers style (level + 1) members ++ (style.newline level ++ '}' :: rest)) rest
      (by simp only [List.length_append, List.length_cons]; omega)
    simp only [List.cons_append, List.append_assoc] at one
    simp only [quote, List.cons_append, List.append_assoc, List.nil_append, Read.members,
      skipBlank_append (blank.newline (level + 1)), mark]
    simp [stringBody_quoted, one, more, bind, Except.bind]

theorem keptField_reads (blank : style.Blank) {budget : Nat} (keep : σ → String → Json → σ) (state : σ)
    (name : String) {written made : Json} (reads : Reads (value budget) (written.render style level) made) :
    Reads (keptField (value budget) keep state name) (':' :: (style.space ++ written.render style level))
      (keep state name made) := by
  intro rest stops
  have one := reads rest stops
  simp [keptField, colon_cons, bind, Except.bind, value_skipBlank budget blank.space, one]

end Objects

section Values

theorem sortedItems_eq_map (items : List Json) : sortedItems items = items.map sorted := by
  induction items with
  | nil => rfl
  | cons item rest ih => simp [sortedItems, ih]

theorem mem_numbersOfItems (items : List Json) (n : Number) :
    n ∈ numbersOfItems items ↔ ∃ item ∈ items, n ∈ item.numbers := by
  induction items with
  | nil => simp [numbersOfItems]
  | cons item rest ih => simp [numbersOfItems, ih]

theorem mem_numbersOfMembers (members : List (String × Json)) (n : Number) :
    n ∈ numbersOfMembers members ↔ ∃ member ∈ members, n ∈ member.2.numbers := by
  induction members with
  | nil => simp [numbersOfMembers]
  | cons member rest ih => obtain ⟨name, value⟩ := member; simp [numbersOfMembers, ih]

theorem numbersOfMembers_append (first second : List (String × Json)) :
    numbersOfMembers (first ++ second) = numbersOfMembers first ++ numbersOfMembers second := by
  induction first with
  | nil => rfl
  | cons member rest ih => obtain ⟨name, value⟩ := member; simp [numbersOfMembers, ih]

theorem word_append (letters rest : List Char) : word letters (letters ++ rest) = .ok rest := by
  induction letters with
  | nil => rfl
  | cons letter letters ih => simp [word, ih]

theorem number_reads (budget level : Nat) (n : Number) (back : n.ReadsBack) :
    Reads (value budget) ((Json.number n).render style level) (.number n) := by
  intro rest stops
  obtain ⟨c, tail, skipped, _, _, same⟩ := skipBlank_render style level (.number n) [] (by simp) rest
  obtain ⟨lead, digits, text, head⟩ := number_head back
  have one := number_append stops back
  simp only [render] at same skipped ⊢
  rw [← same] at one
  rw [List.nil_append] at skipped
  rw [text, List.cons_append] at same
  obtain ⟨rfl, rfl⟩ := List.cons.inj same
  have notWord : c ≠ 'n' ∧ c ≠ 't' ∧ c ≠ 'f' := by
    refine ⟨?_, ?_, ?_⟩ <;> rintro rfl <;> exact absurd head (by decide)
  unfold value
  rw [skipped]
  simp [notWord, head, one, bind, Except.bind]

-- Values without brackets need no budget.
theorem scalar_reads (budget level : Nat) (written : Json) (flat : written.depth = 0)
    (readBack : ∀ n ∈ written.numbers, n.ReadsBack) :
    Reads (value budget) (written.render style level) written.sorted := by
  intro rest stops
  cases written with
  | number n => exact number_reads budget level n (readBack n (by simp [numbers])) rest stops
  | null =>
    have skipped := skipBlank_cons (c := 'n') ('u' :: 'l' :: 'l' :: rest) (by decide)
    have read := word_append ['u', 'l', 'l'] rest
    simp only [List.cons_append, List.nil_append] at read
    simp [render, value, skipped, read, bind, Except.bind, sorted]
  | bool truth =>
    cases truth with
    | true =>
      have skipped := skipBlank_cons (c := 't') ('r' :: 'u' :: 'e' :: rest) (by decide)
      have read := word_append ['r', 'u', 'e'] rest
      simp only [List.cons_append, List.nil_append] at read
      simp [render, value, skipped, read, bind, Except.bind, sorted]
    | false =>
      have skipped := skipBlank_cons (c := 'f') ('a' :: 'l' :: 's' :: 'e' :: rest) (by decide)
      have read := word_append ['a', 'l', 's', 'e'] rest
      simp only [List.cons_append, List.nil_append] at read
      simp [render, value, skipped, read, bind, Except.bind, sorted]
  | string text =>
    have mark := fun tail => skipBlank_cons (c := '"') tail (by decide)
    have read := stringBody_quoted text rest
    simp [render, quote, value, mark, read, bind, Except.bind, sorted]
  | array items => simp [depth] at flat
  | object members => simp [depth] at flat

theorem members_gather (blank : style.Blank) {budget level : Nat} (members done : List (String × Json))
    (each : ∀ member ∈ members, Reads (value budget) (member.2.render style level) member.2.sorted) :
    Gathers style level (keptField (value budget) fun done name read => insertMember name read done) done
      members (sortMembers done members) := by
  induction members generalizing done with
  | nil => exact .nil done
  | cons member others ih =>
    obtain ⟨name, first⟩ := member
    exact .cons (keptField_reads blank _ done name (each (name, first) List.mem_cons_self))
      (ih _ fun member later => each member (List.mem_cons_of_mem _ later))

-- Along the budget, as the reader itself goes.
theorem value_reads (blank : style.Blank) (budget level : Nat) (written : Json)
    (shallow : written.depth ≤ budget) (readBack : ∀ n ∈ written.numbers, n.ReadsBack) :
    Reads (value budget) (written.render style level) written.sorted := by
  induction budget generalizing level written with
  | zero => exact scalar_reads 0 level written (Nat.le_zero.1 shallow) readBack
  | succ budget ih =>
    cases written with
    | array items =>
      have back : ∀ item ∈ items, ∀ n ∈ item.numbers, n.ReadsBack := fun item member n found =>
        readBack n (by simp only [numbers]; exact (mem_numbersOfItems _ n).2 ⟨item, member, found⟩)
      have each : ∀ item ∈ items, Reads (value budget) (item.render style (level + 1)) item.sorted := by
        intro item member
        have deep := (depthOfItems_le_iff items budget).1 (Nat.le_of_succ_le_succ shallow) item member
        exact ih (level + 1) item deep (back item member)
      intro rest _
      have opening := fun tail => skipBlank_cons (c := '[') tail (by decide)
      cases items with
      | nil =>
        have closing := skipBlank_cons (c := ']') rest (by decide)
        simp [render, value, opening, Read.items, closing, bind, Except.bind, sorted, sortedItems]
      | cons first others =>
        have read := items_reads blank first others each (blank.newline (level + 1)) (blank.newline level) rest
        simp only [render, List.cons_append, List.append_assoc, List.nil_append]
        unfold value
        simp [opening, read, bind, Except.bind, sorted, sortedItems_eq_map]
    | object members =>
      have each : ∀ member ∈ members, Reads (value budget) (member.2.render style (level + 1)) member.2.sorted := by
        intro member found
        have deep := (depthOfMembers_le_iff members budget).1 (Nat.le_of_succ_le_succ shallow) member found
        refine ih (level + 1) member.2 deep fun n inside => readBack n ?_
        simp only [numbers]
        exact (mem_numbersOfMembers _ n).2 ⟨member, found, inside⟩
      intro rest _
      obtain ⟨body, text, read⟩ := object_reads blank (members_gather blank members [] each)
      have opening := fun tail => skipBlank_cons (c := '{') tail (by decide)
      rw [text, List.cons_append]
      unfold value
      simp [opening, read, bind, Except.bind, sorted]
    | _ => exact scalar_reads _ level _ rfl readBack

theorem whole_of_reads {α : Type} {reader : Reader α} {text : List Char} {made : α} (reads : Reads reader text made) :
    whole reader text = .ok made := by
  have read := reads [] stops_nil
  rw [List.append_nil] at read
  simp [whole, read, bind, Except.bind, skipBlank]

theorem read?_of_reads {text : List Char} {made : Json} (reads : Reads (value depthLimit) text made) :
    read? (String.ofList text) = some made := by
  rw [read?, read, String.toList_ofList, whole_of_reads reads]
  rfl

theorem read?_render (blank : style.Blank) {written : Json} (stored : written.Stored depthLimit)
    (readBack : ∀ n ∈ written.numbers, n.ReadsBack) :
    read? (String.ofList (written.render style 0)) = some written := by
  have reads := value_reads blank depthLimit 0 written stored.depth_le readBack
  rw [sorted_of_canonical written stored.canonical] at reads
  exact read?_of_reads reads

end Values

end NodeFlow.Json
