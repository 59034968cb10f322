import NodeFlow.Proofs.Json.Spellings
import NodeFlow.Proofs.Json.WrittenNumerals

namespace NodeFlow.Json

open Scan Read Skim

section Gaps

variable {gap text rest : List Char}

theorem Blank.isBlank (blank : Blank gap) : ∀ c ∈ gap, isBlank c = true :=
  fun c member => (isBlank_iff c).2 (blank c member)

theorem Blank.nil : Blank [] := by simp [Blank]

theorem Blank.append {first second : List Char} (one : Blank first) (two : Blank second) :
    Blank (first ++ second) := fun c member => (List.mem_append.1 member).elim (one c) (two c)

theorem skipBlank_blank (blank : Blank gap) (rest : List Char) : skipBlank (gap ++ rest) = skipBlank rest :=
  skipBlank_append blank.isBlank

theorem gap_of_skipBlank (skipped : skipBlank text = rest) : ∃ gap, Blank gap ∧ text = gap ++ rest := by
  refine ⟨text.takeWhile Scan.isBlank, ?_, ?_⟩
  · intro c member
    exact (isBlank_iff c).1 (List.all_eq_true.1 List.all_takeWhile c member)
  · rw [← skipped]
    exact List.takeWhile_append_dropWhile.symm

theorem length_skipBlank_le (text : List Char) : (skipBlank text).length ≤ text.length :=
  (List.dropWhile_sublist _).length_le

theorem skipBlank_skipBlank (text : List Char) : skipBlank (skipBlank text) = skipBlank text := by
  obtain ⟨gap, blank, same⟩ := gap_of_skipBlank (rfl : skipBlank text = skipBlank text)
  have once := congrArg skipBlank same
  rw [skipBlank_blank blank] at once
  exact once.symm

theorem skipBlank_mark {after : List Char} (trail : Blank after) {mark : Char} (visible : isBlank mark = false)
    (rest : List Char) : skipBlank (after ++ mark :: rest) = mark :: rest := by
  rw [skipBlank_blank trail, skipBlank_cons _ visible]

theorem gap_of_colon (done : colon text = .ok rest) : ∃ gap, Blank gap ∧ text = gap ++ ':' :: rest := by
  unfold colon at done
  split at done
  · cases done
  · rename_i c tail skipped
    obtain ⟨gap, blank, rfl⟩ := gap_of_skipBlank skipped
    split at done
    · rename_i same
      cases done
      exact ⟨gap, blank, by rw [same]⟩
    · cases done

theorem colon_of_skipBlank (skipped : skipBlank text = ':' :: rest) : colon text = .ok rest := by
  unfold colon
  rw [skipped]
  exact if_pos rfl

end Gaps

-- The first character of a value is no white space and closes no bracket.
structure Opens (c : Char) : Prop where
  visible : isBlank c = false
  notList : c ≠ ']'
  notObject : c ≠ '}'

theorem Opens.ne_closing {c : Char} (opens : Opens c) (frame : Frame) : c ≠ frame.closing := by
  cases frame with
  | list => exact opens.notList
  | object => exact opens.notObject

theorem opens_of_numeral {c : Char} (head : c = '-' ∨ c.isDigit = true) : Opens c := by
  rcases head with rfl | digit
  · exact ⟨rfl, by simp, by simp⟩
  · refine ⟨?_, ?_, ?_⟩
    · rw [Bool.eq_false_iff]
      intro blank
      rcases (isBlank_iff c).1 blank with rfl | rfl | rfl | rfl <;> cases digit
    · rintro rfl; cases digit
    · rintro rfl; cases digit

theorem WrittenNumeral.head {numeral : Numeral} {text : List Char} (written : WrittenNumeral numeral text) :
    ∃ c tail, text = c :: tail ∧ (c = '-' ∨ c.isDigit = true) := by
  obtain ⟨c, tail, same, head⟩ := numeral_head (numeral_of_written .endInValue written stops_nil)
  exact ⟨c, tail, (List.append_nil text).symm.trans same, head⟩

theorem ne_of_numeral {c d : Char} (head : c = '-' ∨ c.isDigit = true) (other : d ≠ '-' ∧ d.isDigit = false) :
    c ≠ d := by
  rintro rfl
  rcases head with same | digit
  · exact other.1 same
  · cases other.2.symm.trans digit

theorem value_head {tree : Tree} {text : List Char} (value : Derives (.value tree) text) :
    ∃ c tail, text = c :: tail ∧ Opens c := by
  cases value with
  | number written =>
    obtain ⟨c, tail, same, head⟩ := written.head
    exact ⟨c, tail, same, opens_of_numeral head⟩
  | null => exact ⟨_, _, rfl, rfl, by simp, by simp⟩
  | true => exact ⟨_, _, rfl, rfl, by simp, by simp⟩
  | false => exact ⟨_, _, rfl, rfl, by simp, by simp⟩
  | string _ => exact ⟨_, _, rfl, rfl, by simp, by simp⟩
  | emptyArray _ => exact ⟨_, _, rfl, rfl, by simp, by simp⟩
  | array _ => exact ⟨_, _, rfl, rfl, by simp, by simp⟩
  | emptyObject _ => exact ⟨_, _, rfl, rfl, by simp, by simp⟩
  | object _ => exact ⟨_, _, rfl, rfl, by simp, by simp⟩

theorem skipBlank_value {tree : Tree} {text : List Char} (value : Derives (.value tree) text) (rest : List Char) :
    skipBlank (text ++ rest) = text ++ rest := by
  obtain ⟨c, tail, rfl, opens⟩ := value_head value
  exact skipBlank_cons _ opens.visible

def Items : Frame → List Char → Prop
  | .list, text => ∃ trees, Derives (.elements trees) text
  | .object, text => ∃ entries, Derives (.members entries) text

def Lead : Frame → List Char → Prop
  | .list, lead => Blank lead
  | .object, lead => ∃ before name between, Blank before ∧ Spelling.Allowed name ∧ Blank between ∧
      lead = before ++ (name.quoted ++ (between ++ [':']))

inductive Remainder (frame : Frame) : List Char → Prop
  | closed {gap : List Char} (blank : Blank gap) : Remainder frame (gap ++ [frame.closing])
  | more {gap text : List Char} (blank : Blank gap) (items : Items frame text) :
      Remainder frame (gap ++ ',' :: (text ++ [frame.closing]))

def Skim.Frame.opening : Frame → Char
  | .list => '['
  | .object => '{'

section Items

variable {frame : Frame} {gap lead text more : List Char} {tree : Tree}

theorem Lead.blank_append (blank : Blank gap) (stands : Lead frame lead) : Lead frame (gap ++ lead) := by
  cases frame with
  | list => exact blank.append stands
  | object =>
    obtain ⟨before, name, between, first, allowed, second, rfl⟩ := stands
    exact ⟨gap ++ before, name, between, blank.append first, allowed, second, by simp⟩

theorem bracket_of_blank (frame : Frame) (blank : Blank gap) :
    ∃ tree, Derives (.value tree) (frame.opening :: (gap ++ [frame.closing])) := by
  cases frame with
  | list => exact ⟨_, .emptyArray blank⟩
  | object => exact ⟨_, .emptyObject blank⟩

theorem bracket_of_items (items : Items frame text) :
    ∃ tree, Derives (.value tree) (frame.opening :: (text ++ [frame.closing])) := by
  cases frame with
  | list =>
    obtain ⟨trees, items⟩ := items
    exact ⟨_, .array items⟩
  | object =>
    obtain ⟨entries, items⟩ := items
    exact ⟨_, .object items⟩

theorem items_of_item {after : List Char} (stands : Lead frame lead) (blank : Blank gap)
    (value : Derives (.value tree) text) (trail : Blank after) : Items frame (lead ++ (gap ++ (text ++ after))) := by
  cases frame with
  | list =>
    have element : Derives (.element tree) ((lead ++ gap) ++ (text ++ after)) :=
      .element (Blank.append stands blank) value trail
    exact ⟨_, by simpa using Derives.lastElement element⟩
  | object =>
    obtain ⟨before, name, between, first, allowed, second, rfl⟩ := stands
    have entry := Derives.lastMember (.member first allowed second (.element blank value trail))
    exact ⟨_, by simpa using entry⟩

theorem items_of_item_comma {after others : List Char} (stands : Lead frame lead) (blank : Blank gap)
    (value : Derives (.value tree) text) (trail : Blank after) (items : Items frame others) :
    Items frame (lead ++ (gap ++ (text ++ (after ++ ',' :: others)))) := by
  cases frame with
  | list =>
    obtain ⟨trees, items⟩ := items
    have element : Derives (.element tree) ((lead ++ gap) ++ (text ++ after)) :=
      .element (Blank.append stands blank) value trail
    exact ⟨_, by simpa using Derives.moreElements element items⟩
  | object =>
    obtain ⟨entries, items⟩ := items
    obtain ⟨before, name, between, first, allowed, second, rfl⟩ := stands
    have entry := Derives.moreMembers (.member first allowed second (.element blank value trail)) items
    exact ⟨_, by simpa using entry⟩

theorem items_of_remainder (stands : Lead frame lead) (blank : Blank gap) (value : Derives (.value tree) text)
    (left : Remainder frame more) :
    ∃ items, Items frame items ∧ lead ++ (gap ++ (text ++ more)) = items ++ [frame.closing] := by
  cases left with
  | closed trail => exact ⟨_, items_of_item stands blank value trail, by simp⟩
  | more trail others => exact ⟨_, items_of_item_comma stands blank value trail others, by simp⟩

theorem bracket_of_remainder (stands : Lead frame lead) (blank : Blank gap) (value : Derives (.value tree) text)
    (left : Remainder frame more) :
    ∃ tree, Derives (.value tree) (frame.opening :: (lead ++ (gap ++ (text ++ more)))) := by
  obtain ⟨items, made, same⟩ := items_of_remainder stands blank value left
  rw [same]
  exact bracket_of_items made

theorem remainder_of_comma {after : List Char} (trail : Blank after) (stands : Lead frame lead) (blank : Blank gap)
    (value : Derives (.value tree) text) (left : Remainder frame more) :
    Remainder frame (after ++ ',' :: (lead ++ (gap ++ (text ++ more)))) := by
  obtain ⟨items, made, same⟩ := items_of_remainder stands blank value left
  rw [same]
  exact .more trail made

end Items

end NodeFlow.Json
