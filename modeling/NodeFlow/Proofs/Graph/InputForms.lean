import NodeFlow.Proofs.Graph.Built

namespace NodeFlow

open Json (Style)
open Json.Read (depthLimit)

namespace Json

theorem forall₂_of_sameItems : {items others : List Json} → sameItems items others = true →
    List.Forall₂ (fun a b => a.same b = true) items others
  | [], [], _ => .nil
  | [], _ :: _, equal | _ :: _, [], equal => by cases equal
  | a :: items, b :: others, equal => by
    simp only [sameItems, Bool.and_eq_true] at equal
    exact .cons equal.1 (forall₂_of_sameItems equal.2)

section Equal

variable {a b : Json} (equal : a.same b = true)

include equal

theorem word?_of_same : a.word? = b.word? := by
  cases a with
  | number n =>
    cases b with
    | number m => cases n <;> cases m <;> simp_all [same, Number.same, word?, number?, Number.word?]
    | _ => cases equal
  | _ => cases b <;> first | rfl | cases equal

theorem idText?_of_same : InputValue.idText? a = InputValue.idText? b := by
  cases a with
  | string text =>
    cases b with
    | string other => rw [beq_iff_eq.1 equal]
    | _ => cases equal
  | number n =>
    cases b with
    | number m =>
      have words : n.word? = m.word? := word?_of_same equal
      simp only [InputValue.idText?, words]
    | _ => cases equal
  | _ => cases b <;> first | rfl | cases equal

theorem linkShape?_of_same : InputValue.linkShape? a = InputValue.linkShape? b := by
  cases a with
  | array items =>
    cases b with
    | array others =>
      -- Equal lists are of one length, and only lists of two are looked into.
      obtain _ | ⟨source, _ | ⟨slot, _ | _⟩⟩ := forall₂_of_sameItems (show sameItems items others = true from equal)
      · rfl
      · rfl
      · simp only [InputValue.linkShape?, idText?_of_same source, word?_of_same slot]
      · rfl
    | _ => cases equal
  | _ => cases b <;> first | rfl | cases equal

end Equal

end Json

namespace InputValue

theorem ofJson_eq_linked_iff (value : Json) (link : Link) : ofJson value = .linked link ↔ value.Denotes link := by
  refine ⟨fun taken => ?_, ofJson_of_denotes⟩
  obtain ⟨other, denotes, same⟩ | ⟨_, same⟩ := ofJson_cases value
  · cases same.symm.trans taken
    exact denotes
  · cases same.symm.trans taken

theorem ofJson_eq_literal_iff (value literal : Json) :
    ofJson value = .literal literal ↔ literal = value ∧ ¬ value.LinkShaped := by
  constructor
  · intro taken
    obtain ⟨_, _, same⟩ | ⟨plain, same⟩ := ofJson_cases value
    · cases same.symm.trans taken
    · cases same.symm.trans taken
      exact ⟨rfl, plain⟩
  · rintro ⟨rfl, plain⟩
    exact (normal_literal_iff literal).2 plain

-- Values that are taken as one input are one value, or spellings of one link.
theorem ofJson_eq_iff (value other : Json) :
    ofJson value = ofJson other ↔ value = other ∨ ∃ link, value.Denotes link ∧ other.Denotes link := by
  constructor
  · intro taken
    obtain ⟨link, denotes, same⟩ | ⟨_, same⟩ := ofJson_cases other
    · exact .inr ⟨link, (ofJson_eq_linked_iff value link).1 (taken.trans same), denotes⟩
    · exact .inl ((ofJson_eq_literal_iff value other).1 (taken.trans same)).1.symm
  · rintro (rfl | ⟨link, one, two⟩)
    · rfl
    · rw [ofJson_of_denotes one, ofJson_of_denotes two]

theorem same_ofJson_iff (value other : Json) :
    (ofJson value).same (ofJson other) = true ↔
      value.same other = true ∨ ∃ link, value.Denotes link ∧ other.Denotes link := by
  constructor
  · intro equal
    obtain ⟨link, one, same⟩ | ⟨_, same⟩ := ofJson_cases value
    · obtain ⟨second, two, alike⟩ | ⟨_, alike⟩ := ofJson_cases other
      · rw [same, alike] at equal
        exact .inr ⟨link, one, beq_iff_eq.1 equal ▸ two⟩
      · rw [same, alike] at equal
        cases equal
    · obtain ⟨_, _, alike⟩ | ⟨_, alike⟩ := ofJson_cases other
      · rw [same, alike] at equal
        cases equal
      · rw [same, alike] at equal
        exact .inl equal
  · rintro (equal | ⟨link, one, two⟩)
    · unfold ofJson
      rw [Json.linkShape?_of_same equal]
      cases linkShape? other with
      | some link => exact (InputValue.linked link).same_refl
      | none => exact equal
    · rw [ofJson_of_denotes one, ofJson_of_denotes two]
      exact same_refl _

end InputValue

namespace Json

variable {value : Json} {link : Link}

theorem Denotes.stored (denotes : value.Denotes link) : value.Stored depthLimit := by
  obtain ⟨source, rfl, names⟩ := denotes
  generalize link.source = id at names
  cases names <;> exact ⟨by simp [Canonical, CanonicalItems], by simp [depth, depthOfItems, depthLimit]⟩

theorem Denotes.readsBack (denotes : value.Denotes link) : ∀ n ∈ value.numbers, n.ReadsBack := by
  obtain ⟨source, rfl, names⟩ := denotes
  refine Graph.numbers_readBack fun x member => ?_
  generalize link.source = id at names
  cases names <;> simp [numbers, numbersOfItems, Number.ofWord] at member

end Json

namespace InputValue

theorem denotes_toJson (link : Link) : (InputValue.linked link).toJson.Denotes link :=
  ⟨_, rfl, .text link.source⟩

def text (style : Style) (input : InputValue) : String := String.ofList (input.toJson.render style 0)

def ofText? (text : String) : Option InputValue := (Json.read? text).map ofJson

section Texts

variable {style : Style} (blank : style.Blank) {value : Json}

include blank

theorem ofText?_of_stored (stored : value.Stored depthLimit) (readBack : ∀ n ∈ value.numbers, n.ReadsBack) :
    ofText? ((ofJson value).text style) = some (ofJson value) := by
  obtain ⟨link, _, same⟩ | ⟨_, same⟩ := ofJson_cases value
  · have written := denotes_toJson link
    rw [same, text, ofText?, Json.read?_render blank written.stored written.readsBack]
    exact congrArg some (ofJson_of_denotes written)
  · rw [same, text, ofText?, toJson, Json.read?_render blank stored readBack]
    exact congrArg some same

theorem stored_of_ofText? {again : InputValue} (read : ofText? ((ofJson value).text style) = some again)
    (equal : again.same (ofJson value) = true) : value.Stored depthLimit ∧ ∀ n ∈ value.numbers, n.ReadsBack := by
  obtain ⟨link, denotes, _⟩ | ⟨_, same⟩ := ofJson_cases value
  · exact ⟨denotes.stored, denotes.readsBack⟩
  · obtain ⟨made, done, rfl⟩ := Option.map_eq_some_iff.1 read
    rw [same] at done equal
    exact Json.stored_of_read?_render blank done (Graph.Document.same_of_ofJson equal)

end Texts

-- Taking a value loses the spelling of an id, and writing an input as a value loses nothing. In a text nesting is
-- limited, and a float need not be read as it is printed.
theorem ofJson_exact (value : Json) :
    ((∃ link, ofJson value = .linked link) ↔ value.LinkShaped) ∧
    (∀ link, ofJson value = .linked link ↔ value.Denotes link) ∧
    (∀ literal, ofJson value = .literal literal ↔ literal = value ∧ ¬ value.LinkShaped) ∧
    ofJson (ofJson value).toJson = ofJson value ∧
    (∀ style : Style, style.Blank →
      ((∃ again, ofText? ((ofJson value).text style) = some again ∧ again.same (ofJson value) = true) ↔
        value.Stored depthLimit ∧ ∀ n ∈ value.numbers, n.ReadsBack) ∧
      ∀ again, ofText? ((ofJson value).text style) = some again → again.same (ofJson value) = true →
        again = ofJson value) ∧
    (∀ input : InputValue, input.normalized.normalized = input.normalized) ∧
    ∀ other, (ofJson value = ofJson other ↔ value = other ∨ ∃ link, value.Denotes link ∧ other.Denotes link) ∧
      ((ofJson value).same (ofJson other) = true ↔
        value.same other = true ∨ ∃ link, value.Denotes link ∧ other.Denotes link) := by
  refine ⟨?_, ofJson_eq_linked_iff value, ofJson_eq_literal_iff value, ofJson_toJson_ofJson value, ?_,
    normalized_normalized, fun other => ⟨ofJson_eq_iff value other, same_ofJson_iff value other⟩⟩
  · rw [← Json.denotes_iff_linkShaped]
    exact exists_congr (ofJson_eq_linked_iff value)
  · intro style blank
    refine ⟨⟨?_, ?_⟩, ?_⟩
    · rintro ⟨again, read, equal⟩
      exact stored_of_ofText? blank read equal
    · rintro ⟨stored, readBack⟩
      exact ⟨_, ofText?_of_stored blank stored readBack, same_refl _⟩
    · intro again read equal
      obtain ⟨stored, readBack⟩ := stored_of_ofText? blank read equal
      exact Option.some.inj (read.symm.trans (ofText?_of_stored blank stored readBack))

theorem faint_changed : Json.read? "1e-30" = some (.number Graph.faint) ∧
    ∃ again, ofText? ((ofJson (.number Graph.faint)).text .compact) = some again ∧
      again.same (ofJson (.number Graph.faint)) = false := by
  refine ⟨Graph.read?_faint, ?_⟩
  have other : ((Json.read? ((ofJson (.number Graph.faint)).text .compact)).bind Json.number?).map
      (fun n => n.same Graph.faint) = some false := by decide +kernel
  obtain ⟨n, read, different⟩ := Option.map_eq_some_iff.1 other
  obtain ⟨made, done, number⟩ := Option.bind_eq_some_iff.1 read
  cases made with
  | number n =>
    cases number
    exact ⟨_, congrArg (Option.map ofJson) done, different⟩
  | _ => cases number

example : ofJson (.array [.number (.ofWord 4), .number (.ofWord 0)]) = .linked ⟨"4", 0⟩ ∧
    ofJson (.array [.string "4", .number (.ofWord 0)]) = .linked ⟨"4", 0⟩ ∧
    ofJson (.array [.string "4", .number (.integer (-1) (by decide))]) =
      .literal (.array [.string "4", .number (.integer (-1) (by decide))]) :=
  ⟨rfl, rfl, rfl⟩

end InputValue

end NodeFlow
