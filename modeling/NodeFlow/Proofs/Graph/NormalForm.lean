import NodeFlow.Proofs.Graph.Edits
import NodeFlow.Proofs.Graph.Loaded

namespace NodeFlow

namespace Json

def NonNegative (value : Json) : Prop := ∃ n fits, value = .number (.integer n fits) ∧ 0 ≤ n

-- A list of a node id, which is a text or a number, and the number of a slot.
def LinkShaped (value : Json) : Prop :=
  ∃ source slot, value = .array [source, slot] ∧
    ((∃ text, source = .string text) ∨ source.NonNegative) ∧ slot.NonNegative

inductive Names : Json → String → Prop
  | text (id : String) : Names (.string id) id
  | number (id : UInt64) : Names (.number (.ofWord id)) (toString id.toNat)

def Denotes (value : Json) (link : Link) : Prop :=
  ∃ source, value = .array [source, .number (.ofWord link.slot)] ∧ source.Names link.source

theorem word?_isSome_iff (value : Json) : value.word?.isSome = true ↔ value.NonNegative := by
  constructor
  · intro word
    cases value with
    | number n =>
      cases n with
      | integer n fits =>
        by_cases sign : 0 ≤ n
        · exact ⟨n, fits, rfl, sign⟩
        · simp [word?, number?, Number.word?, sign] at word
      | float x => simp [word?, number?, Number.word?] at word
    | _ => simp [word?, number?] at word
  · intro shape
    obtain ⟨n, fits, rfl, sign⟩ := shape
    simp [word?, number?, Number.word?, sign]

theorem nonNegative_iff (value : Json) : value.NonNegative ↔ ∃ word, value = .number (.ofWord word) := by
  constructor
  · rintro ⟨n, fits, rfl, sign⟩
    obtain ⟨n, rfl⟩ := Int.eq_ofNat_of_zero_le sign
    have small : n % UInt64.size = n := Nat.mod_eq_of_lt (by rw [UInt64.size]; omega)
    have same : (UInt64.ofNat n).toNat = n := small
    exact ⟨UInt64.ofNat n, by simp only [Number.ofWord, same]⟩
  · rintro ⟨word, rfl⟩
    exact ⟨word.toNat, _, rfl, by omega⟩

theorem word?_eq_some_iff (value : Json) (word : UInt64) :
    value.word? = some word ↔ value = .number (.ofWord word) := by
  constructor
  · intro found
    obtain ⟨other, rfl⟩ := (nonNegative_iff value).1 ((word?_isSome_iff value).1 (by rw [found]; rfl))
    have read : some other = some word := (Number.word?_ofWord other).symm.trans found
    cases read
    rfl
  · rintro rfl
    exact Number.word?_ofWord word

theorem denotes_iff_linkShaped (value : Json) : (∃ link, value.Denotes link) ↔ value.LinkShaped := by
  have counts : ∀ word, (Json.number (.ofWord word)).NonNegative := fun word => (nonNegative_iff _).2 ⟨word, rfl⟩
  constructor
  · rintro ⟨⟨id, slot⟩, source, rfl, names⟩
    refine ⟨source, _, rfl, ?_, counts slot⟩
    cases names with
    | text => exact .inl ⟨id, rfl⟩
    | number word => exact .inr (counts word)
  · rintro ⟨source, slot, rfl, isId, isSlot⟩
    obtain ⟨slot, rfl⟩ := (nonNegative_iff slot).1 isSlot
    rcases isId with ⟨text, rfl⟩ | isNumber
    · exact ⟨⟨text, slot⟩, _, rfl, .text text⟩
    · obtain ⟨word, rfl⟩ := (nonNegative_iff source).1 isNumber
      exact ⟨⟨_, slot⟩, _, rfl, .number word⟩

end Json

namespace InputValue

theorem idText?_eq_some_iff (source : Json) (id : String) : idText? source = some id ↔ source.Names id := by
  constructor
  · intro named
    cases source with
    | string text => cases named; exact .text id
    | number n =>
      obtain ⟨word, read, rfl⟩ := Option.map_eq_some_iff.1 named
      rw [(Json.word?_eq_some_iff (.number n) word).1 read]
      exact .number word
    | _ => cases named
  · rintro (_ | word)
    · rfl
    · rw [idText?, Number.word?_ofWord]
      rfl

theorem linkShape?_eq_some_iff (value : Json) (link : Link) : linkShape? value = some link ↔ value.Denotes link := by
  constructor
  · intro shape
    unfold linkShape? at shape
    split at shape
    · rename_i source slot
      obtain ⟨id, named, shape⟩ := Option.bind_eq_some_iff.1 shape
      obtain ⟨word, counted, same⟩ := Option.bind_eq_some_iff.1 shape
      cases same
      exact ⟨source, by rw [(Json.word?_eq_some_iff slot word).1 counted], (idText?_eq_some_iff source id).1 named⟩
    · cases shape
  · rintro ⟨source, rfl, names⟩
    have counted := (Json.word?_eq_some_iff _ link.slot).2 rfl
    simp [linkShape?, (idText?_eq_some_iff source link.source).2 names, counted]

theorem linkShape?_isSome_iff (value : Json) : (linkShape? value).isSome = true ↔ value.LinkShaped := by
  rw [Option.isSome_iff_exists, ← Json.denotes_iff_linkShaped]
  exact exists_congr (linkShape?_eq_some_iff value)

theorem ofJson_of_denotes {value : Json} {link : Link} (denotes : value.Denotes link) :
    ofJson value = .linked link := by
  rw [ofJson, (linkShape?_eq_some_iff value link).2 denotes]

theorem normal_literal_iff (literal : Json) : (InputValue.literal literal).Normal ↔ ¬ literal.LinkShaped := by
  rw [← linkShape?_isSome_iff]
  unfold Normal normalized ofJson
  cases shape : linkShape? literal <;> simp [shape]

theorem ofJson_cases (value : Json) :
    (∃ link, value.Denotes link ∧ ofJson value = .linked link) ∨
      (¬ value.LinkShaped ∧ ofJson value = .literal value) := by
  by_cases shape : value.LinkShaped
  · obtain ⟨link, denotes⟩ := (Json.denotes_iff_linkShaped value).2 shape
    exact .inl ⟨link, denotes, ofJson_of_denotes denotes⟩
  · exact .inr ⟨shape, (normal_literal_iff value).2 shape⟩

theorem normal_linked (link : Link) : (InputValue.linked link).Normal := rfl

theorem normal_normalized (value : InputValue) : value.normalized.Normal := normalized_normalized value

end InputValue

namespace Node

variable {node : Node}

theorem Tidy.setInput (tidy : node.Tidy) (name : String) {value : InputValue} (normal : value.Normal) :
    (node.setInput name value).Tidy := by
  refine ⟨?_, tidy.unreserved⟩
  intro other found look
  rw [input?_setInput] at look
  split at look
  · cases look; exact normal
  · exact tidy.normal other found look

theorem Tidy.dropLinksTo (tidy : node.Tidy) (id : String) : (node.dropLinksTo id).Tidy := by
  refine ⟨?_, tidy.unreserved⟩
  intro name value look
  rw [input?_dropLinksTo, Option.filter_eq_some_iff] at look
  exact tidy.normal name value look.1

theorem tidy_new (classField : Option String) (inputs : Inputs) (metadata : Option Metadata) :
    Tidy ⟨classField, some (inputs.map fun _ value => value.normalized), metadata, []⟩ := by
  refine ⟨?_, by simp⟩
  intro name value look
  simp only [Node.input?, Option.bind_some, Table.get?_map] at look
  obtain ⟨given, _, rfl⟩ := Option.map_eq_some_iff.1 look
  exact given.normal_normalized

end Node

namespace Graph

variable {graph : Graph}

theorem Tidy.empty : Graph.empty.Tidy := fun id node found => by cases found

theorem Tidy.apply (tidy : graph.Tidy) (edit : Edit) : (graph.apply edit).1.Tidy := by
  by_cases load : ∃ text, edit = .load text
  · obtain ⟨text, rfl⟩ := load
    unfold Graph.apply
    dsimp only
    split
    · rename_i read loaded
      exact (parse_loaded loaded).tidy
    · exact tidy
  · intro id node found
    cases graph.leaves_of_apply (fun text same => load ⟨text, same⟩) found with
    | kept held => exact tidy id _ held
    | dropped held => exact (tidy id _ held).dropLinksTo _
    | connected held => exact (tidy id _ held).setInput _ (InputValue.normal_linked _)
    | modified held => exact (tidy id _ held).setInput _ (InputValue.normal_normalized _)
    | added => exact Node.tidy_new _ _ _

-- The workflows that can come up: a new one or a loaded one, and what edits make of them.
inductive Reached : Graph → Prop
  | new : Reached .empty
  | loaded {text : String} {graph : Graph} : Graph.parse text = .ok graph → Reached graph
  | edited {graph : Graph} (edit : Edit) : Reached graph → Reached (graph.apply edit).1

theorem Reached.tidy (reached : Reached graph) : graph.Tidy := by
  induction reached with
  | new => exact Tidy.empty
  | loaded read => exact (parse_loaded read).tidy
  | edited edit _ ih => exact ih.apply edit

theorem reached_normal_form (reached : Reached graph) :
    ∀ id node, graph.node? id = some node →
      (∀ name value, node.input? name = some value → value.normalized = value ∧
        ∀ literal, value = .literal literal → ¬ literal.LinkShaped) ∧
      ∀ name value, (name, value) ∈ node.extra →
        name ≠ "class_type" ∧ name ≠ "inputs" ∧ name ≠ "_meta" := by
  intro id node found
  have tidy := reached.tidy id node found
  refine ⟨?_, ?_⟩
  · intro name value look
    have normal := tidy.normal name value look
    refine ⟨normal, ?_⟩
    intro literal same
    subst same
    exact (InputValue.normal_literal_iff literal).1 normal
  · intro name value member
    simpa [reservedNames] using tidy.unreserved (name, value) member

def rewired : Graph :=
  (((Graph.empty.apply (.add "Blur" .empty none)).1.apply
    (.modify "1" "image" (.literal (.array [.number (.ofWord 4), .number (.ofWord 0)])))).1.apply
    (.connect ⟨"9", 1⟩ "1" "mask")).1

theorem rewired_normal_form : ∃ node, Reached rewired ∧ rewired.node? "1" = some node ∧
    node.input? "image" = some (.linked ⟨"4", 0⟩) ∧ (InputValue.linked ⟨"4", 0⟩).normalized = .linked ⟨"4", 0⟩ := by
  have reached : Reached rewired := .edited _ (.edited _ (.edited _ .new))
  have holds := reached_normal_form reached "1"
  refine ⟨_, reached, rfl, rfl, ?_⟩
  exact ((holds _ rfl).1 "image" _ rfl).1

end Graph

end NodeFlow
