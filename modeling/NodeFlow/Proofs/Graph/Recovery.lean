import NodeFlow.Graph.Recovery
import NodeFlow.Proofs.Json.Meaning
import NodeFlow.Proofs.Json.Names
import NodeFlow.Proofs.Text.Fence

namespace NodeFlow

open Json (walk? memberNames)

def Json.HoldsRecord (value : Json) : Prop :=
  ∃ members id fields name, value = .object members ∧ (id, .object fields) ∈ members ∧ ("class_type", name) ∈ fields

def Json.Tree.HoldsRecord (tree : Json.Tree) : Prop :=
  ∃ members id fields key name, tree = .object members ∧ (id, .object fields) ∈ members ∧ (key, name) ∈ fields ∧
    key.text? = some "class_type"

theorem Json.HoldsRecord.mem_memberNames {value : Json} (holds : value.HoldsRecord) :
    "class_type" ∈ value.memberNames := by
  obtain ⟨members, id, fields, name, rfl, record, field⟩ := holds
  refine (Json.mem_namesOfMembers members _).2 ⟨_, record, .inr ?_⟩
  exact (Json.mem_namesOfMembers fields _).2 ⟨_, field, .inl rfl⟩

namespace Graph

theorem looksLikeWorkflow_iff (value : Json) : looksLikeWorkflow value = true ↔ value.HoldsRecord := by
  constructor
  · intro looks
    unfold looksLikeWorkflow at looks
    split at looks
    · rename_i members
      obtain ⟨⟨id, member⟩, record, fielded⟩ := List.any_eq_true.1 looks
      dsimp only at fielded
      split at fielded
      · rename_i fields
        obtain ⟨⟨name, field⟩, present, same⟩ := List.any_eq_true.1 fielded
        exact ⟨members, id, fields, field, rfl, record, by rwa [← eq_of_beq same]⟩
      · cases fielded
    · cases looks
  · intro holds
    obtain ⟨members, id, fields, name, rfl, record, field⟩ := holds
    refine List.any_eq_true.2 ⟨_, record, ?_⟩
    exact List.any_eq_true.2 ⟨_, field, beq_self_eq_true _⟩

theorem ofCandidate?_eq_some_iff (candidate : List Char) (graph : Graph) :
    ofCandidate? candidate = some graph ↔
      (∃ value, Json.read? (String.ofList candidate) = some value ∧ value.HoldsRecord) ∧
        parse (String.ofList candidate) = .ok graph := by
  unfold ofCandidate?
  cases found : Json.read? (String.ofList candidate) with
  | none => simp
  | some value =>
    by_cases holds : value.HoldsRecord
    · have looks := (looksLikeWorkflow_iff value).2 holds
      cases parse (String.ofList candidate) <;> simp [looks, holds, Except.toOption]
    · have looks : ¬ looksLikeWorkflow value = true := fun looks => holds ((looksLikeWorkflow_iff value).1 looks)
      simp [looks, holds]

-- What follows an opening mark in a document, white space passed over, stands in a string.
theorem walk?_of_opened {text block letters : List Char} (walked : walk? .outside text = some .outside)
    (plain : ∀ c ∈ letters, c ≠ '"' ∧ c ≠ '\\') (opened : Text.Opened (Text.fence ++ letters) text block) :
    ∃ last, walk? .inside block = some last := by
  obtain ⟨before, gap, after, rfl, blank⟩ := opened
  have plainGap : ∀ c ∈ gap, c ≠ '"' ∧ c ≠ '\\' := by
    intro c member
    refine ⟨?_, ?_⟩ <;> rintro rfl <;> exact absurd (blank _ member) (by decide)
  obtain ⟨_, _, walked⟩ := Json.walk?_append_eq_some walked
  rw [List.append_assoc] at walked
  obtain ⟨middle, fenced, walked⟩ := Json.walk?_append_eq_some walked
  rw [Json.walk?_fence fenced, ← List.append_assoc letters, Json.walk?_append, Json.walk?_inside ?_,
    Option.bind_some] at walked
  · obtain ⟨last, inside, _⟩ := Json.walk?_append_eq_some walked
    exact ⟨last, inside⟩
  · intro c member
    exact (List.mem_append.1 member).elim (plain c) (plainGap c)

-- A block in the strings of a document is no workflow: its names have no underscore.
theorem ofCandidate?_opened {text : String} {value : Json} {letters block : List Char}
    (read : Json.read? text = some value) (plain : ∀ c ∈ letters, c ≠ '"' ∧ c ≠ '\\')
    (opened : Text.Opened (Text.fence ++ letters) text.toList block) : ofCandidate? block = none := by
  obtain ⟨used, whole, walked, _⟩ := Json.read_takes (Json.read_of_read? read)
  rw [List.append_nil] at whole
  rw [whole] at opened
  obtain ⟨last, inside⟩ := walk?_of_opened walked plain opened
  cases found : ofCandidate? block with
  | none => rfl
  | some graph =>
    obtain ⟨⟨other, readBlock, holds⟩, _⟩ := (ofCandidate?_eq_some_iff block graph).1 found
    have absent := Json.no_underscore_of_inside inside readBlock _ holds.mem_memberNames
    exact absurd (by decide) absent

def fencedBlocks (text : String) : List (List Char) :=
  Text.blocks Text.jsonFence text.toList ++ Text.blocks Text.fence text.toList

theorem ofCandidate?_fenced {text : String} {value : Json} (read : Json.read? text = some value) :
    ∀ block ∈ fencedBlocks text, ofCandidate? block = none := by
  intro block member
  rcases List.mem_append.1 member with marked | unmarked
  · have opened : Text.Opened (Text.fence ++ ['j', 's', 'o', 'n']) text.toList block := Text.blocks_opened marked
    exact ofCandidate?_opened read (by simp) opened
  · have opened : Text.Opened (Text.fence ++ []) text.toList block := Text.blocks_opened unmarked
    exact ofCandidate?_opened read (by simp) opened

-- A text that is a workflow document as a whole is found as a whole, whatever fences it has in its
-- strings.
theorem extract?_of_document {text : String} {value : Json} {graph : Graph} (stands : Json.StandsFor text value)
    (holds : value.HoldsRecord) (parsed : parse text = .ok graph) :
    (∀ block ∈ fencedBlocks text, ofCandidate? block = none) ∧ extract? text = some graph := by
  have read := (Json.read?_eq_some_iff text value).2 stands
  have refused := ofCandidate?_fenced read
  refine ⟨refused, ?_⟩
  have whole : ofCandidate? text.toList = some graph := by
    rw [ofCandidate?_eq_some_iff, String.ofList_toList]
    exact ⟨⟨value, read, holds⟩, parsed⟩
  have none : (fencedBlocks text).findSome? ofCandidate? = none := List.findSome?_eq_none_iff.2 refused
  unfold extract? candidates
  rw [List.findSome?_append, ← fencedBlocks, none]
  simp [whole]

section Extracted

variable {text : String}

theorem stands_of_reads (reads : (Json.read? text).isSome = true) :
    Json.StandsFor text ((Json.read? text).getD .null) := by
  obtain ⟨value, found⟩ := Option.isSome_iff_exists.1 reads
  rw [← Json.read?_eq_some_iff, found, Option.getD_some]

theorem parse_of_loads (loads : (parse text).toOption.isSome = true) :
    parse text = .ok ((parse text).toOption.getD .empty) := by
  cases made : parse text with
  | ok graph => rfl
  | error failure => rw [made] at loads; cases loads

-- A workflow in the fences of a string, and fences that open in one id and close in the next one.
def noted : String :=
  "\x7b\"1\":\x7b\"class_type\":\"Note\",\"inputs\":\x7b\"text\":\"```json \x7b\\\"2\\\":\x7b\\\"class_type\\\":\\\"Blur\\\"\x7d\x7d ```\"\x7d\x7d," ++
  "\"```json \x7b\":\x7b\"class_type\":\"Note\"\x7d,\"\x7d ```\":\x7b\x7d\x7d"

def notedValue : Json := (Json.read? noted).getD .null

def notedGraph : Graph := (parse noted).toOption.getD .empty

theorem noted_extracted : Json.StandsFor noted notedValue ∧ notedValue.HoldsRecord ∧
    parse noted = .ok notedGraph ∧ fencedBlocks noted ≠ [] ∧ extract? noted = some notedGraph := by
  have stands : Json.StandsFor noted notedValue := stands_of_reads (by decide +kernel)
  have holds : notedValue.HoldsRecord := (looksLikeWorkflow_iff _).1 (by decide +kernel)
  have parsed : parse noted = .ok notedGraph := parse_of_loads (by decide +kernel)
  exact ⟨stands, holds, parsed, by decide +kernel, (extract?_of_document stands holds parsed).2⟩

end Extracted

section Unread

open Json

-- A number beyond the floats in the metadata, which a workflow is read without.
def remarked : String := "\x7b\"1\":\x7b\"class_type\":\"A\",\"inputs\":\x7b\x7d,\"_meta\":\x7b\"x\":1e999\x7d\x7d\x7d"

def remarkedTree : Tree :=
  .object [(.plain "1", .object [
    (.plain "class_type", .string (.plain "A")),
    (.plain "inputs", .object []),
    (.plain "_meta", .object [(.plain "x", .number beyond)])])]

theorem written_remarked : Written remarkedTree remarked.toList := by
  have blank : Blank [] := by simp [Blank]
  have note := Derives.object (.lastMember (.bareMember "x" rfl (.number writtenNumeral_beyond)))
  have allowed := Spelling.plain_allowed "A" rfl
  have name := Derives.bareMember "class_type" rfl (.string allowed)
  have inputs := Derives.bareMember "inputs" rfl (.emptyObject blank)
  have details := Derives.bareMember "_meta" rfl note
  have fields := Derives.object (.moreMembers name (.moreMembers inputs (.lastMember details)))
  exact .bareElement (.object (.lastMember (.bareMember "1" rfl fields)))

theorem holds_remarkedTree : remarkedTree.HoldsRecord :=
  ⟨_, _, _, _, _, rfl, List.mem_singleton_self _, List.mem_cons_self, Json.Spelling.text?_plain _⟩

theorem remarked_missed : Written remarkedTree remarked.toList ∧ remarkedTree.HoldsRecord ∧
    (∃ graph, parse remarked = .ok graph) ∧ extract? remarked = none := by
  refine ⟨written_remarked, holds_remarkedTree, ⟨_, parse_of_loads (by decide +kernel)⟩, ?_⟩
  exact Option.isNone_iff_eq_none.1 (by decide +kernel)

end Unread

end Graph

end NodeFlow
