import NodeFlow.Catalog.Payload
import NodeFlow.Proofs.Tables

namespace NodeFlow

namespace InputKind

-- A kind that shows the wildcard's tag is the wildcard.
def Honest (kind : InputKind) : Prop := kind = .wildcard ↔ kind.tag = "*"

-- The kinds that are read: no primitive and no reference has a tag that stands for another kind.
inductive Normal : InputKind → Prop
  | tagged (tag : String) : Normal (.ofTag tag)
  | choice (options : List String) : Normal (.choice options)

section Tags

variable (tag : String)

theorem ofTag_eq_wildcard_iff : ofTag tag = .wildcard ↔ tag = "*" := by
  unfold ofTag wildcardTag
  split
  · rename_i wild
    simp [wild]
  · rename_i plain
    split <;> simp [plain]

theorem ofTag_eq_primitive_iff (other : String) :
    ofTag tag = .primitive other ↔ tag = other ∧ tag ∈ ["INT", "FLOAT", "STRING", "BOOLEAN"] := by
  unfold ofTag
  split
  · rename_i wild
    rw [wild]
    simp [wildcardTag]
  · split
    · rename_i known
      simp only [primitive.injEq]
      exact (and_iff_left known).symm
    · rename_i unknown
      exact ⟨nofun, fun known => absurd known.2 unknown⟩

theorem ofTag_ne_choice (options : List String) : ofTag tag ≠ .choice options := by
  unfold ofTag
  split
  · nofun
  · split <;> nofun

end Tags

namespace Normal

variable {kind : InputKind}

theorem honest (normal : kind.Normal) : kind.Honest := by
  cases normal with
  | tagged tag => rw [Honest, tag_ofTag, ofTag_eq_wildcard_iff]
  | choice options => simp [Honest, InputKind.tag, choiceTag]

theorem primitive_iff (normal : kind.Normal) :
    (∃ tag, kind = .primitive tag) ↔ kind.tag ∈ ["INT", "FLOAT", "STRING", "BOOLEAN"] := by
  cases normal with
  | tagged tag =>
    simp only [tag_ofTag, ofTag_eq_primitive_iff]
    exact ⟨fun ⟨_, _, known⟩ => known, fun known => ⟨tag, rfl, known⟩⟩
  | choice options => simp [InputKind.tag, choiceTag]

theorem ofTag_tag (normal : kind.Normal) (plain : ∀ options, kind ≠ .choice options) : ofTag kind.tag = kind := by
  cases normal with
  | tagged tag => exact ofTag_tag_ofTag tag
  | choice options => exact absurd rfl (plain options)

end Normal

end InputKind

def NodeType.Honest (schema : NodeType) : Prop :=
  ∀ input spec, schema.input? input = some spec → spec.kind.Honest

def NodeType.Parsed (schema : NodeType) : Prop :=
  ∀ input spec, schema.input? input = some spec →
    ∃ declaration required, spec = Payload.parseInput input declaration required

namespace Payload

theorem normal_kindOf (first : Json) (constraints : Members) : (kindOf first constraints).Normal := by
  have unknown : (InputKind.reference unknownTag).Normal := .tagged unknownTag
  have unlisted : (InputKind.reference InputKind.choiceTag).Normal := .tagged InputKind.choiceTag
  unfold kindOf
  split
  · rename_i tag
    split
    · rename_i listed
      split
      · exact .choice _
      · rwa [listed]
    · exact .tagged tag
  · exact .choice _
  · exact unknown

theorem normal_parseInput (name : String) (declaration : Json) (required : Bool) :
    (parseInput name declaration required).kind.Normal := by
  unfold parseInput
  split
  · exact normal_kindOf _ _
  · exact .tagged unknownTag

theorem parsed_of_mem_inputSection {info : Members} {name input : String} {required : Bool}
    {spec : InputSpec} (found : (inputSection info name required).get? input = some spec) :
    ∃ declaration required, spec = parseInput input declaration required := by
  obtain ⟨entry, _, made⟩ := List.mem_map.1 (Table.mem_of_get?_ofList found)
  obtain ⟨rfl, rfl⟩ := Prod.mk.inj made
  exact ⟨_, _, rfl⟩

theorem parsed_parseEntry (name : String) (info : Members) : (parseEntry name info).Parsed := by
  intro input spec found
  unfold NodeType.input? at found
  split at found
  · rename_i declared
    cases Option.some.inj found
    exact parsed_of_mem_inputSection declared
  · exact parsed_of_mem_inputSection found

theorem parsed_parseEntries (entries : Members) (done types : Table NodeType)
    (read : parseEntries entries done = .ok types)
    (before : ∀ name schema, done.get? name = some schema → schema.Parsed) :
    ∀ name schema, types.get? name = some schema → schema.Parsed := by
  induction entries generalizing done with
  | nil => cases read; exact before
  | cons entry rest ih =>
    obtain ⟨first, info⟩ := entry
    unfold parseEntries at read
    split at read
    · rename_i members
      refine ih _ read fun name schema found => ?_
      rw [Table.get?_insert] at found
      split at found
      · cases Option.some.inj found
        exact parsed_parseEntry first members
      · exact before name schema found
    · cases read

section Types

variable {payload : Json} {types : Table NodeType} (read : parse payload = .ok types) {name : String}
  {schema : NodeType} (known : types.get? name = some schema)

include read known

theorem parsed_parse : schema.Parsed := by
  unfold parse at read
  split at read
  · exact parsed_parseEntries _ _ types read (by simp [Table.get?, Table.empty]) name schema known
  · cases read

theorem honest_parse : schema.Honest := by
  intro input spec found
  obtain ⟨declaration, required, rfl⟩ := parsed_parse read known input spec found
  exact (normal_parseInput input declaration required).honest

end Types

end Payload

end NodeFlow
