import NodeFlow.Catalog.Snapshot
import NodeFlow.Proofs.Json.Lookups
import NodeFlow.Proofs.Json.Meaning
import NodeFlow.Proofs.Json.Stored
import NodeFlow.Proofs.Tables

namespace NodeFlow

def Json.IsObject (value : Json) : Prop := ∃ members, value = .object members

namespace Payload

def Readable (payload : Json) : Prop :=
  ∃ entries, payload = .object entries ∧ ∀ entry ∈ entries, entry.2.IsObject

-- The document of an object of objects, within the limits of the reader.
def Saved (text : String) : Prop := ∃ payload, Json.StandsFor text payload ∧ Readable payload

-- Of the entries that are no objects the one with the least name.
structure FirstFlawed (entries : Members) (name : String) : Prop where
  flawed : ∃ value, (name, value) ∈ entries ∧ ¬ value.IsObject
  least : ∀ other value, (other, value) ∈ entries → ¬ value.IsObject → other = name ∨ Text.Precedes name other

inductive Makes : Json → String → Prop
  | tag (tag : String) : Makes (.string tag) tag
  | choice (options : List Json) : Makes (.array options) "COMBO"
  | other {value : Json} (noText : value.string? = none) (noList : value.array? = none) : Makes value value.compact

def Declares (info : Members) (part input : String) (declaration : Json) : Prop :=
  ∃ sections inputs, ("input", .object sections) ∈ info ∧ (part, .object inputs) ∈ sections ∧
    (input, declaration) ∈ inputs

-- The inputs that one section of an entry declares, and no others.
structure Covers (info : Members) (part : String) (required : Bool) (inputs : Table InputSpec) : Prop where
  names : ∀ input, input ∈ inputs.names ↔ ∃ declaration, Declares info part input declaration
  marked : ∀ input spec, inputs.get? input = some spec → spec.name = input ∧ spec.required = required
  specs : ∀ input declaration, Declares info part input declaration →
    inputs.get? input = some (parseInput input declaration required)

structure Describes (name : String) (info : Members) (schema : NodeType) : Prop where
  named : schema.name = name
  outputs : ∀ items, ("output", .array items) ∈ info → schema.outputCount = items.length ∧
    ∀ (slot : Nat) item, items[slot]? = some item → ∃ tag, schema.outputTypes[slot]? = some tag ∧ Makes item tag
  outputless : (∀ items, ("output", .array items) ∉ info) → schema.outputCount = 0
  required : Covers info "required" true schema.requiredInputs
  optional : Covers info "optional" false schema.optionalInputs

section Entries

variable {info : Members} {name : String}

theorem member?_eq_some_iff (canonical : (Json.object info).Canonical) (value : Json) :
    member? info name = some value ↔ (name, value) ∈ info :=
  (Json.mem_iff_lookup canonical.1.distinct name value).symm

theorem makes_outputTag (item : Json) : Makes item (outputTag item) := by
  cases item with
  | string tag => exact .tag tag
  | array options => exact .choice options
  | _ => exact .other rfl rfl

theorem parseInput_marked (declaration : Json) (required : Bool) :
    (parseInput name declaration required).name = name ∧
      (parseInput name declaration required).required = required := by
  unfold parseInput
  split <;> exact ⟨rfl, rfl⟩

theorem listOf_of_mem (canonical : (Json.object info).Canonical) {items : List Json}
    (found : (name, .array items) ∈ info) : listOf info name = items := by
  simp [listOf, (member?_eq_some_iff canonical _).2 found, Json.array?]

theorem listOf_of_not_mem (canonical : (Json.object info).Canonical)
    (absent : ∀ items, (name, .array items) ∉ info) : listOf info name = [] := by
  unfold listOf
  cases found : member? info name with
  | none => rfl
  | some value =>
    cases value with
    | array items => exact absurd ((member?_eq_some_iff canonical _).1 found) (absent items)
    | _ => rfl

def partOf (info : Members) (name : String) : Members := ((member? info name).bind Json.object?).getD []

theorem partOf_cases (canonical : (Json.object info).Canonical) (name : String) :
    (name, .object (partOf info name)) ∈ info ∨
      partOf info name = [] ∧ ∀ members, (name, .object members) ∉ info := by
  unfold partOf
  cases found : member? info name with
  | none =>
    refine .inr ⟨rfl, fun members member => ?_⟩
    rw [(member?_eq_some_iff canonical _).2 member] at found
    cases found
  | some value =>
    have held := (member?_eq_some_iff canonical value).1 found
    cases value with
    | object members => exact .inl held
    | _ =>
      refine .inr ⟨rfl, fun members member => ?_⟩
      rw [(member?_eq_some_iff canonical _).2 member] at found
      cases found

theorem canonical_partOf (canonical : (Json.object info).Canonical) (name : String) :
    (Json.object (partOf info name)).Canonical := by
  rcases partOf_cases canonical name with held | ⟨none, _⟩
  · exact (Json.canonicalMembers_iff info).1 canonical.2 _ held
  · rw [none]
    exact ⟨List.Pairwise.nil, trivial⟩

theorem mem_partOf_iff (canonical : (Json.object info).Canonical) (member : String × Json) :
    member ∈ partOf info name ↔ ∃ members, (name, .object members) ∈ info ∧ member ∈ members := by
  constructor
  · intro inside
    rcases partOf_cases canonical name with held | ⟨none, _⟩
    · exact ⟨_, held, inside⟩
    · rw [none] at inside
      cases inside
  · intro listed
    obtain ⟨members, held, inside⟩ := listed
    have found := (member?_eq_some_iff canonical _).2 held
    simpa [partOf, found, Json.object?] using inside

theorem declares_iff (canonical : (Json.object info).Canonical) (part input : String) (declaration : Json) :
    Declares info part input declaration ↔ (input, declaration) ∈ partOf (partOf info "input") part := by
  rw [mem_partOf_iff (canonical_partOf canonical _)]
  simp only [mem_partOf_iff canonical]
  constructor
  · intro declared
    obtain ⟨sections, inputs, outer, inner, member⟩ := declared
    exact ⟨inputs, ⟨sections, outer, inner⟩, member⟩
  · intro listed
    obtain ⟨inputs, ⟨sections, outer, inner⟩, member⟩ := listed
    exact ⟨sections, inputs, outer, inner, member⟩

theorem covers_inputSection (canonical : (Json.object info).Canonical) (part : String) (required : Bool) :
    Covers info part required (inputSection info part required) := by
  have inner := (canonical_partOf (canonical_partOf canonical "input") part).1.distinct
  let specOf := fun (member : String × Json) => (member.1, parseInput member.1 member.2 required)
  have distinct : (NodeFlow.names ((partOf (partOf info "input") part).map specOf)).Nodup := by
    rw [NodeFlow.names, List.map_map]
    exact inner
  have entries : (inputSection info part required).entries = (partOf (partOf info "input") part).map specOf :=
    Table.entries_ofList _ distinct
  refine ⟨fun input => ?_, fun input spec found => ?_, fun input declaration declared => ?_⟩
  · simp only [declares_iff canonical, Table.names, entries, NodeFlow.names, List.map_map, Function.comp_def]
    simp [specOf]
  · rw [← Table.mem_entries_iff, entries] at found
    obtain ⟨member, _, made⟩ := List.mem_map.1 found
    obtain ⟨rfl, rfl⟩ := Prod.mk.inj made
    exact parseInput_marked member.2 required
  · rw [← Table.mem_entries_iff, entries]
    exact List.mem_map.2 ⟨(input, declaration), (declares_iff canonical _ _ _).1 declared, rfl⟩

theorem describes_parseEntry (canonical : (Json.object info).Canonical) (name : String) :
    Describes name info (parseEntry name info) := by
  refine ⟨rfl, fun items found => ?_, fun absent => ?_, covers_inputSection canonical _ _,
    covers_inputSection canonical _ _⟩
  · have outputs : (parseEntry name info).outputTypes = items.map outputTag :=
      congrArg (List.map outputTag) (listOf_of_mem canonical found)
    refine ⟨by rw [NodeType.outputCount, outputs, List.length_map], fun slot item placed => ?_⟩
    exact ⟨outputTag item, by rw [outputs, List.getElem?_map, placed]; rfl, makes_outputTag item⟩
  · have outputs : (parseEntry name info).outputTypes = [] :=
      congrArg (List.map outputTag) (listOf_of_not_mem canonical absent)
    rw [NodeType.outputCount, outputs]
    rfl

end Entries

section Payloads

variable {entries : Members}

def describe? (entry : String × Json) : Option (String × NodeType) :=
  entry.2.object?.map fun info => (entry.1, parseEntry entry.1 info)

theorem parseEntries_of_objects (objects : ∀ entry ∈ entries, entry.2.IsObject) (done : Table NodeType) :
    parseEntries entries done =
      .ok ((entries.filterMap describe?).foldl (fun table entry => table.insert entry.1 entry.2) done) := by
  induction entries generalizing done with
  | nil => rfl
  | cons entry rest ih =>
    obtain ⟨name, value⟩ := entry
    obtain ⟨info, rfl⟩ := objects (name, value) List.mem_cons_self
    exact ih (fun other member => objects other (List.mem_cons_of_mem _ member)) _

theorem parseEntries_of_flawed {before after : Members} {name : String} {value : Json}
    (objects : ∀ entry ∈ before, entry.2.IsObject) (flawed : ¬ value.IsObject) (done : Table NodeType) :
    parseEntries (before ++ (name, value) :: after) done = .error (.entryNotAnObject name) := by
  induction before generalizing done with
  | nil =>
    cases value with
    | object members => exact absurd ⟨members, rfl⟩ flawed
    | _ => rfl
  | cons entry rest ih =>
    obtain ⟨first, other⟩ := entry
    obtain ⟨info, rfl⟩ := objects (first, other) List.mem_cons_self
    exact ih (fun other member => objects other (List.mem_cons_of_mem _ member)) _

theorem objects_or_flawed (entries : Members) : (∀ entry ∈ entries, entry.2.IsObject) ∨
    ∃ before name value after, entries = before ++ (name, value) :: after ∧
      (∀ entry ∈ before, entry.2.IsObject) ∧ ¬ value.IsObject := by
  induction entries with
  | nil => exact .inl nofun
  | cons entry rest ih =>
    by_cases object : entry.2.IsObject
    · rcases ih with objects | ⟨before, name, value, after, rfl, objects, flawed⟩
      · exact .inl (List.forall_mem_cons.2 ⟨object, objects⟩)
      · exact .inr ⟨entry :: before, name, value, after, rfl, List.forall_mem_cons.2 ⟨object, objects⟩, flawed⟩
    · exact .inr ⟨[], entry.1, entry.2, rest, rfl, nofun, object⟩

theorem firstFlawed_of_split {before after : Members} {name : String} {value : Json}
    (ascending : Json.Ascending (before ++ (name, value) :: after))
    (objects : ∀ entry ∈ before, entry.2.IsObject) (flawed : ¬ value.IsObject) :
    FirstFlawed (before ++ (name, value) :: after) name := by
  refine ⟨⟨value, by simp, flawed⟩, fun other rival member none => ?_⟩
  unfold Json.Ascending at ascending
  rw [List.map_append] at ascending
  have later := (Json.ascending_cons_iff name value after).1 (List.pairwise_append.1 ascending).2.1
  rcases List.mem_append.1 member with early | late
  · exact absurd (objects _ early) none
  · rcases List.mem_cons.1 late with same | late
    · exact .inl (Prod.mk.inj same).1
    · exact .inr (later.1 _ late)

theorem parse_of_objects (ascending : Json.Ascending entries) (objects : ∀ entry ∈ entries, entry.2.IsObject) :
    ∃ types, parse (.object entries) = .ok types ∧ types.names = names entries ∧
      ∀ name info, (name, .object info) ∈ entries → types.get? name = some (parseEntry name info) := by
  refine ⟨.ofList (entries.filterMap describe?), parseEntries_of_objects objects .empty, ?_⟩
  have listed : names (entries.filterMap describe?) = names entries := by
    unfold names
    rw [List.map_filterMap, ← List.filterMap_eq_map]
    refine List.filterMap_congr fun entry member => ?_
    obtain ⟨info, object⟩ := objects entry member
    simp [describe?, object, Json.object?]
  have made := Table.entries_ofList _ (listed ▸ ascending.distinct)
  refine ⟨(congrArg names made).trans listed, fun name info member => ?_⟩
  rw [← Table.mem_entries_iff, made]
  exact List.mem_filterMap.2 ⟨_, member, rfl⟩

theorem parse_of_flawed (ascending : Json.Ascending entries) (unreadable : ¬ Readable (.object entries)) :
    ∃ name, FirstFlawed entries name ∧ parse (.object entries) = .error (.entryNotAnObject name) := by
  rcases objects_or_flawed entries with objects | ⟨before, name, value, after, rfl, objects, flawed⟩
  · exact absurd ⟨entries, rfl, objects⟩ unreadable
  · exact ⟨name, firstFlawed_of_split ascending objects flawed, parseEntries_of_flawed objects flawed .empty⟩

theorem exists_parse_iff {payload : Json} (canonical : payload.Canonical) :
    (∃ types, parse payload = .ok types) ↔ Readable payload := by
  constructor
  · intro parsed
    obtain ⟨types, read⟩ := parsed
    by_contra unreadable
    cases payload with
    | object entries =>
      obtain ⟨name, _, refused⟩ := parse_of_flawed canonical.1 unreadable
      rw [refused] at read
      cases read
    | _ => cases read
  · intro readable
    obtain ⟨entries, rfl, objects⟩ := readable
    obtain ⟨types, read, _⟩ := parse_of_objects canonical.1 objects
    exact ⟨types, read⟩

theorem saved_iff_exists (text : String) :
    Saved text ↔ ∃ payload types, Json.read? text = some payload ∧ parse payload = .ok types := by
  simp only [Saved, ← Json.read?_eq_some_iff]
  constructor
  · intro saved
    obtain ⟨payload, read, readable⟩ := saved
    obtain ⟨types, parsed⟩ := (exists_parse_iff (Json.stored_of_read? read).canonical).2 readable
    exact ⟨payload, types, read, parsed⟩
  · intro parsed
    obtain ⟨payload, types, read, parsed⟩ := parsed
    exact ⟨payload, read, (exists_parse_iff (Json.stored_of_read? read).canonical).1 ⟨types, parsed⟩⟩

end Payloads

section Unread

open Json

def IsObjects (tree : Tree) : Prop :=
  ∃ entries, tree = .object entries ∧ ∀ entry ∈ entries, ∃ members, entry.2 = .object members

-- An object of objects that is none within the limits.
def overfull : String := "\x7b\"A\":\x7b\"x\":1e999\x7d\x7d"

def overfullTree : Tree := .object [(.plain "A", .object [(.plain "x", .number beyond)])]

theorem written_overfull : Written overfullTree overfull.toList := by
  have entry := Derives.object (.lastMember (.bareMember "x" rfl (.number writtenNumeral_beyond)))
  exact .bareElement (.object (.lastMember (.bareMember "A" rfl entry)))

theorem isObjects_overfullTree : IsObjects overfullTree := ⟨_, rfl, by simp⟩

end Unread

section Answers

variable {snapshot : Snapshot} {name : String} {info : Members} {schema : NodeType}

theorem Covers.get?_eq_none {part input : String} {required : Bool} {inputs : Table InputSpec}
    (covers : Covers info part required inputs) (undeclared : ∀ declaration, ¬ Declares info part input declaration) :
    inputs.get? input = none := by
  rw [Table.get?_eq_none_iff, covers.names]
  intro named
  obtain ⟨declaration, declared⟩ := named
  exact undeclared declaration declared

-- What is answered about an input: the required declaration before the optional one.
structure Answers (info : Members) (input : String) (answer : Option (String × Bool)) : Prop where
  required : ∀ declaration, Declares info "required" input declaration →
    answer = some ((parseInput input declaration true).kind.tag, true)
  optional : ∀ declaration, (∀ other, ¬ Declares info "required" input other) →
    Declares info "optional" input declaration → answer = some ((parseInput input declaration false).kind.tag, false)
  unknown : (∀ other, ¬ Declares info "required" input other) → (∀ other, ¬ Declares info "optional" input other) →
    answer = none

theorem answers_inputType? (known : snapshot.type? name = some schema) (describes : Describes name info schema)
    (input : String) : Answers info input (snapshot.inputType? name input) := by
  have answer : snapshot.inputType? name input =
      (schema.input? input).map fun spec => (spec.kind.tag, spec.required) := by
    unfold Snapshot.inputType?
    rw [known]
    cases found : schema.input? input <;> simp [found]
  rw [answer, NodeType.input?]
  refine ⟨fun declaration declared => ?_, fun declaration free declared => ?_, fun free unknown => ?_⟩
  · have found := describes.required.specs input declaration declared
    have marked := (describes.required.marked input _ found).2
    simp only [found, Option.map_some, marked]
  · have found := describes.optional.specs input declaration declared
    have marked := (describes.optional.marked input _ found).2
    simp only [describes.required.get?_eq_none free, found, Option.map_some, marked]
  · simp only [describes.required.get?_eq_none free, describes.optional.get?_eq_none unknown, Option.map_none]

theorem typeNames_of_ascending (ascending : snapshot.types.names.Pairwise Text.Precedes) :
    snapshot.typeNames = snapshot.types.names := by
  refine List.mergeSort_of_pairwise (ascending.imp fun {one other} before => ?_)
  have apart : ¬ Text.Precedes other one := fun after => Text.precedes_irrefl one (before.trans after)
  simp [apart]

end Answers

-- Every payload is read or refused as its shape says; in a snapshot of what was read the types are those of the
-- payload, and an input of both sections is a required one.
theorem parse_declared (payload : Json) (canonical : payload.Canonical) :
    ((∃ types, parse payload = .ok types) ↔ Readable payload) ∧
    ((∀ entries, payload ≠ .object entries) → parse payload = .error .notAnObject) ∧
    (∀ entries, payload = .object entries → ¬ Readable payload →
      ∃ name, FirstFlawed entries name ∧ parse payload = .error (.entryNotAnObject name)) ∧
    ∀ entries types stamp, payload = .object entries → parse payload = .ok types →
      types.names = names entries ∧ (Snapshot.mk types stamp).typeNames = names entries ∧
      ∀ name info, (name, .object info) ∈ entries → ∃ schema, types.get? name = some schema ∧
        Describes name info schema ∧
        ∀ input, Answers info input ((Snapshot.mk types stamp).inputType? name input) := by
  refine ⟨exists_parse_iff canonical, fun other => ?_, ?_, ?_⟩
  · cases payload with
    | object entries => exact absurd rfl (other entries)
    | _ => rfl
  · intro entries same unreadable
    cases same
    exact parse_of_flawed canonical.1 unreadable
  · intro entries types stamp same read
    cases same
    obtain ⟨_, same, objects⟩ := (exists_parse_iff canonical).1 ⟨types, read⟩
    cases same
    obtain ⟨_, again, listed, found⟩ := parse_of_objects canonical.1 objects
    cases read.symm.trans again
    refine ⟨listed, (typeNames_of_ascending (listed ▸ canonical.1)).trans listed, fun name info member => ?_⟩
    have inner := (Json.canonicalMembers_iff entries).1 canonical.2 _ member
    have describes := describes_parseEntry inner name
    exact ⟨_, found name info member, describes, answers_inputType? (found name info member) describes⟩

def layerEntry : Members :=
  [("input", .object [("optional", .object [("top", .array [.string "MASK"])]),
      ("required", .object [("top", .array [.string "IMAGE"])])]),
    ("output", .array [.string "IMAGE", .array [.string "soft"], .null])]

def layerPayload : Json := .object [("Layer", .object layerEntry)]

def spoiltPayload : Json := .object [("Blend", .object []), ("Blur", .null), ("Count", .string "INT")]

theorem canonical_layerPayload : layerPayload.Canonical := by
  simp only [layerPayload, layerEntry, Json.Canonical, Json.CanonicalMembers, Json.CanonicalItems, Json.Ascending]
  decide

theorem canonical_spoiltPayload : spoiltPayload.Canonical := by
  simp only [spoiltPayload, Json.Canonical, Json.CanonicalMembers, Json.Ascending]
  decide

theorem layerPayload_declared : layerPayload.Canonical ∧ spoiltPayload.Canonical ∧
    (∃ types schema, parse layerPayload = .ok types ∧ types.get? "Layer" = some schema ∧ schema.outputCount = 3 ∧
      schema.outputTypes[1]? = some "COMBO" ∧
      (Snapshot.mk types none).inputType? "Layer" "top" = some ("IMAGE", true)) ∧
    parse spoiltPayload = .error (.entryNotAnObject "Blur") := by
  obtain ⟨read, _, _, declared⟩ := parse_declared layerPayload canonical_layerPayload
  obtain ⟨_, _, refused, _⟩ := parse_declared spoiltPayload canonical_spoiltPayload
  refine ⟨canonical_layerPayload, canonical_spoiltPayload, ?_, ?_⟩
  · obtain ⟨types, parsed⟩ := read.2 ⟨_, rfl, fun entry member => ⟨layerEntry, by simp_all⟩⟩
    obtain ⟨_, _, each⟩ := declared _ types none rfl parsed
    obtain ⟨schema, found, describes, answers⟩ := each "Layer" layerEntry List.mem_cons_self
    obtain ⟨count, slots⟩ := describes.outputs _ (List.mem_cons_of_mem _ List.mem_cons_self)
    obtain ⟨tag, placed, makes⟩ := slots 1 _ rfl
    have needed : Declares layerEntry "required" "top" (.array [.string "IMAGE"]) :=
      ⟨_, _, List.mem_cons_self, List.mem_cons_of_mem _ List.mem_cons_self, List.mem_cons_self⟩
    refine ⟨types, schema, parsed, found, count, ?_, (answers "top").required _ needed⟩
    cases makes with
    | choice options => exact placed
    | other _ noList => cases noList
  · have null : ¬ Json.null.IsObject := nofun
    have unreadable : ¬ Readable spoiltPayload := by
      intro readable
      obtain ⟨_, same, objects⟩ := readable
      cases same
      exact null (objects _ (List.mem_cons_of_mem _ List.mem_cons_self))
    obtain ⟨name, first, named⟩ := refused _ rfl unreadable
    rcases first.least "Blur" .null (List.mem_cons_of_mem _ List.mem_cons_self) null with rfl | before
    · exact named
    · obtain ⟨value, member, flawed⟩ := first.flawed
      rcases List.mem_cons.1 member with same | later
      · cases same
        exact absurd ⟨[], rfl⟩ flawed
      · have none : ∀ other ∈ [("Blur", Json.null), ("Count", .string "INT")], ¬ Text.Precedes other.1 "Blur" := by
          decide
        exact absurd before (none _ later)

end Payload

end NodeFlow
