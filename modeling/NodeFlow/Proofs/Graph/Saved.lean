import NodeFlow.Proofs.Graph.Acceptance
import NodeFlow.Proofs.Graph.LastMembers
import NodeFlow.Proofs.Graph.NormalForm
import NodeFlow.Proofs.Graph.RoundTrip

namespace NodeFlow

namespace Json

def namedSource : Json → Json
  | .array [.number (.integer id inRange), .number (.integer slot fits)] =>
    if 0 ≤ id ∧ 0 ≤ slot then .array [.string (toString id), .number (.integer slot fits)]
    else .array [.number (.integer id inRange), .number (.integer slot fits)]
  | value => value

def savedInputs : Json → Json
  | .object inputs => .object (keepMembers (fun _ value => some value.namedSource) inputs)
  | value => value

def titleText? : Json → Option String
  | .object members => (members.lookup "title").bind string?
  | .array [title] => title.string?
  | _ => none

def savedMetadata (value : Json) : Json := .object (optionalMember "title" .string value.titleText?)

def unlessNull (save : Json → Json) : Json → Option Json
  | .null => none
  | value => some (save value)

-- Only members that have a meaning are changed or dropped.
def savedMember (name : String) : Json → Option Json :=
  if name = "class_type" then unlessNull id
  else if name = "inputs" then unlessNull savedInputs
  else if name = "_meta" then unlessNull savedMetadata
  else some

def savedRecord : Json → Json
  | .object members => .object (keepMembers savedMember members)
  | value => value

def saved : Json → Json
  | .object records => .object (keepMembers (fun _ record => some record.savedRecord) records)
  | value => value

theorem namedSource_eq (value : Json) : value.namedSource = (InputValue.ofJson value).toJson := by
  obtain ⟨⟨id, slot⟩, ⟨source, rfl, names⟩, taken⟩ | ⟨plain, taken⟩ := InputValue.ofJson_cases value
  · rw [taken]
    cases names with
    | text => rfl
    | number word =>
      have signs : (0 : Int) ≤ word.toNat ∧ (0 : Int) ≤ slot.toNat := by omega
      simp only [Number.ofWord, namedSource, if_pos signs]
      rfl
  · rw [taken]
    unfold namedSource
    split
    · rename_i id inRange slot fits
      split
      · rename_i signs
        exact absurd ⟨_, _, rfl, .inr ⟨id, inRange, rfl, signs.1⟩, slot, fits, rfl, signs.2⟩ plain
      · rfl
    · rfl

end Json

namespace Graph.Document

open Json Json.Read

section Inputs

theorem stored_of_lookup {budget : Nat} {members : List (String × Json)}
    (stored : (Json.object members).Stored (budget + 1)) {name : String} {value : Json}
    (found : members.lookup name = some value) : value.Stored budget := by
  obtain ⟨ascending, each⟩ := (stored_object_iff budget members).1 stored
  exact each (name, value) ((mem_iff_lookup ascending.distinct name value).2 found)

theorem savedInputs_eq {tree : Tree} {value : Json} {inputs : Inputs} (stored : value.Stored (depthLimit - 2))
    (made : tree.json? (depthLimit - 2) = some value) (meant : inputs? tree = some inputs) :
    value.savedInputs = (Node.inputsJson inputs).sorted := by
  cases tree with
  | object entries =>
    obtain ⟨members, rfl, found⟩ := lookup_of_json? (depthLimit - 3) made
    have step : inputsStep = fun inputs name tree =>
        ((tree.json? (depthLimit - 3)).map InputValue.ofJson).map (inputs.insert name) := by
      funext inputs name tree
      rw [Option.map_map]
      rfl
    have taken : gather inputsStep .empty entries = some inputs := meant
    rw [step] at taken
    have look := look_of_puts Table.insert (fun (inputs : Inputs) own => inputs.get? own)
      (fun (inputs : Inputs) name value own => inputs.get?_insert name own value) (fun _ => rfl) taken
    refine keepMembers_eq_sorted_table stored.canonical.1 inputs fun name => ?_
    refine agree_of_last (found name) (look name) fun tree value input held _ read given => ?_
    rw [read] at given
    cases given
    rw [namedSource_eq, sorted_toJson (ofJson_read value (stored_of_lookup stored held))]
  | _ => cases meant

theorem depth_inputs_le {inputs : Inputs} (held : InputsRead inputs) :
    (Node.inputsJson inputs).depth ≤ depthLimit - 2 := by
  refine Nat.succ_le_succ ((depthOfMembers_le_iff _ (depthLimit - 3)).2 fun member written => ?_)
  obtain ⟨⟨name, value⟩, entry, rfl⟩ := List.mem_map.1 written
  exact toJson_depth_le (held name value ((inputs.mem_entries_iff name value).1 entry))

end Inputs

section Fields

variable {α : Type}

theorem bind_lookup_of_slot {β : Type} {budget : Nat} {name : String} {meaning : Tree → Option α}
    {entries : List (Spelling × Tree)} {members : List (String × Json)} {field : Option α}
    {keep : Json → Option β} {written : α → Option β}
    (found : (lastOf name entries).map (Tree.json? budget) = (members.lookup name).map some)
    (taken : gather (slotStep name meaning) none entries = some field)
    (each : ∀ tree value made, members.lookup name = some value → tree.json? budget = some value →
      meaning tree = some made → keep value = written made) :
    (members.lookup name).bind keep = field.bind written := by
  have same := agree_of_last found (look_of_slot taken) fun tree value made held _ => each tree value made held
  simpa only [Option.bind_map, Function.id_comp] using congrArg (fun kept => kept.bind id) same

theorem orNull_cases {budget : Nat} {tree : Tree} {value : Json} {meaning : Tree → Option α} {made : Option α}
    (read : tree.json? budget = some value) (meant : tree.orNull meaning = some made) :
    (value = .null ∧ made = none) ∨ value ≠ .null ∧ ∃ whole, meaning tree = some whole ∧ made = some whole := by
  by_cases null : tree = .null
  · subst null
    cases meant
    rw [Tree.json?] at read
    exact .inl ⟨(Option.some.inj read).symm, rfl⟩
  · rw [Tree.orNull_of_ne null] at meant
    obtain ⟨whole, found, rfl⟩ := Option.map_eq_some_iff.1 meant
    refine .inr ⟨?_, whole, found, rfl⟩
    rintro rfl
    cases tree with
    | null => exact null rfl
    | _ => cases budget <;> simp [Tree.json?] at read

theorem bind_lookup_of_field {budget : Nat} {name : String} {meaning : Tree → Option α}
    {entries : List (Spelling × Tree)} {members : List (String × Json)} {field : Option (Option α)}
    {save : Json → Json} {toJson : α → Json}
    (found : (lastOf name entries).map (Tree.json? budget) = (members.lookup name).map some)
    (taken : gather (slotStep name (Tree.orNull meaning)) none entries = some field)
    (each : ∀ tree value made, members.lookup name = some value → tree.json? budget = some value →
      meaning tree = some made → save value = (toJson made).sorted) :
    (members.lookup name).bind (unlessNull save) = (field.join.map toJson).map sorted := by
  have kept : (members.lookup name).bind (unlessNull save) =
      field.bind fun made => (made.map toJson).map sorted := by
    refine bind_lookup_of_slot found taken fun tree value made held read meant => ?_
    rcases orNull_cases read meant with ⟨rfl, rfl⟩ | ⟨other, whole, known, rfl⟩
    · rfl
    · have saved : unlessNull save value = some (save value) := by
        unfold unlessNull
        split
        · exact absurd rfl other
        · rfl
      rw [saved, each tree value whole held read known]
      rfl
  rw [kept]
  cases field <;> rfl

theorem string_of_text? {budget : Nat} {tree : Tree} {value : Json} {text : String}
    (read : tree.json? budget = some value) (meant : tree.text? = some text) : value = .string text := by
  cases tree with
  | string spelling =>
    have spelled : spelling.text? = some text := meant
    rw [Tree.json?, spelled] at read
    exact (Option.some.inj read).symm
  | _ => cases meant

theorem string?_of_orNull {budget : Nat} {tree : Tree} {value : Json} {made : Option String}
    (read : tree.json? budget = some value) (meant : tree.orNull Tree.text? = some made) : value.string? = made := by
  rcases orNull_cases read meant with ⟨rfl, rfl⟩ | ⟨_, text, known, rfl⟩
  · rfl
  · rw [string_of_text? read known]
    rfl

theorem titleText?_eq {budget : Nat} {tree : Tree} {value : Json} {metadata : Metadata}
    (made : tree.json? (budget + 1) = some value) (meant : metadata? tree = some metadata) :
    value.titleText? = metadata.title := by
  cases tree with
  | object entries =>
    obtain ⟨members, rfl, found⟩ := lookup_of_json? budget made
    obtain ⟨title, taken, rfl⟩ := Option.map_eq_some_iff.1 meant
    have titled : (members.lookup "title").bind string? = title.bind id :=
      bind_lookup_of_slot (found "title") taken fun _ _ _ _ => string?_of_orNull
    rw [titleText?, titled]
    rfl
  | array items =>
    rw [Tree.json?, Option.map_eq_some_iff] at made
    obtain ⟨values, made, rfl⟩ := made
    rcases items with _ | ⟨item, _ | ⟨second, more⟩⟩
    · cases made
      cases meant
      rfl
    · obtain ⟨title, known, rfl⟩ := Option.map_eq_some_iff.1 meant
      rw [List.mapM_cons, List.mapM_nil] at made
      obtain ⟨value, read, made⟩ := Option.bind_eq_some_iff.1 made
      cases made
      exact string?_of_orNull read known
    · cases meant
  | _ => cases meant

theorem savedMetadata_eq {budget : Nat} {tree : Tree} {value : Json} {metadata : Metadata}
    (made : tree.json? (budget + 1) = some value) (meant : metadata? tree = some metadata) :
    value.savedMetadata = (Node.metadataJson metadata).sorted := by
  obtain ⟨title⟩ := metadata
  rw [savedMetadata, titleText?_eq made meant]
  cases title <;> simp [Node.metadataJson, optionalMember, sorted, sortMembers, insertMember]

end Fields

section Records

variable {node : Node}

theorem lookup_of_extras {entries : List (Spelling × Tree)} {extra : List (String × Json)} {name : String}
    (unreserved : name ∉ reserved) (taken : gather extraStep [] entries = some extra) :
    (lastOf name entries).map (Tree.json? (depthLimit - 2)) = (extra.lookup name).map some := by
  refine (Option.or_none).symm.trans (look_of_gather (fun extra => extra.lookup name) ?_ ?_ taken)
  · intro extra tree next taken
    rw [extraStep, if_neg unreserved] at taken
    obtain ⟨value, made, rfl⟩ := Option.map_eq_some_iff.1 taken
    exact ⟨value, made, (lookup_insertMember ..).trans (if_pos rfl)⟩
  · intro extra other tree next apart taken
    unfold extraStep at taken
    split at taken
    · rw [← Option.some.inj taken]
    · obtain ⟨value, made, rfl⟩ := Option.map_eq_some_iff.1 taken
      exact (lookup_insertMember ..).trans (if_neg fun same => apart same.symm)

def recordMembers (node : Node) : List (String × Json) :=
  optionalMember "class_type" .string node.classField ++ (optionalMember "inputs" Node.inputsJson node.inputs ++
    (optionalMember "_meta" Node.metadataJson node.metadata ++ node.extra))

theorem toJson_eq (node : Node) : node.toJson = .object (recordMembers node) := by
  obtain ⟨classField, inputs, metadata, extra⟩ := node
  cases classField <;> cases inputs <;> cases metadata <;> rfl

theorem not_mem_extra (loaded : node.Loaded) {own : String} (reserved : own ∈ reservedNames) :
    own ∉ names node.extra := by
  intro member
  obtain ⟨entry, found, rfl⟩ := List.mem_map.1 member
  exact loaded.unreserved entry found reserved

theorem recordMembers_apart (loaded : node.Loaded) : (names (recordMembers node)).Nodup ∧
    ∀ name, (recordMembers node).lookup name =
      if name = "class_type" then node.classField.map .string
      else if name = "inputs" then node.inputs.map Node.inputsJson
      else if name = "_meta" then node.metadata.map Node.metadataJson
      else node.extra.lookup name := by
  have noMeta : "_meta" ∉ names node.extra := not_mem_extra loaded (by decide)
  have noInputs : "inputs" ∉ names (optionalMember "_meta" Node.metadataJson node.metadata ++ node.extra) :=
    not_mem_optionalMember (by decide) (not_mem_extra loaded (by decide))
  have noClass : "class_type" ∉ names (optionalMember "inputs" Node.inputsJson node.inputs ++
      (optionalMember "_meta" Node.metadataJson node.metadata ++ node.extra)) :=
    not_mem_optionalMember (by decide) (not_mem_optionalMember (by decide) (not_mem_extra loaded (by decide)))
  constructor
  · refine optionalMember_distinct (optionalMember_distinct ?_ noInputs) noClass
    exact optionalMember_distinct loaded.ascending.distinct noMeta
  · intro name
    rw [recordMembers, lookup_optionalMember noClass, lookup_optionalMember noInputs, lookup_optionalMember noMeta]

theorem savedRecord_eq {tree : Tree} {value : Json} (loaded : node.Loaded) (stored : value.Stored (depthLimit - 1))
    (made : tree.json? (depthLimit - 1) = some value) (meant : record? tree = some node) :
    value.savedRecord = node.toJson.sorted := by
  cases tree with
  | object entries =>
    obtain ⟨members, rfl, found⟩ := lookup_of_json? (depthLimit - 2) made
    obtain ⟨draft, taken, rfl⟩ := Option.map_eq_some_iff.1 meant
    obtain ⟨ofClass, ofInputs, ofMeta, ofExtra⟩ := (gather_recordStep_iff .empty draft entries).1 taken
    obtain ⟨distinct, look⟩ := recordMembers_apart loaded
    rw [toJson_eq]
    refine keepMembers_eq_sorted stored.canonical.1 distinct fun name => ?_
    rw [look]
    unfold savedMember
    by_cases isClass : name = "class_type"
    · subst isClass
      refine bind_lookup_of_field (found _) ofClass fun tree value text _ read known => ?_
      simp [string_of_text? read known, sorted]
    by_cases isInputs : name = "inputs"
    · subst isInputs
      exact bind_lookup_of_field (found _) ofInputs fun tree value inputs held read known =>
        savedInputs_eq (stored_of_lookup stored held) read known
    by_cases isMeta : name = "_meta"
    · subst isMeta
      exact bind_lookup_of_field (found _) ofMeta fun tree value metadata _ read known => savedMetadata_eq read known
    · have unreserved : name ∉ reserved := by simp [reserved, isClass, isInputs, isMeta]
      have kept := agree_of_last (found name) (lookup_of_extras unreserved ofExtra) (f := id) (g := sorted)
        fun tree value other held _ read again => by
          cases again.symm.trans read
          exact (sorted_of_canonical value (stored_of_lookup stored held).canonical).symm
      simpa [isClass, isInputs, isMeta, Draft.node] using kept
  | _ => cases meant

theorem depth_record_le (loaded : node.Loaded) : node.toJson.depth ≤ depthLimit - 1 := by
  obtain ⟨distinct, look⟩ := recordMembers_apart loaded
  rw [toJson_eq]
  refine Nat.succ_le_succ ((depthOfMembers_le_iff _ (depthLimit - 2)).2 ?_)
  rintro ⟨name, value⟩ member
  have found := (mem_iff_lookup distinct name value).1 member
  rw [look] at found
  split at found
  · obtain ⟨text, _, rfl⟩ := Option.map_eq_some_iff.1 found
    exact Nat.zero_le _
  · split at found
    · obtain ⟨inputs, field, rfl⟩ := Option.map_eq_some_iff.1 found
      exact depth_inputs_le (inputsRead_of_loaded loaded inputs field)
    · split at found
      · obtain ⟨⟨title⟩, _, rfl⟩ := Option.map_eq_some_iff.1 found
        cases title <;> exact Nat.succ_le_succ (Nat.zero_le _)
      · exact (loaded.extras (name, value) ((mem_iff_lookup loaded.ascending.distinct name value).2 found)).depth_le

end Records

section Documents

variable {graph : Graph}

theorem saved_eq {tree : Tree} {value : Json} (loaded : graph.Loaded) (stored : value.Stored depthLimit)
    (made : tree.json? depthLimit = some value) (meant : workflow? tree = some graph) :
    value.saved = graph.toJson.sorted := by
  cases tree with
  | object entries =>
    obtain ⟨members, rfl, found⟩ := lookup_of_json? (depthLimit - 1) made
    obtain ⟨nodes, taken, rfl⟩ := Option.map_eq_some_iff.1 meant
    have look := look_of_puts Table.insert (fun (nodes : Table Node) own => nodes.get? own)
      (fun (nodes : Table Node) name node own => nodes.get?_insert name own node) (fun _ => rfl) taken
    exact keepMembers_eq_sorted_table stored.canonical.1 nodes fun id => agree_of_last (found id) (look id)
      fun tree record node held present read known =>
        savedRecord_eq (loaded id node present) (stored_of_lookup stored held) read known
  | _ => cases meant

theorem depth_graph_le (loaded : graph.Loaded) : graph.toJson.depth ≤ depthLimit := by
  refine Nat.succ_le_succ ((depthOfMembers_le_iff _ (depthLimit - 1)).2 fun member written => ?_)
  obtain ⟨⟨id, node⟩, entry, rfl⟩ := List.mem_map.1 written
  exact depth_record_le (loaded id node ((graph.mem_entries_iff id node).1 entry))

-- The text of a loaded workflow stands for what was printed, with its members in order.
theorem read?_of_loaded (loaded : graph.Loaded)
    (floats : ∀ x, Number.float x ∈ graph.toJson.numbers → (Number.float x).ReadsBack) :
    Json.read? graph.toText = some graph.toJson.sorted :=
  read?_of_reads (value_reads Style.indented_blank depthLimit 0 graph.toJson (depth_graph_le loaded)
    (numbers_readBack floats))

end Documents

end Graph.Document

namespace Graph

open Document

-- Every document that is read as a workflow and as a value, whatever its members are and however deep they are
-- nested. Of repeated members the last one is the value's, as `Json.read?` has it.
theorem read?_toText {text : String} {graph : Graph} {value : Json} (loaded : parse text = .ok graph)
    (generic : Json.read? text = some value)
    (floats : ∀ x, Number.float x ∈ graph.toJson.numbers → (Number.float x).ReadsBack) :
    Json.read? graph.toText = some value.saved := by
  obtain ⟨tree, written⟩ := written_of_workflow ((parse_eq_ok_iff text graph).1 loaded)
  have meant := (parse_eq_ok_iff_means written graph).1 loaded
  have made : tree.json? Json.Read.depthLimit = some value := (Json.read?_of_written written).symm.trans generic
  rw [saved_eq (parse_loaded loaded) (Json.stored_of_read? generic) made meant]
  exact read?_of_loaded (parse_loaded loaded) floats

def annotated : String :=
  "\x7b\"7\":\x7b\"x\":null,\"inputs\":\x7b\"a\":1,\"b\":[4,0.5],\"a\":[4,0]\x7d,\"class_type\":null," ++
  "\"_meta\":\x7b\"title\":\"T\",\"n\":1\x7d\x7d\x7d"

def annotatedGraph : Graph := (parse annotated).toOption.getD .empty

def annotatedValue : Json := (Json.read? annotated).getD .null

theorem annotated_saved : parse annotated = .ok annotatedGraph ∧ Json.read? annotated = some annotatedValue ∧
    half ∈ annotatedGraph.toJson.numbers ∧ half.ReadsBack ∧
    Json.read? annotatedGraph.toText = some annotatedValue.saved ∧ annotatedValue.saved.compact =
      "\x7b\"7\":\x7b\"_meta\":\x7b\"title\":\"T\"\x7d,\"inputs\":\x7b\"a\":[\"4\",0],\"b\":[4,0.5]\x7d,\"x\":null\x7d\x7d" := by
  have loaded : parse annotated = .ok annotatedGraph := by
    have loads : (parse annotated).toOption.isSome = true := by decide +kernel
    unfold annotatedGraph
    cases made : parse annotated with
    | ok graph => rfl
    | error failure => rw [made] at loads; cases loads
  have generic : Json.read? annotated = some annotatedValue := by
    have reads : (Json.read? annotated).isSome = true := by decide +kernel
    exact (Option.some_get reads).symm.trans (congrArg some (Option.get_eq_getD ..))
  have back : half ∈ annotatedGraph.toJson.numbers ∧ ∀ n ∈ annotatedGraph.toJson.numbers, n.ReadsBack := by
    decide +kernel
  exact ⟨loaded, generic, back.1, back.2 half back.1,
    read?_toText loaded generic fun x member => back.2 (.float x) member, by decide +kernel⟩

end Graph

end NodeFlow
