import NodeFlow.Proofs.Graph.Loaded
import NodeFlow.Proofs.Json.RoundTrip

namespace NodeFlow

open Json (Style Stored Gathers Reads)

theorem Table.ext {α : Type} {a b : Table α} (same : a.entries = b.entries) : a = b := by
  obtain ⟨entries, distinct⟩ := a
  obtain ⟨others, _⟩ := b
  cases same
  rfl

namespace Graph.Document

open Json.Read Json.Scan

variable {style : Style} {level : Nat}

theorem entries_gather {α : Type} {field : FieldReader (Table α)} {toJson : α → Json} (table : Table α)
    (each : ∀ name value, (name, value) ∈ table.entries → ∀ done : Table α,
      Reads (field done name) (':' :: (style.space ++ (toJson value).render style level)) (done.insert name value)) :
    Gathers style level field .empty (table.entries.map fun (name, value) => (name, toJson value)) table := by
  suffices along : ∀ (rest : List (String × α)) (done : Table α), table.entries = done.entries ++ rest →
      Gathers style level field done (rest.map fun (name, value) => (name, toJson value)) table from
    along table.entries .empty rfl
  intro rest
  induction rest with
  | nil =>
    intro done whole
    rw [List.append_nil] at whole
    rw [← Table.ext whole]
    exact .nil table
  | cons entry rest ih =>
    obtain ⟨name, value⟩ := entry
    intro done whole
    have fresh : name ∉ done.names := by
      have distinct := table.distinct
      rw [whole, names, List.map_append, List.nodup_append] at distinct
      intro member
      exact distinct.2.2 name member name (by simp) rfl
    refine .cons (each name value (by rw [whole]; simp) done) (ih (done.insert name value) ?_)
    rw [Table.insert_of_not_mem done name value fresh, whole, List.append_assoc, List.singleton_append]

theorem once_reads {α : Type} (name : String) {reader : Json.Reader α} {text : List Char} {made : α}
    (reads : Reads reader text made) : Reads (once none name reader) (':' :: text) made := by
  intro rest stops
  simp [once, colon_cons, bind, Except.bind, reads rest stops]

theorem braced_reads (wanted : Json.Wanted) (blank : style.Blank) {σ : Type} {field : FieldReader σ}
    {start final : σ} {members : List (String × Json)}
    (gathers : Gathers style (level + 1) field start members final) :
    Reads (braced wanted field start) (style.space ++ (Json.object members).render style level) final := by
  intro rest _
  obtain ⟨body, text, read⟩ := Json.object_reads blank gathers
  have opening := fun tail => skipBlank_cons (c := '{') tail (by decide)
  simp [braced, text, skipBlank_append blank.space, opening, read rest]

theorem optionalText_reads (level : Nat) (blank : style.Blank) (text : String) :
    Reads optionalText (style.space ++ (Json.string text).render style level) (some text) := by
  intro rest _
  have mark := fun tail => skipBlank_cons (c := '"') tail (by decide)
  have read := stringBody_quoted text rest
  simp [optionalText, optional, Json.render, Json.quote, skipBlank_append blank.space, mark, read, bind, Except.bind]

theorem sorted_toJson {value : InputValue} (held : InputRead value) : value.toJson.sorted = value.toJson := by
  cases value with
  | linked link => simp [InputValue.toJson, Json.sorted, Json.sortedItems]
  | literal literal => exact Json.sorted_of_canonical literal (held.2 literal rfl).canonical

theorem ofJson_sorted_toJson {value : InputValue} (held : InputRead value) :
    InputValue.ofJson value.toJson.sorted = value := by
  rw [sorted_toJson held]
  cases value with
  | linked link => simp [InputValue.ofJson, InputValue.linkShape?_toJson link]
  | literal literal => exact held.1

theorem toJson_depth_le {value : InputValue} (held : InputRead value) :
    value.toJson.depth ≤ depthLimit - 3 := by
  cases value with
  | linked link => simp [InputValue.toJson, Json.depth, Json.depthOfItems, depthLimit]
  | literal literal => exact (held.2 literal rfl).depth_le

theorem optionalInputs_reads (level : Nat) (blank : style.Blank) (inputs : Inputs) (held : InputsRead inputs)
    (readBack : ∀ n ∈ (Node.inputsJson inputs).numbers, n.ReadsBack) :
    Reads optionalInputs (style.space ++ (Node.inputsJson inputs).render style level) (some inputs) := by
  obtain ⟨members, written, gathers⟩ : ∃ members, Node.inputsJson inputs = .object members ∧
      Gathers style (level + 1) inputsField .empty members inputs := by
    refine ⟨_, rfl, entries_gather inputs fun name value member done => ?_⟩
    have input := held name value ((Table.mem_entries_iff inputs name value).1 member)
    have reads := Json.value_reads blank (depthLimit - 3) (level + 1) value.toJson (toJson_depth_le input)
      fun n found => readBack n ((Json.mem_numbersOfMembers _ n).2
        ⟨(name, value.toJson), List.mem_map.2 ⟨_, member, rfl⟩, found⟩)
    have kept := Json.keptField_reads blank (fun (inputs : Inputs) name value =>
      inputs.insert name (InputValue.ofJson value)) done name reads
    rwa [ofJson_sorted_toJson input] at kept
  intro rest _
  obtain ⟨body, text, read⟩ := Json.object_reads blank gathers
  have opening := fun tail => skipBlank_cons (c := '{') tail (by decide)
  simp [optionalInputs, optional, written, text, skipBlank_append blank.space, opening, read rest, bind,
    Except.bind]

theorem optionalMetadata_reads (level : Nat) (blank : style.Blank) (metadata : Metadata) :
    Reads optionalMetadata (style.space ++ (Node.metadataJson metadata).render style level) (some metadata) := by
  obtain ⟨title⟩ := metadata
  have opening := fun tail => skipBlank_cons (c := '{') tail (by decide)
  cases title with
  | none =>
    have gathers : Gathers style (level + 1) titleField none [] none := .nil none
    intro rest _
    obtain ⟨body, text, read⟩ := Json.object_reads blank gathers
    simp [optionalMetadata, optional, Node.metadataJson, text, skipBlank_append blank.space, opening, read rest,
      bind, Except.bind]
  | some title =>
    have field : Reads (titleField none "title")
        (':' :: (style.space ++ (Json.string title).render style (level + 1))) (some (some title)) := by
      intro rest stops
      have one := once_reads "title" (optionalText_reads (level + 1) blank title) rest stops
      simp only [List.cons_append, List.append_assoc] at one
      simp [titleField, one, bind, Except.bind]
    intro rest _
    obtain ⟨body, text, read⟩ := Json.object_reads blank (.cons field (.nil _))
    simp [optionalMetadata, optional, Node.metadataJson, text, skipBlank_append blank.space, opening, read rest,
      bind, Except.bind]

-- The draft after the members that have a meaning and some of the others.
def draftOf (node : Node) (extra : List (String × Json)) : Draft :=
  ⟨node.classField.map some, node.inputs.map some, node.metadata.map some, extra⟩

theorem draftOf_node (node : Node) : (draftOf node node.extra).node = node := by
  obtain ⟨classField, inputs, metadata, extra⟩ := node
  cases classField <;> cases inputs <;> cases metadata <;> rfl

theorem class_gather (level : Nat) (blank : style.Blank) (classField : Option String) :
    Gathers style level recordField .empty
      (match classField with
        | some name => [("class_type", Json.string name)]
        | none => [])
      ⟨classField.map some, none, none, []⟩ := by
  cases classField with
  | none => exact .nil _
  | some name =>
    refine .cons ?_ (.nil _)
    intro rest stops
    have one := once_reads "class_type" (optionalText_reads level blank name) rest stops
    simp only [List.cons_append, List.append_assoc] at one
    simp [recordField, Draft.empty, one, bind, Except.bind]

theorem inputs_gather (level : Nat) (blank : style.Blank) (node : Node) (classField : Option (Option String))
    (held : ∀ table, node.inputs = some table → InputsRead table)
    (readBack : ∀ table, node.inputs = some table → ∀ n ∈ (Node.inputsJson table).numbers, n.ReadsBack) :
    Gathers style level recordField ⟨classField, none, none, []⟩
      (match node.inputs with
        | some table => [("inputs", Node.inputsJson table)]
        | none => [])
      ⟨classField, node.inputs.map some, none, []⟩ := by
  cases field : node.inputs with
  | none => exact .nil _
  | some table =>
    refine .cons ?_ (.nil _)
    intro rest stops
    have one := once_reads "inputs" (optionalInputs_reads level blank table
      (held table field) (readBack table field)) rest stops
    simp only [List.cons_append, List.append_assoc] at one
    simp [recordField, one, bind, Except.bind]

theorem metadata_gather (level : Nat) (blank : style.Blank) (metadata : Option Metadata)
    (classField : Option (Option String)) (inputs : Option (Option Inputs)) :
    Gathers style level recordField ⟨classField, inputs, none, []⟩
      (match metadata with
        | some metadata => [("_meta", Node.metadataJson metadata)]
        | none => [])
      ⟨classField, inputs, metadata.map some, []⟩ := by
  cases metadata with
  | none => exact .nil _
  | some metadata =>
    refine .cons ?_ (.nil _)
    intro rest stops
    have one := once_reads "_meta" (optionalMetadata_reads level blank metadata) rest stops
    simp only [List.cons_append, List.append_assoc] at one
    simp [recordField, one, bind, Except.bind]

-- The extra members stand in ascending order, so each comes behind those before it.
theorem extra_gather (level : Nat) (blank : style.Blank) (draft : Draft) (members : List (String × Json))
    (ascending : Json.Ascending (draft.extra ++ members))
    (unreserved : ∀ member ∈ members, member.1 ∉ reservedNames)
    (stored : ∀ member ∈ members, member.2.Stored (depthLimit - 2))
    (readBack : ∀ n ∈ Json.numbersOfMembers members, n.ReadsBack) :
    Gathers style level recordField draft members { draft with extra := draft.extra ++ members } := by
  induction members generalizing draft with
  | nil => rw [List.append_nil]; exact .nil draft
  | cons member others ih =>
    obtain ⟨name, value⟩ := member
    have held := stored (name, value) List.mem_cons_self
    have reads := Json.value_reads blank (depthLimit - 2) level value held.depth_le
      fun n found => readBack n (List.mem_append_left _ found)
    rw [Json.sorted_of_canonical value held.canonical] at reads
    have field : Reads (recordField draft name) (':' :: (style.space ++ value.render style level))
        { draft with extra := draft.extra ++ [(name, value)] } := by
      intro rest stops
      have free := unreserved (name, value) List.mem_cons_self
      simp only [reservedNames, List.mem_cons, not_or] at free
      have kept := Json.keptField_reads blank (fun draft name value =>
        { draft with extra := Json.insertMember name value draft.extra }) draft name reads rest stops
      rw [Json.insertMember_last name value draft.extra ascending.behind] at kept
      simpa only [recordField, free.1, free.2.1, free.2.2.1, if_false] using kept
    refine .cons field ?_
    have rest := ih { draft with extra := draft.extra ++ [(name, value)] }
      (by simpa using ascending) (fun member later => unreserved member (List.mem_cons_of_mem _ later))
      (fun member later => stored member (List.mem_cons_of_mem _ later))
      (fun n found => readBack n (List.mem_append_right _ found))
    simpa using rest

theorem inputsRead_of_loaded {node : Node} (loaded : node.Loaded) (table : Inputs)
    (field : node.inputs = some table) : InputsRead table := by
  intro name value found
  have look : node.input? name = some value := by simp [Node.input?, field, found]
  refine ⟨loaded.normal name value look, ?_⟩
  intro literal same
  subst same
  exact loaded.literals name literal look

theorem record_reads (level : Nat) (blank : style.Blank) (node : Node) (loaded : node.Loaded)
    (readBack : ∀ n ∈ node.toJson.numbers, n.ReadsBack) :
    Reads record (style.space ++ node.toJson.render style level) node := by
  have parts := readBack
  simp only [Node.toJson, Json.numbers, Json.numbersOfMembers_append, List.mem_append] at parts
  have inputsBack : ∀ table, node.inputs = some table → ∀ n ∈ (Node.inputsJson table).numbers, n.ReadsBack := by
    intro table field n found
    refine parts n (.inl (.inl (.inr ?_)))
    rw [field]
    exact List.mem_append_left _ found
  have classes := class_gather (level + 1) blank node.classField
  have inputs := inputs_gather (level + 1) blank node (node.classField.map some)
    (inputsRead_of_loaded loaded) inputsBack
  have metadata := metadata_gather (level + 1) blank node.metadata (node.classField.map some)
    (node.inputs.map some)
  have extra := extra_gather (level + 1) blank (draftOf node []) node.extra loaded.ascending
    loaded.unreserved loaded.extras fun n found => parts n (.inr found)
  have gathers := ((classes.append inputs).append metadata).append extra
  intro rest stops
  have one := braced_reads (.record "NodeInstance") blank gathers rest stops
  have made : (draftOf node ([] ++ node.extra)).node = node := draftOf_node node
  exact (bind_eq_ok_iff _ _ _).2 ⟨_, one, congrArg (fun node => Except.ok (node, rest)) made⟩

theorem workflow_skipBlank {gap : List Char} (blank : ∀ c ∈ gap, isBlank c = true) (text : List Char) :
    workflow (gap ++ text) = workflow text := by
  unfold workflow braced
  rw [skipBlank_append blank]

theorem workflow_reads (style : Style) (level : Nat) (blank : style.Blank) (graph : Graph) (loaded : graph.Loaded)
    (readBack : ∀ n ∈ graph.toJson.numbers, n.ReadsBack) :
    Reads workflow (style.space ++ graph.toJson.render style level) graph := by
  obtain ⟨members, written, gathers⟩ : ∃ members, graph.toJson = .object members ∧
      Gathers style (level + 1) nodeField .empty members graph.nodes := by
    refine ⟨_, rfl, entries_gather graph.nodes fun id node member done => ?_⟩
    have held := loaded id node ((graph.mem_entries_iff id node).1 member)
    have reads := record_reads (level + 1) blank node held fun n found => readBack n
      ((Json.mem_numbersOfMembers _ n).2 ⟨(id, node.toJson), List.mem_map.2 ⟨_, member, rfl⟩, found⟩)
    intro rest stops
    have one := reads rest stops
    simp only [List.append_assoc] at one
    simp [nodeField, colon_cons, one, bind, Except.bind]
  intro rest stops
  have one := braced_reads .mapping blank gathers rest stops
  simp only [written, workflow]
  rw [one]
  rfl

end Graph.Document

namespace Graph

-- Integers always read back, so that only floats are left to ask about.
theorem numbers_readBack {numbers : List Number} (floats : ∀ x, Number.float x ∈ numbers →
    (Number.float x).ReadsBack) : ∀ n ∈ numbers, n.ReadsBack := by
  intro n member
  cases n with
  | integer value fits => exact Number.integer_readsBack value fits
  | float x => exact floats x member

theorem parse_toText {graph : Graph} (loaded : graph.Loaded)
    (floats : ∀ x, Number.float x ∈ graph.toJson.numbers → (Number.float x).ReadsBack) :
    parse graph.toText = .ok graph := by
  have reads : Reads Document.workflow (graph.toJson.render .indented 0) graph := by
    intro rest stops
    have read := Document.workflow_reads .indented 0 Json.Style.indented_blank graph loaded (numbers_readBack floats)
    rw [← Document.workflow_skipBlank Json.Style.indented_blank.space, ← List.append_assoc]
    exact read rest stops
  rw [parse_eq_ok_iff, toText, Json.indented, String.toList_ofList]
  exact Json.whole_of_reads reads

-- Printing a loaded workflow and reading it gives the same workflow and then the same text, provided
-- that the floats in it are read as they are printed.
theorem parse_toText_of_parse {text : String} {graph : Graph} (read : parse text = .ok graph)
    (floats : ∀ x, Number.float x ∈ graph.toJson.numbers → (Number.float x).ReadsBack) :
    parse graph.toText = .ok graph ∧ (parse graph.toText).map toText = .ok graph.toText := by
  have again := parse_toText (parse_loaded read) floats
  exact ⟨again, by rw [again]; rfl⟩

def scribbled : String :=
  "\x7b\"7\":\x7b\"x\":null,\"inputs\":\x7b\"scale\":0.5,\"image\":[4,0]\x7d,\"class_type\":null,\"_meta\":[]\x7d\x7d"

def scribbledGraph : Graph := (parse scribbled).toOption.getD .empty

def half : Number := .float ⟨false, 0x3fe0000000000000, by decide⟩

theorem scribbled_round_trip : parse scribbled = .ok scribbledGraph ∧ half ∈ scribbledGraph.toJson.numbers ∧
    half.ReadsBack ∧ parse scribbledGraph.toText = .ok scribbledGraph ∧
    (parse scribbledGraph.toText).map toText = .ok scribbledGraph.toText := by
  have read : parse scribbled = .ok scribbledGraph := by
    have loads : (parse scribbled).toOption.isSome = true := by decide +kernel
    unfold scribbledGraph
    cases made : parse scribbled with
    | ok graph => rfl
    | error failure => rw [made] at loads; cases loads
  have back : ∀ n ∈ scribbledGraph.toJson.numbers, n.ReadsBack := by decide +kernel
  have held : half ∈ scribbledGraph.toJson.numbers := by decide +kernel
  obtain ⟨again, same⟩ := parse_toText_of_parse read fun x member => back (.float x) member
  exact ⟨read, held, back half held, again, same⟩

end Graph

end NodeFlow
