import NodeFlow.Proofs.Graph.Equality
import NodeFlow.Proofs.Graph.RoundTrip
import NodeFlow.Proofs.Json.Reread

namespace NodeFlow

open Json (Style Yields Leads Gathers Reads)
open Json.Read (depthLimit)

-- What is known of a literal, and what more if its owner was read as an equal one.
structure Json.Kept (literal : Json) (equal : Bool) : Prop where
  depth_le : literal.depth ≤ depthLimit - 3
  readBack : equal = true → ∀ n ∈ literal.numbers, n.ReadsBack

def InputValue.Reread (value read : InputValue) : Prop :=
  ∀ literal, value = .literal literal → literal.Kept (read.same value)

def Inputs.Reread (inputs read : Inputs) : Prop :=
  ∀ name literal, inputs.get? name = some (.literal literal) → literal.Kept (read.sameEntries InputValue.same inputs)

def Node.Reread (node read : Node) : Prop :=
  ∀ name literal, node.input? name = some (.literal literal) → literal.Kept (read.same node)

def Graph.Reread (graph read : Graph) : Prop :=
  ∀ id node, graph.node? id = some node → ∀ name literal, node.input? name = some (.literal literal) →
    literal.Kept (read.same graph)

theorem Json.Kept.mono {literal : Json} {equal other : Bool} (kept : literal.Kept equal)
    (weaker : other = true → equal = true) : literal.Kept other :=
  ⟨kept.depth_le, fun holds => kept.readBack (weaker holds)⟩

namespace Graph.Document

open Json.Read Json.Scan

variable {style : Style} {level : Nat}

def EntriesRead {α : Type} (P : α → α → Prop) (entries : List (String × α)) (final : Table α) : Prop :=
  ∀ name value, (name, value) ∈ entries → ∃ read, final.get? name = some read ∧ P value read

theorem EntriesRead.insert {α : Type} {P : α → α → Prop} {entries : List (String × α)} {done : Table α}
    (held : EntriesRead P entries done) {name : String} {value read : α} (fresh : ∀ entry ∈ entries, entry.1 ≠ name)
    (holds : P value read) : EntriesRead P (entries ++ [(name, value)]) (done.insert name read) := by
  intro other old member
  rw [Table.get?_insert]
  rcases List.mem_append.1 member with earlier | new
  · rw [if_neg (fresh _ earlier)]
    exact held other old earlier
  · cases List.mem_singleton.1 new
    exact ⟨read, if_pos rfl, holds⟩

theorem entries_lead {α : Type} {field : FieldReader (Table α)} {toJson : α → Json} {P : α → α → Prop}
    (table : Table α) (each : ∀ name value, (name, value) ∈ table.entries → ∀ done : Table α,
      Yields (field done name) (':' :: (style.space ++ (toJson value).render style level))
        fun next => ∃ read, P value read ∧ next = done.insert name read) :
    Leads style level field (EntriesRead P table.entries) .empty
      (table.entries.map fun (name, value) => (name, toJson value)) := by
  suffices along : ∀ (rest before : List (String × α)) (done : Table α), table.entries = before ++ rest →
      EntriesRead P before done → Leads style level field (EntriesRead P table.entries) done
        (rest.map fun (name, value) => (name, toJson value)) from
    along table.entries [] .empty rfl nofun
  intro rest
  induction rest with
  | nil =>
    intro before done whole held
    rw [List.append_nil] at whole
    rw [whole]
    exact held
  | cons entry rest ih =>
    obtain ⟨name, value⟩ := entry
    intro before done whole held
    have distinct := table.distinct
    rw [whole, names, List.map_append, List.nodup_append] at distinct
    have fresh : ∀ entry ∈ before, entry.1 ≠ name := fun entry member =>
      distinct.2.2 entry.1 (List.mem_map_of_mem member) name (by simp)
    refine (each name value (by rw [whole]; simp) done).mono ?_
    rintro next ⟨read, holds, rfl⟩
    exact ih (before ++ [(name, value)]) _ (by rw [whole]; simp) (held.insert fresh holds)

theorem braced_yields (wanted : Json.Wanted) (blank : style.Blank) {σ : Type} {field : FieldReader σ} {P : σ → Prop}
    {start : σ} {members : List (String × Json)} (leads : Leads style (level + 1) field P start members) :
    Yields (braced wanted field start) (style.space ++ (Json.object members).render style level) P := by
  intro rest made after _ done
  obtain ⟨body, text, yields⟩ := Json.object_yields blank leads
  have opening := fun tail => skipBlank_cons (c := '{') tail (by decide)
  simp only [braced, text, List.append_assoc, List.cons_append, skipBlank_append blank.space, opening, if_true] at done
  exact yields _ _ _ done

theorem once_yields {α : Type} (name : String) {reader : Json.Reader α} {text : List Char} {P : α → Prop}
    (yields : Yields reader text P) : Yields (once none name reader) (':' :: text) P := by
  intro rest made after stops done
  simp only [once, List.cons_append, colon_cons, bind, Except.bind] at done
  exact yields rest made after stops done

theorem same_of_ofJson {value literal : Json} (equal : (InputValue.ofJson value).same (.literal literal) = true) :
    value.same literal = true := by
  unfold InputValue.ofJson at equal
  split at equal
  · cases equal
  · exact equal

theorem canonical_toJson {value : InputValue} (canonical : ∀ literal, value = .literal literal → literal.Canonical) :
    value.toJson.Canonical := by
  cases value with
  | linked link => simp [InputValue.toJson, Json.Canonical, Json.CanonicalItems]
  | literal literal => exact canonical literal rfl

theorem input_yields (level : Nat) (blank : style.Blank) (value : InputValue)
    (canonical : ∀ literal, value = .literal literal → literal.Canonical) (name : String) (done : Inputs) :
    Yields (inputsField done name) (':' :: (style.space ++ value.toJson.render style level))
      fun next => ∃ read, value.Reread read ∧ next = done.insert name read := by
  have yields := Json.keptField_yields blank (fun (inputs : Inputs) name value =>
    inputs.insert name (InputValue.ofJson value)) done name
    (Json.value_yields blank (depthLimit - 3) level value.toJson (canonical_toJson canonical))
  refine yields.mono ?_
  rintro next ⟨read, reread, rfl⟩
  refine ⟨InputValue.ofJson read, ?_, rfl⟩
  intro literal same
  subst same
  exact ⟨reread.depth_le, fun equal => reread.readBack (same_of_ofJson equal)⟩

theorem optionalInputs_yields (level : Nat) (blank : style.Blank) (inputs : Inputs)
    (canonical : ∀ name literal, inputs.get? name = some (.literal literal) → literal.Canonical) :
    Yields optionalInputs (style.space ++ (Node.inputsJson inputs).render style level)
      fun found => ∃ read, inputs.Reread read ∧ found = some read := by
  have each : ∀ name value, (name, value) ∈ inputs.entries → ∀ done : Inputs, Yields (inputsField done name)
      (':' :: (style.space ++ value.toJson.render style (level + 1)))
      fun next => ∃ read, value.Reread read ∧ next = done.insert name read := by
    intro name value member done
    have found := (Table.mem_entries_iff inputs name value).1 member
    exact input_yields (level + 1) blank value (fun literal same => canonical name literal (same ▸ found)) name done
  intro rest made after _ done
  obtain ⟨body, text, yields⟩ := Json.object_yields blank (entries_lead inputs each)
  have opening := fun tail => skipBlank_cons (c := '{') tail (by decide)
  rw [Node.inputsJson, text] at done
  simp only [optionalInputs, optional, List.append_assoc, List.cons_append, skipBlank_append blank.space, opening,
    Char.reduceEq, if_false, if_true] at done
  obtain ⟨⟨read, behind⟩, one, done⟩ := (bind_eq_ok_iff _ _ _).1 done
  cases done
  obtain ⟨rfl, rereads⟩ := yields _ _ _ one
  refine ⟨rfl, read, ?_, rfl⟩
  intro name literal found
  obtain ⟨value, present, reread⟩ := rereads name _ ((Table.mem_entries_iff inputs name _).2 found)
  exact (reread literal rfl).mono fun equal => Table.same_of_sameEntries equal present found

def InputsReread (node : Node) (draft : Draft) : Prop :=
  ∃ inputs, draft = ⟨node.classField.map some, inputs, none, []⟩ ∧
    ∀ table, node.inputs = some table → ∃ read, table.Reread read ∧ inputs = some (some read)

theorem inputs_lead (level : Nat) (blank : style.Blank) (node : Node)
    (canonical : ∀ name literal, node.input? name = some (.literal literal) → literal.Canonical) :
    Leads style level recordField (InputsReread node) ⟨node.classField.map some, none, none, []⟩
      (match node.inputs with
        | some table => [("inputs", Node.inputsJson table)]
        | none => []) := by
  cases field : node.inputs with
  | none => exact ⟨none, rfl, by rw [field]; nofun⟩
  | some table =>
    have each : ∀ name literal, table.get? name = some (.literal literal) → literal.Canonical :=
      fun name literal found => canonical name literal (by simp [Node.input?, field, found])
    intro rest made after stops done
    simp only [recordField, String.reduceEq, if_false, if_true] at done
    obtain ⟨⟨found, behind⟩, one, done⟩ := (bind_eq_ok_iff _ _ _).1 done
    cases done
    obtain ⟨rfl, read, reread, rfl⟩ :=
      once_yields "inputs" (optionalInputs_yields level blank table each) rest found _ stops one
    refine ⟨rfl, some (some read), rfl, ?_⟩
    intro other same
    rw [field] at same
    cases same
    exact ⟨read, reread, rfl⟩

theorem draft_reread {node : Node} {inputs : Option (Option Inputs)} (classField : Option (Option String))
    (metadata : Option (Option Metadata)) (extra : List (String × Json))
    (held : ∀ table, node.inputs = some table → ∃ read, table.Reread read ∧ inputs = some (some read)) :
    node.Reread (Draft.node ⟨classField, inputs, metadata, extra⟩) := by
  intro name literal found
  obtain ⟨table, field, look⟩ := Option.bind_eq_some_iff.1 found
  obtain ⟨read, reread, rfl⟩ := held table field
  refine (reread name literal look).mono ?_
  intro equal
  simp only [Node.same, Draft.node, Option.join_some, field, Bool.and_eq_true] at equal
  exact equal.1.1.2

theorem metadata_lead (level : Nat) (blank : style.Blank) (node : Node) {draft : Draft}
    (reread : InputsReread node draft) : Leads style level recordField (fun draft => node.Reread draft.node) draft
      (match node.metadata with
        | some metadata => [("_meta", Node.metadataJson metadata)]
        | none => []) := by
  obtain ⟨inputs, rfl, held⟩ := reread
  exact (metadata_gather level blank node.metadata (node.classField.map some) inputs).leads
    (draft_reread _ _ _ held)

theorem record_yields (level : Nat) (blank : style.Blank) (node : Node) (plain : node.extra = [])
    (canonical : ∀ name literal, node.input? name = some (.literal literal) → literal.Canonical) :
    Yields record (style.space ++ node.toJson.render style level) node.Reread := by
  have classes : Leads style (level + 1) recordField (· = ⟨node.classField.map some, none, none, []⟩) .empty _ :=
    (class_gather (level + 1) blank node.classField).leads rfl
  have inputs := classes.append fun next same => same ▸ inputs_lead (level + 1) blank node canonical
  have metadata := inputs.append fun next reread => metadata_lead (level + 1) blank node reread
  have leads : Leads style (level + 1) recordField (fun draft => node.Reread draft.node) .empty (_ ++ node.extra) :=
    metadata.append fun next reread => by rw [plain]; exact reread
  intro rest made after stops done
  obtain ⟨⟨draft, behind⟩, one, done⟩ := (bind_eq_ok_iff _ _ _).1 done
  cases done
  exact braced_yields (.record "NodeInstance") blank leads rest draft _ stops one

theorem node_yields {node : Node} {text : List Char} (yields : Yields record text node.Reread) {nodes : Table Node}
    {id : String} : Yields (nodeField nodes id) (':' :: text)
      fun next => ∃ read, node.Reread read ∧ next = nodes.insert id read := by
  intro rest made after stops done
  obtain ⟨behind, punctuated, done⟩ := (bind_eq_ok_iff _ _ _).1 done
  obtain ⟨⟨read, behind⟩, one, done⟩ := (bind_eq_ok_iff _ _ _).1 done
  cases done
  rw [List.cons_append, colon_cons] at punctuated
  cases punctuated
  exact (yields rest read _ stops one).imp_right fun reread => ⟨read, reread, rfl⟩

theorem workflow_yields (level : Nat) (blank : style.Blank) (graph : Graph)
    (plain : ∀ id node, graph.node? id = some node → node.extra = [])
    (canonical : ∀ id node, graph.node? id = some node → ∀ name literal,
      node.input? name = some (.literal literal) → literal.Canonical) :
    Yields workflow (style.space ++ graph.toJson.render style level) graph.Reread := by
  have each : ∀ id node, (id, node) ∈ graph.nodes.entries → ∀ done : Table Node, Yields (nodeField done id)
      (':' :: (style.space ++ node.toJson.render style (level + 1)))
      fun next => ∃ read, node.Reread read ∧ next = done.insert id read := by
    intro id node member _
    have found := (graph.mem_entries_iff id node).1 member
    exact node_yields (record_yields (level + 1) blank node (plain id node found) (canonical id node found))
  intro rest made after stops done
  obtain ⟨⟨nodes, behind⟩, one, done⟩ := (bind_eq_ok_iff _ _ _).1 done
  cases done
  obtain ⟨rfl, rereads⟩ := braced_yields .mapping blank (entries_lead graph.nodes each) rest nodes _ stops one
  refine ⟨rfl, ?_⟩
  intro id node found name literal look
  obtain ⟨read, present, reread⟩ := rereads id node ((graph.mem_entries_iff id node).2 found)
  exact (reread name literal look).mono fun equal => Table.same_of_sameEntries equal present found

end Graph.Document

end NodeFlow
