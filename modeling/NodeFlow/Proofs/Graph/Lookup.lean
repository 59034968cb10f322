import NodeFlow.Graph.Basic

namespace NodeFlow

theorem Table.isEmpty_eq_false_iff {α : Type} (table : Table α) :
    table.isEmpty = false ↔ ∃ name value, table.get? name = some value := by
  simp only [← Table.mem_entries_iff]
  unfold Table.isEmpty
  cases table.entries with
  | nil => simp
  | cons entry rest => simpa using ⟨entry.1, entry.2, .inl rfl⟩

namespace Node

theorem classType_eq_some_iff (node : Node) (name : String) :
    node.classType = some name ↔ node.classField = some name ∧ name ≠ "" := by
  unfold classType
  rw [Option.filter_eq_some_iff]
  simp

theorem mem_inputEntries_iff (node : Node) (name : String) (value : InputValue) :
    (name, value) ∈ node.inputEntries ↔ node.input? name = some value := by
  unfold inputEntries input?
  cases node.inputs with
  | none => simp
  | some inputs => exact Table.mem_entries_iff inputs name value

theorem link?_eq_some_iff (value : InputValue) (link : Link) :
    value.link? = some link ↔ value = .linked link := by
  cases value <;> simp [InputValue.link?]

theorem mem_links_iff (node : Node) (name : String) (link : Link) :
    (name, link) ∈ node.links ↔ node.input? name = some (.linked link) := by
  rw [← mem_inputEntries_iff]
  constructor
  · intro member
    obtain ⟨⟨other, value⟩, entry, made⟩ := List.mem_filterMap.1 member
    obtain ⟨found, isLink, equal⟩ := Option.map_eq_some_iff.1 made
    obtain ⟨rfl, rfl⟩ := Prod.mk.inj equal
    rwa [← (link?_eq_some_iff value found).1 isLink]
  · intro entry
    exact List.mem_filterMap.2 ⟨_, entry, rfl⟩

end Node

namespace Graph

theorem mem_entries_iff (graph : Graph) (id : String) (node : Node) :
    (id, node) ∈ graph.nodes.entries ↔ graph.node? id = some node :=
  Table.mem_entries_iff graph.nodes id node

theorem contains_iff (graph : Graph) (id : String) :
    graph.contains id = true ↔ ∃ node, graph.node? id = some node :=
  Option.isSome_iff_exists

theorem contains_iff_mem_ids (graph : Graph) (id : String) : graph.contains id = true ↔ id ∈ graph.ids :=
  Table.contains_iff graph.nodes id

theorem isEmpty_eq_false_iff (graph : Graph) :
    graph.isEmpty = false ↔ ∃ id node, graph.node? id = some node :=
  Table.isEmpty_eq_false_iff graph.nodes

theorem ids_nodup (graph : Graph) : graph.ids.Nodup := graph.nodes.distinct

end Graph

end NodeFlow
