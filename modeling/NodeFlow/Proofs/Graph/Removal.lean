import Mathlib.Data.List.Basic
import NodeFlow.Proofs.Graph.NormalForm
import NodeFlow.Proofs.Validation.Parts

namespace NodeFlow

namespace InputValue

def linksTo (value : InputValue) (id : String) : Bool := value.link?.any fun link => link.source == id

theorem linksTo_iff (value : InputValue) (id : String) :
    value.linksTo id = true ↔ ∃ slot, value = .linked ⟨id, slot⟩ := by
  cases value with
  | linked link =>
    constructor
    · intro hit
      have same : link.source = id := by simpa [linksTo, link?] using hit
      exact ⟨link.slot, by rw [← same]⟩
    · intro linked
      obtain ⟨slot, same⟩ := linked
      cases same
      simp [linksTo, link?]
  | literal value => simp [linksTo, link?]

theorem Normal.ofJson_toJson {value : InputValue} (normal : value.Normal) : ofJson value.toJson = value := by
  cases value with
  | linked link => simp only [ofJson, linkShape?_toJson]
  | literal value => exact normal

end InputValue

-- The inputs that link to a node are gone, and all others stand as they stood.
structure Node.Unlinked (old new : Node) (id : String) : Prop where
  classField : new.classField = old.classField
  metadata : new.metadata = old.metadata
  extra : new.extra = old.extra
  held : new.inputs.isSome = old.inputs.isSome
  others : new.inputEntries = old.inputEntries.filter fun entry => !entry.2.linksTo id

namespace Node

variable (node : Node) (id : String)

theorem unlinked_dropLinksTo : node.Unlinked (node.dropLinksTo id) id := by
  refine ⟨rfl, rfl, rfl, Option.isSome_map, ?_⟩
  unfold inputEntries dropLinksTo
  cases node.inputs with
  | none => rfl
  | some inputs =>
    refine List.filter_congr fun entry _ => ?_
    obtain ⟨name, value⟩ := entry
    cases value <;> rfl

theorem links_dropLinksTo :
    (node.dropLinksTo id).links = node.links.filter fun entry => entry.2.source != id := by
  unfold links
  rw [(node.unlinked_dropLinksTo id).others, List.filterMap_filter, List.filter_filterMap]
  refine List.filterMap_congr fun entry _ => ?_
  obtain ⟨name, value⟩ := entry
  cases value with
  | linked link => by_cases same : link.source = id <;> simp [InputValue.linksTo, InputValue.link?, Option.filter, same]
  | literal value => simp [InputValue.linksTo, InputValue.link?]

end Node

namespace Graph

variable {graph next : Graph} {id : String}

theorem entries_remove (removed : graph.remove? id = some next) : next.nodes.entries =
    (graph.nodes.entries.filter fun entry => entry.1 != id).map fun entry => (entry.1, entry.2.dropLinksTo id) := by
  obtain ⟨_, rfl⟩ := (graph.remove?_eq_some_iff id next).1 removed
  rfl

theorem ids_remove (removed : graph.remove? id = some next) : next.ids = graph.ids.filter (· != id) := by
  rw [ids, Table.names, names, entries_remove removed, List.map_map, ids, Table.names, names, List.filter_map]
  rfl

theorem contains_remove (removed : graph.remove? id = some next) {other : String} (apart : other ≠ id) :
    next.contains other = graph.contains other := by
  rw [Bool.eq_iff_iff, contains_iff_mem_ids, contains_iff_mem_ids, ids_remove removed, List.mem_filter]
  simp [apart]

-- A link to the removed node was no finding, and the sources of the other links are there or not as before.
theorem danglingIssues_remove (removed : graph.remove? id = some next) (other : String) (node : Node) :
    next.danglingIssues other (node.dropLinksTo id) = graph.danglingIssues other node := by
  have present := ((graph.remove?_eq_some_iff id next).1 removed).1
  unfold danglingIssues
  rw [node.links_dropLinksTo, List.filterMap_filter]
  refine List.filterMap_congr fun entry _ => ?_
  by_cases same : entry.2.source = id
  · simp [same, present]
  · simp [same, contains_remove removed same]

theorem structuralIssuesOf_remove (removed : graph.remove? id = some next) (other : String) (node : Node) :
    next.structuralIssuesOf other (node.dropLinksTo id) = graph.structuralIssuesOf other node := by
  have inputs : (node.dropLinksTo id).inputs.isNone = node.inputs.isNone := Option.isNone_map
  have classType : (node.dropLinksTo id).classType = node.classType := rfl
  rw [structuralIssuesOf, structuralIssuesOf, inputs, classType, danglingIssues_remove removed]

theorem structuralIssues_remove (removed : graph.remove? id = some next) :
    next.structuralIssues = graph.structuralIssues.filter fun issue => issue.nodeId != id := by
  rw [graph.structuralIssues_elsewhere id, structuralIssues, entries_remove removed, List.flatMap_map]
  exact List.flatMap_congr fun entry _ => structuralIssuesOf_remove removed entry.1 entry.2

structure Without (before : Graph) (id : String) (after : Graph) : Prop where
  ids : after.ids = before.ids.filter (· != id)
  nodes : ∀ other new, after.node? other = some new →
    ∃ old, before.node? other = some old ∧ old.Unlinked new id
  -- As the input is held, and as it would be read again from its wire form.
  unlinked : ∀ other new name value, after.node? other = some new → new.input? name = some value →
    ∀ slot, value ≠ .linked ⟨id, slot⟩ ∧ InputValue.ofJson value.toJson ≠ .linked ⟨id, slot⟩
  findings : after.selfCheck.2 = before.selfCheck.2.filter fun issue => issue.nodeId != id
  verdict : after.selfCheck.1 = after.selfCheck.2.isEmpty
  -- A link without a source was there before, and had none then.
  dangling : ∀ other new name link, after.node? other = some new → new.input? name = some (.linked link) →
    link.source ∉ after.ids → link.source ∉ before.ids ∧
      ∃ old, before.node? other = some old ∧ old.input? name = some (.linked link)

theorem old_of_remove (removed : graph.remove? id = some next) {other : String} {new : Node}
    (found : next.node? other = some new) : ∃ old, graph.node? other = some old ∧ new = old.dropLinksTo id := by
  rw [node?_remove graph removed] at found
  split at found
  · cases found
  · obtain ⟨old, held, rfl⟩ := Option.map_eq_some_iff.1 found
    exact ⟨old, held, rfl⟩

theorem input?_of_remove (removed : graph.remove? id = some next) {other name : String} {new : Node}
    {value : InputValue} (found : next.node? other = some new) (look : new.input? name = some value) :
    ∃ old, graph.node? other = some old ∧ old.input? name = some value ∧ value.linksTo id = false := by
  obtain ⟨old, held, rfl⟩ := old_of_remove removed found
  rw [← Node.mem_inputEntries_iff, (old.unlinked_dropLinksTo id).others, List.mem_filter] at look
  exact ⟨old, held, (old.mem_inputEntries_iff name value).1 look.1, by simpa using look.2⟩

theorem without_of_remove (reached : Reached graph) (removed : graph.remove? id = some next) :
    graph.Without id next := by
  refine ⟨ids_remove removed, ?_, ?_, structuralIssues_remove removed, rfl, ?_⟩
  · intro other new found
    obtain ⟨old, held, rfl⟩ := old_of_remove removed found
    exact ⟨old, held, old.unlinked_dropLinksTo id⟩
  · intro other new name value found look slot
    obtain ⟨old, held, kept, apart⟩ := input?_of_remove removed found look
    have normal := (reached.tidy other old held).normal name value kept
    have unlinked : value ≠ .linked ⟨id, slot⟩ := fun same =>
      Bool.eq_false_iff.1 apart ((value.linksTo_iff id).2 ⟨slot, same⟩)
    exact ⟨unlinked, by rwa [normal.ofJson_toJson]⟩
  · intro other new name link found look absent
    obtain ⟨old, held, kept, apart⟩ := input?_of_remove removed found look
    have elsewhere : link.source ≠ id := by
      simpa [InputValue.linksTo, InputValue.link?] using apart
    refine ⟨fun present => absent ?_, old, held, kept⟩
    rw [ids_remove removed, List.mem_filter]
    exact ⟨present, by simpa using elsewhere⟩

theorem remove_exact (reached : Reached graph) (id : String) :
    (id ∈ graph.ids → ∃ next, graph.apply (.remove id) = (next, .done) ∧ graph.Without id next) ∧
    (id ∉ graph.ids → graph.apply (.remove id) = (graph, .refused)) := by
  constructor
  · intro present
    have removed : graph.remove? id = some _ := if_pos ((graph.contains_iff_mem_ids id).2 present)
    exact ⟨_, by rw [apply, removed]; rfl, without_of_remove reached removed⟩
  · intro absent
    have refused : graph.remove? id = none :=
      if_neg fun present => absent ((graph.contains_iff_mem_ids id).1 present)
    rw [apply, refused]
    rfl

def entangling : List Edit :=
  [.add "Load" .empty none, .add "Blend" .empty none, .connect ⟨"1", 0⟩ "1" "mask", .connect ⟨"1", 0⟩ "2" "base",
    .modify "2" "top" (.literal (.array [.string "1", .number (.ofWord 1)])), .connect ⟨"9", 0⟩ "2" "mask",
    .modify "2" "note" (.literal (.string "1"))]

def entangled : Graph := entangling.foldl (fun graph edit => (graph.apply edit).1) .empty

theorem entangled_removed : Reached entangled ∧ "1" ∈ entangled.ids ∧ "9" ∉ entangled.ids ∧
    (∃ next, entangled.apply (.remove "1") = (next, .done) ∧ entangled.Without "1" next ∧ next.ids = ["2"] ∧
      next.selfCheck.2 = [danglingLink "2" "mask" ⟨"9", 0⟩]) ∧
    entangled.apply (.remove "9") = (entangled, .refused) := by
  have reached : Reached entangled := .edited _ (.edited _ (.edited _ (.edited _ (.edited _ (.edited _
    (.edited _ .new))))))
  have present : "1" ∈ entangled.ids := by decide
  have absent : "9" ∉ entangled.ids := by decide
  obtain ⟨next, done, without⟩ := (remove_exact reached "1").1 present
  refine ⟨reached, present, absent, ⟨next, done, without, ?_, ?_⟩, (remove_exact reached "9").2 absent⟩
  · rw [without.ids]
    decide
  · rw [without.findings]
    decide

end Graph

end NodeFlow
