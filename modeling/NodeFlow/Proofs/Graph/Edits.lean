import NodeFlow.Graph.Edit
import NodeFlow.Proofs.Graph.Lookup

namespace NodeFlow

namespace Table

variable {α β : Type}

theorem get?_map (table : Table α) (f : String → α → β) (name : String) :
    (table.map f).get? name = (table.get? name).map (f name) := by
  apply Option.ext
  intro value
  rw [← mem_entries_iff, Option.map_eq_some_iff]
  simp only [← mem_entries_iff]
  constructor
  · intro member
    obtain ⟨⟨other, old⟩, entry, same⟩ := List.mem_map.1 member
    cases same
    exact ⟨old, entry, rfl⟩
  · intro kept
    obtain ⟨old, entry, rfl⟩ := kept
    exact List.mem_map.2 ⟨(name, old), entry, rfl⟩

theorem get?_filter (table : Table α) (keep : String → α → Bool) (name : String) :
    (table.filter keep).get? name = (table.get? name).filter (keep name) := by
  apply Option.ext
  intro value
  rw [← mem_entries_iff, Option.filter_eq_some_iff, ← mem_entries_iff]
  exact List.mem_filter

end Table

namespace Node

variable (node : Node)

theorem input?_setInput (name other : String) (value : InputValue) :
    (node.setInput name value).input? other = if other = name then some value else node.input? other := by
  unfold setInput input?
  simp only [Option.bind_some, Table.get?_insert]
  cases node.inputs <;> rfl

theorem input?_dropLinksTo (id name : String) :
    (node.dropLinksTo id).input? name =
      (node.input? name).filter fun value => value.link?.all fun link => link.source != id := by
  unfold dropLinksTo input?
  cases node.inputs with
  | none => rfl
  | some inputs =>
    simp only [Option.map_some, Option.bind_some, Table.get?_filter]
    congr 1
    funext value
    cases value <;> rfl

end Node

namespace Graph

variable (graph : Graph)

theorem node?_add (classType : String) (inputs : Inputs) (title : Option String) (id : String) :
    (graph.add classType inputs title).2.node? id =
      if id = graph.nextId then
        some ⟨some classType, some (inputs.map fun _ value => value.normalized),
          some ⟨some (title.getD classType)⟩, []⟩
      else graph.node? id :=
  Table.get?_insert _ _ _ _

theorem remove?_eq_some_iff (id : String) (next : Graph) :
    graph.remove? id = some next ↔ graph.contains id = true ∧
      next = ⟨(graph.nodes.erase id).map fun _ node => node.dropLinksTo id⟩ := by
  unfold remove?
  split
  · rename_i present
    simp [present, eq_comm]
  · rename_i absent
    simp [absent]

theorem node?_remove {id : String} {next : Graph} (removed : graph.remove? id = some next)
    (other : String) : next.node? other =
      if other = id then none else (graph.node? other).map fun node => node.dropLinksTo id := by
  obtain ⟨_, rfl⟩ := (graph.remove?_eq_some_iff id next).1 removed
  unfold node?
  rw [Table.get?_map, Table.get?_erase]
  split <;> rfl

theorem setInput?_eq_some_iff (id name : String) (value : InputValue) (next : Graph) :
    graph.setInput? id name value = some next ↔ ∃ node, graph.node? id = some node ∧
      next = ⟨graph.nodes.insert id (node.setInput name value)⟩ := by
  unfold setInput?
  rw [Option.map_eq_some_iff]
  simp only [eq_comm]

theorem node?_setInput {id name : String} {value : InputValue} {next : Graph}
    (done : graph.setInput? id name value = some next) (other : String) :
    next.node? other =
      if other = id then (graph.node? id).map fun node => node.setInput name value
      else graph.node? other := by
  obtain ⟨node, found, rfl⟩ := (graph.setInput?_eq_some_iff id name value next).1 done
  rw [found]
  exact Table.get?_insert _ _ _ _

-- What the edit can have made of the node under an id: a node that was there may lose links or have one
-- input set, and one node may be new.
inductive Leaves (id : String) : Edit → Node → Prop
  | kept {edit : Edit} {node : Node} : graph.node? id = some node → Leaves id edit node
  | dropped {other : String} {node : Node} :
    graph.node? id = some node → Leaves id (.remove other) (node.dropLinksTo other)
  | connected {link : Link} {name : String} {node : Node} :
    graph.node? id = some node → Leaves id (.connect link id name) (node.setInput name (.linked link))
  | modified {name : String} {value : InputValue} {node : Node} :
    graph.node? id = some node → Leaves id (.modify id name value) (node.setInput name value.normalized)
  | added {classType : String} {inputs : Inputs} {title : Option String} :
    Leaves id (.add classType inputs title) ⟨some classType, some (inputs.map fun _ value => value.normalized),
      some ⟨some (title.getD classType)⟩, []⟩

theorem leaves_of_setInput {id name other : String} {value : InputValue} {node : Node}
    (found : (graph.settled (graph.setInput? other name value)).1.node? id = some node) :
    graph.node? id = some node ∨
      id = other ∧ ∃ old, graph.node? id = some old ∧ node = old.setInput name value := by
  cases done : graph.setInput? other name value with
  | none => exact .inl (by rwa [done] at found)
  | some next =>
    rw [done] at found
    have look := (graph.node?_setInput done id).symm.trans found
    split at look
    · rename_i same
      subst same
      obtain ⟨old, held, rfl⟩ := Option.map_eq_some_iff.1 look
      exact .inr ⟨rfl, old, held, rfl⟩
    · exact .inl look

theorem leaves_of_apply {edit : Edit} (given : ∀ text, edit ≠ .load text) {id : String} {node : Node}
    (found : (graph.apply edit).1.node? id = some node) : graph.Leaves id edit node := by
  cases edit with
  | clear => cases found
  | load text => exact absurd rfl (given text)
  | add classType inputs title =>
    have look := (graph.node?_add classType inputs title id).symm.trans found
    split at look
    · cases look; exact .added
    · exact .kept look
  | remove other =>
    cases done : graph.remove? other with
    | none => exact .kept (by rwa [Graph.apply, done] at found)
    | some next =>
      rw [Graph.apply, done] at found
      have look := (graph.node?_remove done id).symm.trans found
      split at look
      · cases look
      · obtain ⟨old, held, rfl⟩ := Option.map_eq_some_iff.1 look
        exact .dropped held
  | connect link target input =>
    rcases graph.leaves_of_setInput found with old | ⟨rfl, old, held, rfl⟩
    · exact .kept old
    · exact .connected held
  | modify other input value =>
    rcases graph.leaves_of_setInput found with old | ⟨rfl, old, held, rfl⟩
    · exact .kept old
    · exact .modified held

end Graph

end NodeFlow
