import Mathlib.Data.List.Basic
import NodeFlow.Proofs.Validation.LinkFaults
import NodeFlow.Proofs.Validation.Verdict

namespace NodeFlow

open NodeRules

-- All that an issue says but its suggestion, which is looked for among all known types.
def Issue.unsuggested (issue : Issue) : Issue := { issue with suggestion := none }

-- Two snapshots hold the same contract, or both none, for every class type in the workflow.
def Graph.SameTypes (graph : Graph) (one other : Snapshot) : Prop :=
  ∀ id node name, graph.node? id = some node → node.Typed name → one.type? name = other.type? name

section Rules

variable {graph : Graph} {one other : Snapshot} (agree : graph.SameTypes one other) (id : String) (node : Node)

theorem typeExists_unsuggested {name : String} (type : one.type? name = other.type? name) :
    (typeExists one id name).map Issue.unsuggested = (typeExists other id name).map Issue.unsuggested := by
  have knows : one.knows name = other.knows name := congrArg Option.isSome type
  unfold typeExists
  rw [knows]
  split <;> rfl

include agree

theorem type?_of_sourceClass? {link : Link} {name : String} (source : sourceClass? graph link = some name) :
    one.type? name = other.type? name := by
  obtain ⟨node, held, typed⟩ := (sourceClass?_eq_some_iff graph link name).1 source
  exact agree link.source node name held typed

theorem slotRange_of_sameTypes : slotRange graph one id node = slotRange graph other id node := by
  have same : ∀ input link, slotIssue? graph one id input link = slotIssue? graph other id input link := by
    intro input link
    unfold slotIssue?
    cases source : sourceClass? graph link with
    | none => rfl
    | some name => simp only [Option.bind_eq_bind, Option.bind_some, type?_of_sourceClass? agree source]
  simp only [slotRange, same]

theorem typeCompatibility_of_sameTypes (schema : NodeType) :
    typeCompatibility graph one id node schema = typeCompatibility graph other id node schema := by
  have same : ∀ input link,
      compatibilityIssue? graph one id schema input link = compatibilityIssue? graph other id schema input link := by
    intro input link
    unfold compatibilityIssue?
    cases source : sourceClass? graph link with
    | none => rfl
    | some name =>
      simp only [Option.bind_eq_bind, Option.bind_some, Snapshot.outputType?, type?_of_sourceClass? agree source]
  simp only [typeCompatibility, same]

theorem nodeIssues_unsuggested (held : graph.node? id = some node) :
    (NodeRules.issues graph one id node).map Issue.unsuggested =
      (NodeRules.issues graph other id node).map Issue.unsuggested := by
  unfold NodeRules.issues
  cases called : node.classType with
  | none => rfl
  | some name =>
    have type := agree id node name held ((typed_iff node name).2 called)
    have unknown := typeExists_unsuggested id type
    have slots := slotRange_of_sameTypes agree id node
    dsimp only
    rw [type]
    cases other.type? name with
    | none => simp only [List.map_append, unknown, slots]
    | some schema =>
      simp only [List.map_append, unknown, slots, typeCompatibility_of_sameTypes agree id node schema]

end Rules

theorem Report.isValid_of_unsuggested {first second : Report}
    (same : first.issues.map Issue.unsuggested = second.issues.map Issue.unsuggested) :
    first.isValid = second.isValid := by
  have weights := congrArg (List.map Issue.severity) same
  rw [List.map_map, List.map_map] at weights
  exact Report.isValid_of_severities (.of_eq weights)

namespace Graph

variable {graph : Graph} {one other : Snapshot}

theorem catalogIssues_unsuggested (agree : graph.SameTypes one other) :
    (graph.catalogIssues one).map Issue.unsuggested = (graph.catalogIssues other).map Issue.unsuggested := by
  unfold catalogIssues
  rw [List.map_flatMap, List.map_flatMap]
  refine List.flatMap_congr fun entry member => ?_
  exact nodeIssues_unsuggested agree entry.1 entry.2 ((graph.mem_entries_iff _ _).1 member)

-- Contracts of types that the workflow does not use have no part in the report, but for the suggestions.
theorem validate_independent (loaded : one.isLoaded = true) (otherLoaded : other.isLoaded = true)
    (agree : graph.SameTypes one other) :
    (graph.validate one).issues.map Issue.unsuggested = (graph.validate other).issues.map Issue.unsuggested ∧
    (graph.validate one).isValid = (graph.validate other).isValid := by
  have same : (graph.validate one).issues.map Issue.unsuggested =
      (graph.validate other).issues.map Issue.unsuggested := by
    unfold validate
    simp only [loaded, otherLoaded]
    split
    · rfl
    · simp only [if_true, List.map_append, catalogIssues_unsuggested agree]
  exact ⟨same, Report.isValid_of_unsuggested same⟩

def unknownSource : Graph :=
  ⟨.ofList [("1", ⟨some "Load", some (.ofList [("name", .linked ⟨"2", 0⟩)]), none, []⟩),
    ("2", ⟨some "Blurr", some .empty, none, []⟩)]⟩

def loadType : NodeType := ⟨"Load", "", "Load", "", .empty, .empty, ["IMAGE"], []⟩

def loadHost : Snapshot := ⟨.ofList [("Load", loadType)], none⟩

def loadAndBlurHost : Snapshot :=
  ⟨.ofList [("Blur", ⟨"Blur", "", "Blur", "", .empty, .empty, ["IMAGE"], []⟩), ("Load", loadType)], some 4⟩

theorem unknownSource_independent : loadHost.isLoaded = true ∧ loadAndBlurHost.isLoaded = true ∧
    unknownSource.SameTypes loadHost loadAndBlurHost ∧
    (unknownSource.validate loadHost).issues ≠ (unknownSource.validate loadAndBlurHost).issues ∧
    (unknownSource.validate loadHost).issues.map Issue.unsuggested =
      (unknownSource.validate loadAndBlurHost).issues.map Issue.unsuggested ∧
    (unknownSource.validate loadHost).isValid = (unknownSource.validate loadAndBlurHost).isValid := by
  have agree : unknownSource.SameTypes loadHost loadAndBlurHost := by
    intro id node name held typed
    have entries : unknownSource.nodes.entries = [("1", _), ("2", _)] := rfl
    have member := (unknownSource.mem_entries_iff id node).2 held
    rw [entries, List.mem_cons, List.mem_singleton] at member
    rcases member with same | same
    all_goals
      cases same
      cases typed.written
      rfl
  exact ⟨rfl, rfl, agree, by decide +kernel, validate_independent rfl rfl agree⟩

end Graph

end NodeFlow
