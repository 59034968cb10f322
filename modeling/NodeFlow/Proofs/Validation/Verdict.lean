import NodeFlow.Proofs.Graph.Lookup
import NodeFlow.Proofs.Validation.Rules

namespace NodeFlow

def NoErrors (issues : List Issue) : Prop := ∀ issue ∈ issues, issue.isError = false

theorem Report.isValid_iff (report : Report) : report.isValid = true ↔ NoErrors report.issues := by
  simp [Report.isValid, NoErrors]

theorem Report.isValid_of_severities {first second : Report}
    (weights : (first.issues.map Issue.severity).Perm (second.issues.map Issue.severity)) :
    first.isValid = second.isValid := by
  have weigh : ∀ report : Report,
      report.isValid = !(report.issues.map Issue.severity).any (· == .error) := fun report => by
    rw [List.any_map]; rfl
  rw [weigh, weigh, weights.any_eq]

section Lists

theorem noErrors_nil : NoErrors [] := by simp [NoErrors]

theorem noErrors_append (first second : List Issue) :
    NoErrors (first ++ second) ↔ NoErrors first ∧ NoErrors second := by
  simp [NoErrors, or_imp, forall_and]

theorem noErrors_flatMap {α : Type} (items : List α) (issuesOf : α → List Issue) :
    NoErrors (items.flatMap issuesOf) ↔ ∀ item ∈ items, NoErrors (issuesOf item) := by
  constructor
  · intro clean item member issue found
    exact clean issue (List.mem_flatMap.2 ⟨item, member, found⟩)
  · intro clean issue found
    obtain ⟨item, member, made⟩ := List.mem_flatMap.1 found
    exact clean item member issue made

-- A rule that makes only errors makes none exactly when it passes every item.
theorem noErrors_filterMap {α : Type} (items : List α) (issue? : α → Option Issue)
    (errors : ∀ item issue, issue? item = some issue → issue.isError = true) :
    NoErrors (items.filterMap issue?) ↔ ∀ item ∈ items, issue? item = none := by
  constructor
  · intro clean item member
    cases found : issue? item with
    | none => rfl
    | some issue =>
      have quiet := clean issue (List.mem_filterMap.2 ⟨item, member, found⟩)
      rw [errors item issue found] at quiet
      cases quiet
  · intro passed issue found
    obtain ⟨item, member, made⟩ := List.mem_filterMap.1 found
    rw [passed item member] at made
    cases made

theorem Uniform.noErrors {id : String} {check : Check} {issues : List Issue}
    (uniform : Uniform id check .warning issues) : NoErrors issues := by
  intro issue found
  obtain ⟨message, rfl⟩ := uniform issue found
  rfl

end Lists

namespace Graph

-- What every workflow must satisfy, whatever the host knows.
structure Complete (graph : Graph) : Prop where
  inhabited : ∃ id node, graph.node? id = some node
  typed : ∀ id node, graph.node? id = some node → ∃ name, node.classField = some name ∧ name ≠ ""
  equipped : ∀ id node, graph.node? id = some node → ∃ inputs, node.inputs = some inputs
  resolved : ∀ id node input link, graph.node? id = some node →
    node.input? input = some (.linked link) → ∃ source, graph.node? link.source = some source

-- What a workflow must satisfy against the node types of a snapshot.
structure Fits (graph : Graph) (snapshot : Snapshot) : Prop where
  known : ∀ id node name, graph.node? id = some node → node.classField = some name →
    ∃ schema, snapshot.type? name = some schema
  supplied : ∀ id node name schema, graph.node? id = some node → node.classField = some name →
    snapshot.type? name = some schema →
    ∀ input ∈ schema.requiredInputs.names, ∃ value, node.input? input = some value
  inRange : ∀ id node input link source name schema, graph.node? id = some node →
    node.input? input = some (.linked link) → graph.node? link.source = some source →
    source.classField = some name → snapshot.type? name = some schema →
    link.slot.toNat < schema.outputTypes.length

-- A snapshot without node types asks for nothing.
def Acceptable (graph : Graph) (snapshot : Snapshot) : Prop :=
  graph.Complete ∧ ((∃ name schema, snapshot.type? name = some schema) → graph.Fits snapshot)

end Graph

section StructuralRules

variable (graph : Graph) (id : String) (node : Node)

theorem noErrors_danglingIssues : NoErrors (graph.danglingIssues id node) ↔
    ∀ input link, node.input? input = some (.linked link) →
      ∃ source, graph.node? link.source = some source := by
  unfold Graph.danglingIssues
  rw [noErrors_filterMap]
  · constructor
    · intro passed input link linked
      have present := passed _ ((node.mem_links_iff input link).2 linked)
      rw [← Graph.contains_iff]
      simpa using present
    · intro resolved entry member
      obtain ⟨input, link⟩ := entry
      have present := resolved input link ((node.mem_links_iff input link).1 member)
      rw [← Graph.contains_iff] at present
      simp [present]
  · intro entry issue made
    obtain ⟨input, link⟩ := entry
    dsimp only at made
    split at made
    · cases made
    · cases Option.some.inj made; rfl

theorem noErrors_structuralIssuesOf : NoErrors (graph.structuralIssuesOf id node) ↔
    (∃ name, node.classField = some name ∧ name ≠ "") ∧ (∃ inputs, node.inputs = some inputs) ∧
      ∀ input link, node.input? input = some (.linked link) →
        ∃ source, graph.node? link.source = some source := by
  unfold Graph.structuralIssuesOf
  rw [noErrors_append]
  refine and_congr ?_ ?_
  · simp only [← node.classType_eq_some_iff]
    cases node.classType <;> simp [NoErrors, Graph.missingClassType, Issue.error, Issue.isError]
  · cases inputs : node.inputs with
    | none => simp [NoErrors, Graph.missingInputs, Issue.error, Issue.isError]
    | some table => simp [noErrors_danglingIssues]

end StructuralRules

section CatalogRules

open NodeRules

variable (graph : Graph) (snapshot : Snapshot) (id : String) (node : Node)

theorem noErrors_typeExists (classType : String) : NoErrors (typeExists snapshot id classType) ↔
    ∃ schema, snapshot.type? classType = some schema := by
  rw [← Option.isSome_iff_exists]
  change _ ↔ snapshot.knows classType = true
  unfold typeExists
  cases snapshot.knows classType <;> simp [NoErrors, Issue.error, Issue.isError]

theorem noErrors_requiredInputs (schema : NodeType) : NoErrors (requiredInputs id node schema) ↔
    ∀ input ∈ schema.requiredInputs.names, ∃ value, node.input? input = some value := by
  unfold requiredInputs
  rw [noErrors_filterMap]
  · refine forall₂_congr fun input _ => ?_
    cases node.input? input <;> simp
  · intro input issue made
    cases present : node.input? input with
    | some value => simp [present] at made
    | none =>
      simp only [present] at made
      cases Option.some.inj made; rfl

theorem slotIssue?_error (input : String) (link : Link) (issue : Issue)
    (made : slotIssue? graph snapshot id input link = some issue) : issue.isError = true := by
  unfold slotIssue? at made
  obtain ⟨source, _, rest⟩ := Option.bind_eq_some_iff.1 made
  obtain ⟨schema, _, rest⟩ := Option.bind_eq_some_iff.1 rest
  split at rest
  · cases Option.some.inj rest; rfl
  · cases rest

theorem slotIssue?_eq_none_iff (input : String) (link : Link) :
    slotIssue? graph snapshot id input link = none ↔
      ∀ source name schema, graph.node? link.source = some source → source.classType = some name →
        snapshot.type? name = some schema → link.slot.toNat < schema.outputTypes.length := by
  unfold slotIssue? sourceClass?
  constructor
  · intro silent source name schema found called declared
    simp only [found, called, declared, Option.bind_some, Option.bind_eq_bind] at silent
    split at silent
    · cases silent
    · exact Nat.lt_of_not_le ‹_›
  · intro inRange
    cases found : graph.node? link.source with
    | none => simp
    | some source =>
      cases called : source.classType with
      | none => simp [called]
      | some name =>
        cases declared : snapshot.type? name with
        | none => simp [called, declared]
        | some schema =>
          have fits := inRange source name schema found called declared
          have within : ¬ schema.outputCount ≤ link.slot.toNat := Nat.not_le.2 fits
          simp [called, declared, within]

theorem noErrors_slotRange : NoErrors (slotRange graph snapshot id node) ↔
    ∀ input link source name schema, node.input? input = some (.linked link) →
      graph.node? link.source = some source → source.classType = some name →
      snapshot.type? name = some schema → link.slot.toNat < schema.outputTypes.length := by
  unfold slotRange
  rw [noErrors_filterMap]
  · constructor
    · intro silent input link source name schema linked
      have quiet := silent _ ((node.mem_links_iff input link).2 linked)
      exact (slotIssue?_eq_none_iff graph snapshot id input link).1 quiet source name schema
    · intro inRange entry member
      obtain ⟨input, link⟩ := entry
      have linked := (node.mem_links_iff input link).1 member
      exact (slotIssue?_eq_none_iff graph snapshot id input link).2
        fun source name schema => inRange input link source name schema linked
  · intro entry issue made
    obtain ⟨input, link⟩ := entry
    exact slotIssue?_error graph snapshot id input link issue made

theorem noErrors_issues (name : String) (called : node.classType = some name) :
    NoErrors (NodeRules.issues graph snapshot id node) ↔
      ∃ schema, snapshot.type? name = some schema ∧
        (∀ input ∈ schema.requiredInputs.names, ∃ value, node.input? input = some value) ∧
        NoErrors (slotRange graph snapshot id node) := by
  simp only [NodeRules.issues, called]
  cases declared : snapshot.type? name with
  | none => simp [noErrors_append, noErrors_typeExists, declared]
  | some schema =>
    have types := (uniform_typeCompatibility graph snapshot id node schema).noErrors
    have ranges := (uniform_valueRange id node schema).noErrors
    have choices := (uniform_enumeratedChoice id node schema).noErrors
    simp [noErrors_append, noErrors_typeExists, declared, noErrors_requiredInputs, types, ranges, choices]

end CatalogRules

namespace Graph

variable (graph : Graph) (snapshot : Snapshot)

theorem noErrors_structuralIssues : NoErrors graph.structuralIssues ↔
    ∀ id node, graph.node? id = some node → NoErrors (graph.structuralIssuesOf id node) := by
  unfold structuralIssues
  rw [noErrors_flatMap]
  simp [mem_entries_iff]

theorem noErrors_catalogIssues : NoErrors (graph.catalogIssues snapshot) ↔
    ∀ id node, graph.node? id = some node → NoErrors (NodeRules.issues graph snapshot id node) := by
  unfold catalogIssues
  rw [noErrors_flatMap]
  simp [mem_entries_iff]

theorem isLoaded_iff (snapshot : Snapshot) :
    snapshot.isLoaded = true ↔ ∃ name schema, snapshot.type? name = some schema := by
  unfold Snapshot.isLoaded
  rw [Bool.not_eq_true']
  exact Table.isEmpty_eq_false_iff snapshot.types

theorem complete_iff (inhabited : ∃ id node, graph.node? id = some node) :
    graph.Complete ↔ NoErrors graph.structuralIssues := by
  rw [noErrors_structuralIssues]
  constructor
  · intro complete id node found
    exact (noErrors_structuralIssuesOf graph id node).2 ⟨complete.typed id node found,
      complete.equipped id node found, fun input link => complete.resolved id node input link found⟩
  · intro clean
    have parts := fun id node found => (noErrors_structuralIssuesOf graph id node).1 (clean id node found)
    exact ⟨inhabited, fun id node found => (parts id node found).1,
      fun id node found => (parts id node found).2.1,
      fun id node input link found => (parts id node found).2.2 input link⟩

theorem fits_iff
    (typed : ∀ id node, graph.node? id = some node → ∃ name, node.classField = some name ∧ name ≠ "") :
    graph.Fits snapshot ↔ NoErrors (graph.catalogIssues snapshot) := by
  have named : ∀ id node name, graph.node? id = some node → node.classField = some name →
      node.classType = some name := by
    intro id node name found field
    obtain ⟨other, written, nonempty⟩ := typed id node found
    rw [field] at written
    cases written
    exact (node.classType_eq_some_iff name).2 ⟨field, nonempty⟩
  rw [noErrors_catalogIssues]
  constructor
  · intro fits id node found
    obtain ⟨name, field, _⟩ := typed id node found
    obtain ⟨schema, declared⟩ := fits.known id node name found field
    rw [noErrors_issues graph snapshot id node name (named id node name found field), noErrors_slotRange]
    refine ⟨schema, declared, fits.supplied id node name schema found field declared, ?_⟩
    intro input link source type contract linked present called
    exact fits.inRange id node input link source type contract found linked present
      ((source.classType_eq_some_iff type).1 called).1
  · intro clean
    have parts : ∀ id node name, graph.node? id = some node → node.classField = some name → _ :=
      fun id node name found field =>
        (noErrors_issues graph snapshot id node name (named id node name found field)).1 (clean id node found)
    refine ⟨?_, ?_, ?_⟩
    · intro id node name found field
      obtain ⟨schema, declared, _⟩ := parts id node name found field
      exact ⟨schema, declared⟩
    · intro id node name schema found field declared
      obtain ⟨other, same, supplied, _⟩ := parts id node name found field
      rw [declared] at same
      cases same
      exact supplied
    · intro id node input link source type schema found linked present called declared
      obtain ⟨name, field, _⟩ := typed id node found
      obtain ⟨_, _, _, slots⟩ := parts id node name found field
      exact (noErrors_slotRange graph snapshot id node).1 slots input link source type schema linked
        present (named link.source source type present called) declared

-- A validation finds a workflow valid exactly when it satisfies the rules; warnings, and everything
-- else that the workflow and the snapshot hold, have no part in it.
theorem validate_isValid_iff_acceptable :
    (graph.validate snapshot).isValid = true ↔ graph.Acceptable snapshot := by
  rw [Report.isValid_iff]
  unfold validate Acceptable
  cases empty : graph.isEmpty with
  | true =>
    have none : ¬ ∃ id node, graph.node? id = some node := by
      rw [← isEmpty_eq_false_iff, empty]
      exact Bool.noConfusion
    constructor
    · intro clean
      exact absurd (clean emptyWorkflow (by simp)) (by decide)
    · intro acceptable
      exact absurd acceptable.1.inhabited none
  | false =>
    have inhabited := (isEmpty_eq_false_iff graph).1 empty
    rw [complete_iff graph inhabited, ← isLoaded_iff]
    simp only [Bool.false_eq_true, if_false, noErrors_append]
    refine and_congr_right fun clean => ?_
    have complete := (complete_iff graph inhabited).2 clean
    cases snapshot.isLoaded with
    | true => simp [fits_iff graph snapshot complete.typed]
    | false => simp [noErrors_nil]

end Graph

end NodeFlow
