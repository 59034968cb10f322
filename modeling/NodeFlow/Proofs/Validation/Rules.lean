import NodeFlow.Validation.Basic

namespace NodeFlow

def Uniform (id : String) (check : Check) (severity : Severity) (issues : List Issue) : Prop :=
  ∀ issue ∈ issues, ∃ message, issue = ⟨check, id, message, severity, none⟩

section Shapes

variable {id : String} {check : Check} {severity : Severity}

theorem uniform_nil : Uniform id check severity [] := by simp [Uniform]

theorem uniform_single (message : String) : Uniform id check severity [⟨check, id, message, severity, none⟩] := by
  simp [Uniform]

theorem Uniform.append {first second : List Issue} (left : Uniform id check severity first)
    (right : Uniform id check severity second) : Uniform id check severity (first ++ second) :=
  fun issue found => (List.mem_append.1 found).elim (left issue) (right issue)

theorem uniform_filterMap {α : Type} (items : List α) (issue? : α → Option Issue)
    (shaped : ∀ item issue, issue? item = some issue → ∃ message, issue = ⟨check, id, message, severity, none⟩) :
    Uniform id check severity (items.filterMap issue?) := by
  intro issue found
  obtain ⟨item, _, made⟩ := List.mem_filterMap.1 found
  exact shaped item issue made

end Shapes

section StructuralRules

variable (graph : Graph) (id : String) (node : Node)

theorem uniform_missingClassType : Uniform id .missingClassType .error
    (if node.classType.isNone then [Graph.missingClassType id] else []) := by
  split
  · exact uniform_single _
  · exact uniform_nil

theorem uniform_missingInputs : Uniform id .missingInputs .error [Graph.missingInputs id] := uniform_single _

theorem uniform_danglingIssues : Uniform id .linkValidity .error (graph.danglingIssues id node) := by
  apply uniform_filterMap
  intro entry issue made
  dsimp only at made
  split at made
  · cases made
  · cases Option.some.inj made; exact ⟨_, rfl⟩

end StructuralRules

section CatalogRules

open NodeRules

variable (graph : Graph) (snapshot : Snapshot) (id : String) (node : Node)

theorem uniform_requiredInputs (schema : NodeType) :
    Uniform id .requiredInputs .error (requiredInputs id node schema) := by
  apply uniform_filterMap
  intro name issue made
  split at made
  · cases made
  · cases Option.some.inj made; exact ⟨_, rfl⟩

theorem uniform_slotRange : Uniform id .slotRange .error (slotRange graph snapshot id node) := by
  apply uniform_filterMap
  intro entry issue made
  obtain ⟨source, _, rest⟩ := Option.bind_eq_some_iff.1 made
  obtain ⟨schema, _, rest⟩ := Option.bind_eq_some_iff.1 rest
  split at rest
  · cases Option.some.inj rest; exact ⟨_, rfl⟩
  · cases rest

theorem uniform_typeCompatibility (schema : NodeType) :
    Uniform id .typeCompatibility .warning (typeCompatibility graph snapshot id node schema) := by
  apply uniform_filterMap
  intro entry issue made
  obtain ⟨source, _, rest⟩ := Option.bind_eq_some_iff.1 made
  obtain ⟨produced, _, rest⟩ := Option.bind_eq_some_iff.1 rest
  obtain ⟨spec, _, rest⟩ := Option.bind_eq_some_iff.1 rest
  dsimp only at rest
  split at rest
  · cases rest
  · cases Option.some.inj rest; exact ⟨_, rfl⟩

theorem uniform_rangeIssues (schema : NodeType) (spec : InputSpec) (literal : Json) :
    Uniform id .valueRange .warning (rangeIssues id schema spec literal) := by
  have bounded : ∀ which bound, Uniform id .valueRange .warning [rangeIssue id schema spec literal which bound] :=
    fun _ _ => uniform_single _
  unfold rangeIssues
  split
  · exact uniform_nil
  · refine Uniform.append ?_ ?_
    all_goals
      split
      · split
        · exact bounded _ _
        · exact uniform_nil
      · exact uniform_nil

theorem uniform_valueRange (schema : NodeType) :
    Uniform id .valueRange .warning (valueRange id node schema) := by
  intro issue found
  obtain ⟨entry, _, made⟩ := List.mem_flatMap.1 found
  exact uniform_rangeIssues id schema entry.1 entry.2 issue made

theorem uniform_enumeratedChoice (schema : NodeType) :
    Uniform id .enumeratedChoice .warning (enumeratedChoice id node schema) := by
  apply uniform_filterMap
  intro entry issue made
  obtain ⟨options, _, rest⟩ := Option.bind_eq_some_iff.1 made
  obtain ⟨chosen, _, rest⟩ := Option.bind_eq_some_iff.1 rest
  split at rest
  · cases rest
  · cases Option.some.inj rest; exact ⟨_, rfl⟩

theorem mem_typeExists_iff (name : String) (issue : Issue) :
    issue ∈ typeExists snapshot id name ↔ snapshot.knows name = false ∧
      issue = ⟨.typeExists, id, "Node '" ++ id ++ "' uses unknown type '" ++ name ++ "'", .error,
        (snapshot.suggestSimilar name suggestionLimit).head?⟩ := by
  unfold typeExists
  cases snapshot.knows name <;> simp [Issue.error]

end CatalogRules

section Nodes

variable {graph : Graph} {snapshot : Snapshot} {id : String} {node : Node} {issue : Issue}

theorem mem_structuralIssuesOf (found : issue ∈ graph.structuralIssuesOf id node) :
    ∃ check message, check.isStructural = true ∧ issue = ⟨check, id, message, .error, none⟩ := by
  rcases List.mem_append.1 found with untyped | later
  · obtain ⟨message, made⟩ := uniform_missingClassType id node issue untyped
    exact ⟨_, message, rfl, made⟩
  · split at later
    · obtain ⟨message, made⟩ := uniform_missingInputs id issue later
      exact ⟨_, message, rfl, made⟩
    · obtain ⟨message, made⟩ := uniform_danglingIssues graph id node issue later
      exact ⟨_, message, rfl, made⟩

theorem mem_nodeIssues (found : issue ∈ NodeRules.issues graph snapshot id node) :
    (∃ name, node.classType = some name ∧ issue ∈ NodeRules.typeExists snapshot id name) ∨
    ∃ check message severity, check.isStructural = false ∧ check ≠ .typeExists ∧
      issue = ⟨check, id, message, severity, none⟩ := by
  have other : ∀ {check severity issues}, check.isStructural = false → check ≠ .typeExists →
      Uniform id check severity issues → issue ∈ issues → ∃ check message severity,
        check.isStructural = false ∧ check ≠ .typeExists ∧ issue = ⟨check, id, message, severity, none⟩ := by
    intro check severity issues catalog apart uniform member
    obtain ⟨message, made⟩ := uniform issue member
    exact ⟨check, message, severity, catalog, apart, made⟩
  unfold NodeRules.issues at found
  cases called : node.classType with
  | none => simp [called] at found
  | some name =>
    simp only [called] at found
    split at found
    · rcases List.mem_append.1 found with unknown | slots
      · exact .inl ⟨name, rfl, unknown⟩
      · exact .inr (other rfl (by decide) (uniform_slotRange graph snapshot id node) slots)
    · rename_i schema _
      simp only [List.mem_append] at found
      rcases found with ((((unknown | required) | slots) | types) | ranges) | choices
      · exact .inl ⟨name, rfl, unknown⟩
      · exact .inr (other rfl (by decide) (uniform_requiredInputs id node schema) required)
      · exact .inr (other rfl (by decide) (uniform_slotRange graph snapshot id node) slots)
      · exact .inr (other rfl (by decide) (uniform_typeCompatibility graph snapshot id node schema) types)
      · exact .inr (other rfl (by decide) (uniform_valueRange id node schema) ranges)
      · exact .inr (other rfl (by decide) (uniform_enumeratedChoice id node schema) choices)

end Nodes

end NodeFlow
