import NodeFlow.Proofs.Catalog.Suggestions
import NodeFlow.Proofs.Validation.LinkFaults

namespace NodeFlow

open Similarity NodeRules

section Rules

variable (graph : Graph) (snapshot : Snapshot) (id : String) (node : Node)

theorem typeIssues_catalog :
    ((NodeRules.issues graph snapshot id node).filter fun issue => issue.check == .typeExists) =
      (node.classType.map (typeExists snapshot id)).getD [] := by
  unfold NodeRules.issues
  cases node.classType with
  | none => rfl
  | some name =>
    have types := (marked_typeExists snapshot id name).filter_of_keep (· == .typeExists) rfl
    have slots := (uniform_slotRange graph snapshot id node).marked.filter_of_drop (· == .typeExists) rfl
    cases declared : snapshot.type? name with
    | none => simp [declared, types, slots]
    | some schema =>
      have required := (uniform_requiredInputs id node schema).marked.filter_of_drop (· == .typeExists) rfl
      have wrong := (uniform_typeCompatibility graph snapshot id node schema).marked.filter_of_drop
        (· == .typeExists) rfl
      have ranges := (uniform_valueRange id node schema).marked.filter_of_drop (· == .typeExists) rfl
      have choices := (uniform_enumeratedChoice id node schema).marked.filter_of_drop (· == .typeExists) rfl
      simp [declared, types, slots, required, wrong, ranges, choices]

theorem typeIssues_structural :
    ((graph.structuralIssuesOf id node).filter fun issue => issue.check == .typeExists) = [] := by
  refine List.filter_eq_nil_iff.2 fun issue found same => ?_
  have structural := (about_structuralIssuesOf graph id node issue found).2
  rw [eq_of_beq same] at structural
  cases structural

theorem nodeIssues_of_perm {snapshot other : Snapshot} (perm : other.types.entries.Perm snapshot.types.entries) :
    NodeRules.issues graph other id node = NodeRules.issues graph snapshot id node := by
  have types : other.type? = snapshot.type? := funext (Table.get?_of_perm perm)
  have outputs : other.outputType? = snapshot.outputType? := by
    funext name slot
    rw [Snapshot.outputType?, types, Snapshot.outputType?]
  have known : ∀ name, typeExists other id name = typeExists snapshot id name := by
    intro name
    have knows : other.knows name = snapshot.knows name := congrArg Option.isSome (congrFun types name)
    rw [typeExists, typeExists, knows, Snapshot.suggestSimilar_of_perm (perm.map Prod.fst)]
  unfold NodeRules.issues slotRange typeCompatibility slotIssue? compatibilityIssue?
  simp only [types, outputs, known]

end Rules

namespace Graph

variable {graph : Graph} {snapshot : Snapshot}

theorem mem_issues {issue : Issue} (found : issue ∈ (graph.validate snapshot).issues) :
    issue = emptyWorkflow ∨ ∃ id node, graph.node? id = some node ∧
      (issue ∈ graph.structuralIssuesOf id node ∨ issue ∈ NodeRules.issues graph snapshot id node) := by
  cases inhabited : graph.isEmpty with
  | true =>
    rw [graph.issues_of_isEmpty snapshot inhabited] at found
    exact .inl (List.mem_singleton.1 found)
  | false =>
    rw [graph.issues_of_not_isEmpty snapshot inhabited] at found
    rcases List.mem_append.1 found with structural | catalog
    · obtain ⟨⟨id, node⟩, entry, made⟩ := List.mem_flatMap.1 structural
      exact .inr ⟨id, node, (graph.mem_entries_iff id node).1 entry, .inl made⟩
    · split at catalog
      · obtain ⟨⟨id, node⟩, entry, made⟩ := List.mem_flatMap.1 catalog
        exact .inr ⟨id, node, (graph.mem_entries_iff id node).1 entry, .inr made⟩
      · cases catalog

theorem typeExists_or_plain {issue : Issue} (found : issue ∈ (graph.validate snapshot).issues) :
    (∃ id node name, graph.node? id = some node ∧ node.classType = some name ∧ issue ∈ typeExists snapshot id name) ∨
    issue.suggestion = none ∧ issue.check ≠ .typeExists := by
  rcases mem_issues found with rfl | ⟨id, node, held, structural | catalog⟩
  · exact .inr ⟨rfl, by decide⟩
  · obtain ⟨check, message, ofGraph, rfl⟩ := mem_structuralIssuesOf structural
    refine .inr ⟨rfl, fun same => ?_⟩
    rw [show check = .typeExists from same] at ofGraph
    cases ofGraph
  · rcases mem_nodeIssues catalog with ⟨name, called, unknown⟩ | ⟨check, message, severity, _, apart, rfl⟩
    · exact .inl ⟨id, node, name, held, called, unknown⟩
    · exact .inr ⟨rfl, apart⟩

theorem typeIssues_about {id name : String} {node : Node} (loaded : snapshot.isLoaded = true)
    (found : graph.node? id = some node) (called : node.classType = some name) :
    ((graph.validate snapshot).issues.filter fun issue => issue.nodeId == id && issue.check == .typeExists) =
      typeExists snapshot id name := by
  have about := graph.issues_about snapshot id node loaded found
  rw [List.filter_congr fun issue _ => Bool.and_comm _ _, ← List.filter_filter, about, List.filter_append,
    typeIssues_structural, typeIssues_catalog, called]
  rfl

theorem validate_of_perm {other : Snapshot} (perm : other.types.entries.Perm snapshot.types.entries) :
    (graph.validate other).issues = (graph.validate snapshot).issues := by
  have loaded : other.isLoaded = snapshot.isLoaded := by
    simp only [Snapshot.isLoaded, Table.isEmpty, perm.isEmpty_eq]
  have catalog : graph.catalogIssues other = graph.catalogIssues snapshot := by
    simp only [catalogIssues, nodeIssues_of_perm graph _ _ perm]
  simp only [validate, loaded, catalog]

-- A report has one issue for every node of an unknown class type and no other one of that check. It suggests no
-- type exactly if none comes near enough, and else the greatest of all known types.
theorem validate_suggestions (graph : Graph) (snapshot : Snapshot) (loaded : snapshot.isLoaded = true) :
    (∀ issue ∈ (graph.validate snapshot).issues, issue.suggestion ≠ none → issue.check = .typeExists) ∧
    (∀ issue ∈ (graph.validate snapshot).issues, issue.check = .typeExists → ∃ node name,
      graph.node? issue.nodeId = some node ∧ node.Typed name ∧ snapshot.knows name = false) ∧
    (∀ id node name, graph.node? id = some node → node.Typed name → snapshot.knows name = false → ∃ issue,
      ((graph.validate snapshot).issues.filter fun issue => issue.nodeId == id && issue.check == .typeExists) =
        [issue] ∧
      (issue.suggestion = none ↔
        ∀ type, snapshot.knows type = true → ¬ defaultCutoff ≤ exactScore name type) ∧
      ∀ best, issue.suggestion = some best → best ≠ name ∧ ∀ type, snapshot.Nearest name type ↔ type = best) ∧
    ∀ other : Snapshot, other.types.entries.Perm snapshot.types.entries →
      (graph.validate other).issues = (graph.validate snapshot).issues := by
  refine ⟨?_, ?_, ?_, fun other perm => validate_of_perm perm⟩
  · intro issue found suggested
    rcases typeExists_or_plain found with ⟨id, node, name, _, _, unknown⟩ | ⟨none, _⟩
    · exact (marked_typeExists snapshot id name issue unknown).2
    · exact absurd none suggested
  · intro issue found same
    rcases typeExists_or_plain found with ⟨id, node, name, held, called, unknown⟩ | ⟨_, other⟩
    · obtain ⟨absent, rfl⟩ := (mem_typeExists_iff snapshot id name issue).1 unknown
      exact ⟨node, name, held, (typed_iff node name).2 called, absent⟩
    · exact absurd same other
  · intro id node name held typed absent
    have positive : 0 < suggestionLimit := by decide
    obtain ⟨far, near⟩ := snapshot.suggestSimilar_head name positive
    have single := typeIssues_about loaded held ((typed_iff node name).1 typed)
    rw [typeExists, absent, if_neg Bool.false_ne_true] at single
    refine ⟨_, single, far, fun best suggested => ?_⟩
    have nearest := near best suggested
    refine ⟨fun same => ?_, fun type => ⟨fun rival => rival.unique nearest, fun same => same ▸ nearest⟩⟩
    rw [← same, nearest.known] at absent
    cases absent

def misspelled : Graph :=
  ⟨.ofList [("1", ⟨some "Blurr", some .empty, none, []⟩), ("2", ⟨some "Zq", some .empty, none, []⟩)]⟩

def blurHost : Snapshot := ⟨.ofList blurTypes, none⟩

theorem knows_blurHost_iff (type : String) : blurHost.knows type = true ↔ type = "Blur" ∨ type = "Blurs" := by
  have names : blurHost.types.names = ["Blur", "Blurs"] := rfl
  rw [Snapshot.knows_iff, names, List.mem_cons, List.mem_singleton]

theorem nearest_blur : blurHost.Nearest "Blurr" "Blur" := by
  refine ⟨(knows_blurHost_iff _).2 (.inl rfl), fun other known => ?_⟩
  rcases (knows_blurHost_iff other).1 known with rfl | rfl
  · exact outranks_refl _
  · have less : exactScore "Blurr" "Blurs" < exactScore "Blurr" "Blur" := by decide +kernel
    simp only [Outranks, scored]
    exact .inl less

theorem misspelled_suggestions : blurHost.isLoaded = true ∧
    (∃ issue ∈ (misspelled.validate blurHost).issues, issue.nodeId = "1" ∧ issue.suggestion = some "Blur") ∧
    (∃ issue ∈ (misspelled.validate blurHost).issues, issue.nodeId = "2" ∧ issue.check = .typeExists ∧
      issue.suggestion = none) ∧
    (misspelled.validate ⟨.ofList blurTypes.reverse, none⟩).issues = (misspelled.validate blurHost).issues := by
  obtain ⟨_, _, reported, reordered⟩ := validate_suggestions misspelled blurHost rfl
  have of_single {id : String} {issue : Issue} (single : ((misspelled.validate blurHost).issues.filter fun issue =>
      issue.nodeId == id && issue.check == .typeExists) = [issue]) :
      issue ∈ (misspelled.validate blurHost).issues ∧ issue.nodeId = id ∧ issue.check = .typeExists := by
    have found := List.mem_filter.1 (single ▸ List.mem_singleton_self issue)
    simpa only [Bool.and_eq_true, beq_iff_eq] using found
  refine ⟨rfl, ?_, ?_, reordered _ (List.reverse_perm blurHost.types.entries)⟩
  · obtain ⟨issue, single, far, near⟩ := reported "1" _ "Blurr" rfl ⟨rfl, by decide⟩ rfl
    obtain ⟨found, about, _⟩ := of_single single
    refine ⟨issue, found, about, ?_⟩
    cases suggested : issue.suggestion with
    | none =>
      have close : defaultCutoff ≤ exactScore "Blurr" "Blur" := by decide +kernel
      exact absurd close (far.1 suggested "Blur" nearest_blur.known)
    | some best => rw [((near best suggested).2 "Blur").1 nearest_blur]
  · obtain ⟨issue, single, far, _⟩ := reported "2" _ "Zq" rfl ⟨rfl, by decide⟩ rfl
    obtain ⟨found, about, check⟩ := of_single single
    refine ⟨issue, found, about, check, far.2 fun type known => ?_⟩
    rcases (knows_blurHost_iff type).1 known with rfl | rfl
    · show ¬ defaultCutoff ≤ exactScore "Zq" "Blur"
      decide +kernel
    · show ¬ defaultCutoff ≤ exactScore "Zq" "Blurs"
      decide +kernel

end Graph

end NodeFlow
