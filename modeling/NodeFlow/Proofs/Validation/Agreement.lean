import NodeFlow.Proofs.Graph.Agreement
import NodeFlow.Proofs.Validation.Verdict

namespace NodeFlow

open NodeRules

namespace Issue

-- All that an issue says but its wording, in which the two zeros are told apart.
def gist (issue : Issue) : Check × String × Severity × Option String :=
  (issue.check, issue.nodeId, issue.severity, issue.suggestion)

def SameGist (one other : Issue) : Prop := one.gist = other.gist

theorem SameGist.refl (issue : Issue) : issue.SameGist issue := Eq.refl issue.gist

end Issue

section Rules

variable {a b : Graph} {one other : Node} (graph : a.same b = true) (node : one.same other = true)
  (snapshot : Snapshot) (id : String) (schema : NodeType)

section Links

include graph

theorem sourceClass?_of_same : sourceClass? a = sourceClass? b := by
  funext link
  have sources := Graph.rel_node?_of_same graph link.source
  unfold sourceClass?
  generalize a.node? link.source = left, b.node? link.source = right at sources
  cases sources with
  | none => rfl
  | some alike => exact Node.classType_of_same alike

include node

theorem danglingIssues_perm : (a.danglingIssues id one).Perm (b.danglingIssues id other) := by
  unfold Graph.danglingIssues
  simp only [Graph.contains_of_same graph]
  exact (Node.links_perm_of_same node).filterMap _

theorem structuralIssuesOf_perm : (a.structuralIssuesOf id one).Perm (b.structuralIssuesOf id other) := by
  have inputs : one.inputs.isNone = other.inputs.isNone := by
    have inputs := Node.rel_inputs_of_same node
    generalize one.inputs = left, other.inputs = right at inputs
    cases inputs <;> rfl
  unfold Graph.structuralIssuesOf
  rw [Node.classType_of_same node, inputs]
  refine .append_left _ ?_
  split
  · exact .refl _
  · exact danglingIssues_perm graph node id

theorem slotRange_perm : (slotRange a snapshot id one).Perm (slotRange b snapshot id other) := by
  unfold slotRange slotIssue?
  rw [sourceClass?_of_same graph]
  exact (Node.links_perm_of_same node).filterMap _

theorem typeCompatibility_perm :
    (typeCompatibility a snapshot id one schema).Perm (typeCompatibility b snapshot id other schema) := by
  unfold typeCompatibility compatibilityIssue?
  rw [sourceClass?_of_same graph]
  exact (Node.links_perm_of_same node).filterMap _

end Links

section Literals

-- Whether a bound is met depends on the value alone, and only the wording on how it is written.
theorem matched_rangeIssues (spec : InputSpec) {literal equal : Json} (same : literal.same equal = true) :
    Matched Issue.SameGist (rangeIssues id schema spec literal) (rangeIssues id schema spec equal) := by
  have bounded : ∀ which bound, Matched Issue.SameGist [rangeIssue id schema spec literal which bound]
      [rangeIssue id schema spec equal which bound] := fun which bound =>
    matched_of_forall₂ (.cons (by simp only [Issue.SameGist, Issue.gist, rangeIssue, Issue.warning]) .nil)
  have numbers := Json.rel_number?_of_same same
  unfold rangeIssues
  generalize literal.number? = left, equal.number? = right at numbers
  cases numbers with
  | none => exact matched_of_forall₂ .nil
  | @some left right key =>
    have below (min : Float64) : min.isAbove left.toBinary64 = min.isAbove right.toBinary64 :=
      min.isAbove_of_key key
    have above (max : Float64) : max.isBelow left.toBinary64 = max.isBelow right.toBinary64 :=
      max.isBelow_of_key key
    simp only [below, above]
    refine Matched.append ?_ ?_
    all_goals
      split
      · split
        · exact bounded _ _
        · exact matched_of_forall₂ .nil
      · exact matched_of_forall₂ .nil

include node

theorem requiredInputs_of_same : requiredInputs id one schema = requiredInputs id other schema := by
  unfold requiredInputs
  congr 1
  funext name
  have held := Node.isSome_input?_of_same node name
  generalize one.input? name = left, other.input? name = right at held
  cases left <;> cases right <;> first | rfl | cases held

theorem matched_literalInputs :
    Matched (fun (left right : InputSpec × Json) => left.1 = right.1 ∧ left.2.same right.2 = true)
      (literalInputs one schema) (literalInputs other schema) := by
  refine (Node.matched_inputEntries_of_same node).filterMap fun left right alike => ?_
  have literals := InputValue.rel_literal?_of_same alike.2
  dsimp only
  rw [← alike.1]
  generalize left.2.literal? = x, right.2.literal? = y at literals
  cases literals with
  | none => exact .none
  | some same =>
    cases schema.input? left.1 with
    | none => exact .none
    | some spec => exact .some ⟨rfl, same⟩

theorem matched_valueRange :
    Matched Issue.SameGist (valueRange id one schema) (valueRange id other schema) := by
  refine (matched_literalInputs node schema).flatMap fun (spec, literal) (_, equal) alike => ?_
  obtain ⟨rfl, same⟩ := alike
  exact matched_rangeIssues id schema spec same

theorem matched_enumeratedChoice :
    Matched Issue.SameGist (enumeratedChoice id one schema) (enumeratedChoice id other schema) := by
  refine (matched_literalInputs node schema).filterMap fun (spec, literal) (_, equal) alike => ?_
  obtain ⟨rfl, same⟩ := alike
  have choice : choiceIssue? id schema spec literal = choiceIssue? id schema spec equal := by
    rw [choiceIssue?, choiceIssue?, Json.string?_of_same same]
  show Option.Rel Issue.SameGist (choiceIssue? id schema spec literal) (choiceIssue? id schema spec equal)
  rw [choice]
  cases choiceIssue? id schema spec equal with
  | none => exact .none
  | some issue => exact .some (.refl issue)

end Literals

include graph node in
theorem matched_nodeIssues :
    Matched Issue.SameGist (NodeRules.issues a snapshot id one) (NodeRules.issues b snapshot id other) := by
  have slots := matched_of_perm Issue.SameGist.refl (slotRange_perm graph node snapshot id)
  unfold NodeRules.issues
  rw [← Node.classType_of_same node]
  cases one.classType with
  | none => exact matched_of_forall₂ .nil
  | some name =>
    have type : Matched Issue.SameGist (typeExists snapshot id name) (typeExists snapshot id name) :=
      matched_of_perm Issue.SameGist.refl (.refl _)
    dsimp only
    cases snapshot.type? name with
    | none => exact type.append slots
    | some schema =>
      have required : Matched Issue.SameGist (requiredInputs id one schema) (requiredInputs id other schema) :=
        matched_of_perm Issue.SameGist.refl (.of_eq (requiredInputs_of_same node id schema))
      have compatible := matched_of_perm Issue.SameGist.refl (typeCompatibility_perm graph node snapshot id schema)
      exact ((((type.append required).append slots).append compatible).append
        (matched_valueRange node id schema)).append (matched_enumeratedChoice node id schema)

end Rules

namespace Graph

section Reports

variable {a b : Graph} (equal : a.same b = true) (snapshot : Snapshot)

include equal

theorem structuralIssues_perm_of_same : a.structuralIssues.Perm b.structuralIssues := by
  refine Matched.perm ((matched_entries_of_same equal).flatMap fun (id, one) (_, other) alike => ?_)
  obtain ⟨rfl, node⟩ := alike
  exact matched_of_perm Eq.refl (structuralIssuesOf_perm equal node id)

theorem matched_catalogIssues_of_same :
    Matched Issue.SameGist (a.catalogIssues snapshot) (b.catalogIssues snapshot) := by
  refine (matched_entries_of_same equal).flatMap fun (id, one) (_, other) alike => ?_
  obtain ⟨rfl, node⟩ := alike
  exact matched_nodeIssues equal node snapshot id

theorem gists_perm_of_same :
    ((a.validate snapshot).issues.map Issue.gist).Perm ((b.validate snapshot).issues.map Issue.gist) := by
  refine Matched.map_perm ?_
  unfold validate
  rw [isEmpty_of_same equal]
  split
  · exact matched_of_perm Issue.SameGist.refl (.refl _)
  · refine (matched_of_perm Issue.SameGist.refl (structuralIssues_perm_of_same equal)).append ?_
    split
    · exact matched_catalogIssues_of_same equal snapshot
    · exact matched_of_forall₂ .nil

theorem isValid_of_same : (a.validate snapshot).isValid = (b.validate snapshot).isValid := by
  have weights := (gists_perm_of_same equal snapshot).map fun gist => gist.2.2.1
  rw [List.map_map, List.map_map] at weights
  exact Report.isValid_of_severities weights

end Reports

-- Equality does not see in which order nodes and inputs stand, and neither does what is said of a workflow here. The
-- wording of an issue is left out: `0.0` and `-0.0` are equal and are written differently.
theorem same_agree {a b : Graph} (equal : a.same b = true) (snapshot : Snapshot) :
    a.nextId = b.nextId ∧
    (a.selfCheck.1 = b.selfCheck.1 ∧ a.selfCheck.2.Perm b.selfCheck.2) ∧
    ((a.validate snapshot).issues.map Issue.gist).Perm ((b.validate snapshot).issues.map Issue.gist) ∧
    (a.validate snapshot).isValid = (b.validate snapshot).isValid ∧
    a.linkGraph.executionOrder?.isSome = b.linkGraph.executionOrder?.isSome ∧
    ∀ id, a.linkGraph.suppliers id = b.linkGraph.suppliers id ∧
      a.linkGraph.consumers id = b.linkGraph.consumers id := by
  have structural := structuralIssues_perm_of_same equal
  exact ⟨nextId_of_same equal, ⟨structural.isEmpty_eq, structural⟩, gists_perm_of_same equal snapshot,
    isValid_of_same equal snapshot, executionOrder?_isSome_of_same equal,
    fun id => ⟨suppliers_of_same equal id, consumers_of_same equal id⟩⟩

def amount (value : Binary64) : InputValue := .literal (.number (.float value))

def sharpened : Graph :=
  ⟨.ofList [("1", ⟨some "Load", some .empty, none, []⟩),
    ("2", ⟨some "Sharpen", some (.ofList [("image", .linked ⟨"1", 0⟩), ("amount", amount .zero)]), none, []⟩)]⟩

def sharpenedBackwards : Graph :=
  ⟨.ofList [("2", ⟨some "Sharpen", some (.ofList [("amount", amount Binary64.zero.neg),
      ("image", .linked ⟨"1", 0⟩)]), none, []⟩),
    ("1", ⟨some "Load", some .empty, none, []⟩)]⟩

def sharpenType : NodeType where
  name := "Sharpen"
  category := "image"
  displayName := "Sharpen"
  description := ""
  requiredInputs := .ofList
    [("amount", ⟨"amount", .primitive "FLOAT", true, none, some (.finite ⟨false, 1, by decide⟩), none⟩)]
  optionalInputs := .empty
  outputTypes := ["IMAGE"]
  outputNames := ["IMAGE"]

def sharpenHost : Snapshot := ⟨.ofList [("Sharpen", sharpenType)], none⟩

theorem sharpened_agree : sharpened.same sharpenedBackwards = true ∧
    sharpened.nextId = sharpenedBackwards.nextId ∧
    (sharpened.validate sharpenHost).issues ≠ (sharpenedBackwards.validate sharpenHost).issues ∧
    ((sharpened.validate sharpenHost).issues.map Issue.gist).Perm
      ((sharpenedBackwards.validate sharpenHost).issues.map Issue.gist) ∧
    sharpened.linkGraph.consumers "1" = sharpenedBackwards.linkGraph.consumers "1" := by
  have equal : sharpened.same sharpenedBackwards = true := by decide +kernel
  obtain ⟨fresh, _, gists, _, _, neighbours⟩ := same_agree equal sharpenHost
  exact ⟨equal, fresh, by decide +kernel, gists, (neighbours "1").2⟩

end Graph

end NodeFlow
