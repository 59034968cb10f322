import Mathlib.Data.List.Basic
import NodeFlow.Proofs.Graph.EditFrames
import NodeFlow.Proofs.Validation.Parts

namespace NodeFlow

open NodeRules

-- What the rules see of a node that they are not about.
def Graph.SameFaces (a b : Graph) : Prop := ∀ id, (a.node? id).map Node.classType = (b.node? id).map Node.classType

section Rules

variable {a b : Graph} (faces : a.SameFaces b)

include faces

theorem contains_of_sameFaces (id : String) : a.contains id = b.contains id := by
  show (a.node? id).isSome = (b.node? id).isSome
  rw [← Option.isSome_map (f := Node.classType), faces id, Option.isSome_map]

theorem sourceClass?_of_sameFaces : sourceClass? a = sourceClass? b := by
  funext link
  have joined : ∀ graph : Graph, sourceClass? graph link = ((graph.node? link.source).map Node.classType).join := by
    intro graph
    unfold sourceClass?
    cases graph.node? link.source <;> rfl
  rw [joined, joined, faces]

variable (snapshot : Snapshot) (id : String) (node : Node)

theorem structuralIssuesOf_of_sameFaces : a.structuralIssuesOf id node = b.structuralIssuesOf id node := by
  simp only [Graph.structuralIssuesOf, Graph.danglingIssues, contains_of_sameFaces faces]

theorem nodeIssues_of_sameFaces :
    NodeRules.issues a snapshot id node = NodeRules.issues b snapshot id node := by
  simp only [NodeRules.issues, slotRange, slotIssue?, typeCompatibility, compatibilityIssue?,
    sourceClass?_of_sameFaces faces]

end Rules

namespace Table

variable {α : Type}

theorem filter_insert (table : Table α) (name : String) (value : α) :
    ((table.insert name value).entries.filter fun entry => entry.1 != name) =
      table.entries.filter fun entry => entry.1 != name := by
  have put := table.put_insert name value
  generalize table.entries = before, (table.insert name value).entries = after at put
  cases put with
  | replaced front old back => simp
  | appended entries absent => simp

end Table

inductive Edit.SetsInput (id : String) : Edit → Prop
  | connect (link : Link) (input : String) : SetsInput id (.connect link id input)
  | modify (input : String) (value : InputValue) : SetsInput id (.modify id input value)

namespace Graph

def issuesAbout (graph : Graph) (snapshot : Snapshot) (id : String) : List Issue :=
  match graph.node? id with
  | none => []
  | some node => graph.structuralIssuesOf id node ++
      if snapshot.isLoaded then NodeRules.issues graph snapshot id node else []

end Graph

-- The report with the issues about one node exchanged. The structural ones come first, and in both parts the nodes keep
-- their order.
def Report.reissued (before : Report) (ids : List String) (id : String) (own : List Issue) : Report :=
  { before with issues := [true, false].flatMap fun structural => ids.flatMap fun other =>
      (if other = id then own else before.issues).filter fun issue =>
        issue.nodeId == other && issue.check.isStructural == structural }

namespace Graph

section SetInput

variable {graph next : Graph} {id name : String} {value : InputValue}
  (set : graph.setInput? id name value = some next)

include set

theorem sameFaces_setInput : next.SameFaces graph := by
  intro other
  rw [graph.node?_setInput set]
  split
  · rename_i same
    rw [same, Option.map_map]
    rfl
  · rfl

theorem others_setInput : (next.nodes.entries.filter fun entry => entry.1 != id) =
    graph.nodes.entries.filter fun entry => entry.1 != id := by
  obtain ⟨node, _, rfl⟩ := (graph.setInput?_eq_some_iff id name value next).1 set
  exact graph.nodes.filter_insert id _

theorem ids_setInput : next.ids = graph.ids := by
  obtain ⟨node, found, rfl⟩ := (graph.setInput?_eq_some_iff id name value next).1 set
  have known : id ∈ graph.ids := (graph.contains_iff_mem_ids id).1 ((graph.contains_iff id).2 ⟨node, found⟩)
  exact (graph.nodes.names_insert id _).trans (if_pos known)

theorem inhabited_setInput : graph.isEmpty = false ∧ next.isEmpty = false ∧ ∃ node, next.node? id = some node := by
  obtain ⟨node, found, _⟩ := (graph.setInput?_eq_some_iff id name value next).1 set
  have changed := graph.node?_setInput set id
  rw [if_pos rfl, found, Option.map_some] at changed
  exact ⟨graph.isEmpty_eq_false_iff.2 ⟨id, node, found⟩, next.isEmpty_eq_false_iff.2 ⟨id, _, changed⟩, _, changed⟩

theorem issues_elsewhere_setInput (snapshot : Snapshot) :
    ((next.validate snapshot).issues.filter fun issue => issue.nodeId != id) =
      (graph.validate snapshot).issues.filter fun issue => issue.nodeId != id := by
  obtain ⟨inhabited, nextInhabited, _⟩ := inhabited_setInput set
  have faces := sameFaces_setInput set
  have structural : (next.structuralIssues.filter fun issue => issue.nodeId != id) =
      graph.structuralIssues.filter fun issue => issue.nodeId != id := by
    rw [structuralIssues_elsewhere, structuralIssues_elsewhere, others_setInput set]
    exact List.flatMap_congr fun entry _ => structuralIssuesOf_of_sameFaces faces entry.1 entry.2
  have catalog : ((next.catalogIssues snapshot).filter fun issue => issue.nodeId != id) =
      (graph.catalogIssues snapshot).filter fun issue => issue.nodeId != id := by
    rw [catalogIssues_elsewhere, catalogIssues_elsewhere, others_setInput set]
    exact List.flatMap_congr fun entry _ => nodeIssues_of_sameFaces faces snapshot entry.1 entry.2
  rw [issues_of_not_isEmpty _ _ inhabited, issues_of_not_isEmpty _ _ nextInhabited, List.filter_append,
    List.filter_append, structural]
  cases snapshot.isLoaded with
  | true => rw [if_pos rfl, if_pos rfl, catalog]
  | false => rfl

-- What the report says of a node in one of its parts is taken over, or made again if the node is the one that was set.
theorem part_setInput (snapshot : Snapshot) (structural : Bool) (other : String) :
    ((next.validate snapshot).issues.filter fun issue =>
      issue.nodeId == other && issue.check.isStructural == structural) =
    (if other = id then next.issuesAbout snapshot id else (graph.validate snapshot).issues).filter fun issue =>
      issue.nodeId == other && issue.check.isStructural == structural := by
  split
  · rename_i same
    obtain ⟨_, _, node, found⟩ := inhabited_setInput set
    have own : next.issuesAbout snapshot id = (next.validate snapshot).issues.filter fun issue => issue.nodeId == id := by
      rw [next.issues_of_node? snapshot id node found, issuesAbout, found]
    rw [own, List.filter_filter, same]
    refine List.filter_congr fun issue _ => ?_
    cases issue.nodeId == id <;> simp
  · rename_i apart
    have elsewhere : ∀ issues : List Issue, (issues.filter fun issue =>
        issue.nodeId == other && issue.check.isStructural == structural) =
        (issues.filter fun issue => issue.nodeId != id).filter fun issue =>
          issue.nodeId == other && issue.check.isStructural == structural := by
      intro issues
      rw [List.filter_filter]
      refine List.filter_congr fun issue _ => ?_
      by_cases here : issue.nodeId = other
      · simp [here, apart]
      · simp [here]
    rw [elsewhere, issues_elsewhere_setInput set snapshot, ← elsewhere]

theorem reissued_setInput (snapshot : Snapshot) : next.validate snapshot =
    (graph.validate snapshot).reissued graph.ids id (next.issuesAbout snapshot id) := by
  have issues : (next.validate snapshot).issues =
      ((graph.validate snapshot).reissued graph.ids id (next.issuesAbout snapshot id)).issues := by
    rw [next.issues_regrouped snapshot (inhabited_setInput set).2.1, ids_setInput set]
    simp only [part_setInput set snapshot]
    rfl
  have size : next.size = graph.size := by
    have sizes : ∀ graph : Graph, graph.size = graph.ids.length := fun graph => (List.length_map _).symm
    rw [sizes, sizes, ids_setInput set]
  calc next.validate snapshot
      = ⟨(next.validate snapshot).issues, next.size, snapshot.isLoaded⟩ := rfl
    _ = ⟨((graph.validate snapshot).reissued graph.ids id (next.issuesAbout snapshot id)).issues, graph.size,
          snapshot.isLoaded⟩ := by rw [issues, size]
    _ = (graph.validate snapshot).reissued graph.ids id (next.issuesAbout snapshot id) := rfl

end SetInput

theorem exists_setInput {graph : Graph} {edit : Edit} {id : String} (sets : edit.SetsInput id)
    (done : (graph.apply edit).2 = .done) :
    ∃ name value, graph.setInput? id name value = some (graph.apply edit).1 := by
  have settled : ∀ next : Option Graph, (graph.settled next).2 = .done → next = some (graph.settled next).1 := by
    intro next done
    cases next with
    | none => cases done
    | some next => rfl
  cases sets with
  | connect link input => exact ⟨input, .linked link, settled _ done⟩
  | modify input value => exact ⟨input, value.normalized, settled _ done⟩

-- Nothing that is said of the other nodes changes, and the report is made up of the earlier one and of what is found
-- about the node itself.
theorem validate_setInput (graph : Graph) (snapshot : Snapshot) (edit : Edit) (id : String) (sets : edit.SetsInput id)
    (done : (graph.apply edit).2 = .done) :
    (((graph.apply edit).1.validate snapshot).issues.filter fun issue => issue.nodeId != id) =
      ((graph.validate snapshot).issues.filter fun issue => issue.nodeId != id) ∧
    (graph.apply edit).1.validate snapshot =
      (graph.validate snapshot).reissued graph.ids id ((graph.apply edit).1.issuesAbout snapshot id) := by
  obtain ⟨name, value, set⟩ := exists_setInput sets done
  exact ⟨issues_elsewhere_setInput set snapshot, reissued_setInput set snapshot⟩

def unfed : Graph :=
  ⟨.ofList [("1", ⟨some "Load", none, none, []⟩),
    ("2", ⟨some "Blur", some (.ofList [("image", .linked ⟨"1", 4⟩), ("mask", .linked ⟨"7", 0⟩)]), none, []⟩)]⟩

def feeding : Edit := .connect ⟨"7", 2⟩ "1" "mask"

def feedHost : Snapshot :=
  ⟨.ofList [("Load", ⟨"Load", "", "Load", "", .empty, .empty, ["IMAGE"], []⟩)], none⟩

theorem unfed_reissued : feeding.SetsInput "1" ∧ (unfed.apply feeding).2 = .done ∧
    (unfed.validate feedHost).issues.map (fun issue => (issue.check, issue.nodeId)) =
      [(.missingInputs, "1"), (.linkValidity, "2"), (.typeExists, "2"), (.slotRange, "2")] ∧
    ((unfed.apply feeding).1.issuesAbout feedHost "1").map (fun issue => (issue.check, issue.nodeId)) =
      [(.linkValidity, "1")] ∧
    (((unfed.apply feeding).1.validate feedHost).issues.filter fun issue => issue.nodeId != "1") =
      ((unfed.validate feedHost).issues.filter fun issue => issue.nodeId != "1") ∧
    (unfed.apply feeding).1.validate feedHost =
      (unfed.validate feedHost).reissued unfed.ids "1" ((unfed.apply feeding).1.issuesAbout feedHost "1") :=
  ⟨.connect _ _, rfl, by decide +kernel, by decide +kernel,
    validate_setInput unfed feedHost feeding "1" (.connect _ _) rfl⟩

end Graph

end NodeFlow
