import NodeFlow.Proofs.Graph.Lookup
import NodeFlow.Proofs.Validation.Rules

namespace NodeFlow

def Marked (id : String) (check : Check) (issues : List Issue) : Prop :=
  ∀ issue ∈ issues, issue.nodeId = id ∧ issue.check = check

section Marks

variable {id : String} {check : Check}

theorem Uniform.marked {severity : Severity} {issues : List Issue} (uniform : Uniform id check severity issues) :
    Marked id check issues := by
  intro issue found
  obtain ⟨message, rfl⟩ := uniform issue found
  exact ⟨rfl, rfl⟩

-- A choice of issues by their check takes all that a rule makes, or none.
theorem Marked.filter_of_keep {issues : List Issue} (marked : Marked id check issues) (keep : Check → Bool)
    (kept : keep check = true) : (issues.filter fun issue => keep issue.check) = issues :=
  List.filter_eq_self.2 fun issue found => (congrArg keep (marked issue found).2).trans kept

theorem Marked.filter_of_drop {issues : List Issue} (marked : Marked id check issues) (keep : Check → Bool)
    (dropped : keep check = false) : (issues.filter fun issue => keep issue.check) = [] :=
  List.filter_eq_nil_iff.2 fun issue found =>
    Bool.eq_false_iff.1 ((congrArg keep (marked issue found).2).trans dropped)

end Marks

theorem marked_typeExists (snapshot : Snapshot) (id classType : String) :
    Marked id .typeExists (NodeRules.typeExists snapshot id classType) := by
  intro issue found
  obtain ⟨_, rfl⟩ := (mem_typeExists_iff snapshot id classType issue).1 found
  exact ⟨rfl, rfl⟩

def About (id : String) (structural : Bool) (issues : List Issue) : Prop :=
  ∀ issue ∈ issues, issue.nodeId = id ∧ issue.check.isStructural = structural

theorem about_structuralIssuesOf (graph : Graph) (id : String) (node : Node) :
    About id true (graph.structuralIssuesOf id node) := by
  intro issue found
  obtain ⟨check, message, structural, rfl⟩ := mem_structuralIssuesOf found
  exact ⟨rfl, structural⟩

theorem about_nodeIssues (graph : Graph) (snapshot : Snapshot) (id : String) (node : Node) :
    About id false (NodeRules.issues graph snapshot id node) := by
  intro issue found
  rcases mem_nodeIssues found with ⟨name, _, unknown⟩ | ⟨check, message, severity, catalog, _, rfl⟩
  · obtain ⟨_, rfl⟩ := (mem_typeExists_iff snapshot id name issue).1 unknown
    exact ⟨rfl, rfl⟩
  · exact ⟨rfl, catalog⟩

section Entries

variable {α : Type} (issuesOf : String × α → List Issue)
  (owned : ∀ entry issue, issue ∈ issuesOf entry → issue.nodeId = entry.1)

-- Under distinct names the issues about a node are those that its own entry gave rise to.
include owned in
theorem filter_flatMap_of_owned (entries : List (String × α)) (distinct : (names entries).Nodup)
    (entry : String × α) (member : entry ∈ entries) :
    ((entries.flatMap issuesOf).filter fun issue => issue.nodeId == entry.1) = issuesOf entry := by
  have all : ∀ other : String × α, other.1 = entry.1 →
      ((issuesOf other).filter fun issue => issue.nodeId == entry.1) = issuesOf other := by
    intro other same
    refine List.filter_eq_self.2 fun issue found => ?_
    rw [owned other issue found, same, beq_self_eq_true]
  have none : ∀ other : String × α, other.1 ≠ entry.1 →
      ((issuesOf other).filter fun issue => issue.nodeId == entry.1) = [] := by
    intro other apart
    refine List.filter_eq_nil_iff.2 fun issue found => ?_
    rw [owned other issue found]
    simpa using apart
  induction entries with
  | nil => cases member
  | cons first rest ih =>
    obtain ⟨fresh, distinct⟩ := List.nodup_cons.1 distinct
    rw [List.flatMap_cons, List.filter_append]
    rcases List.mem_cons.1 member with rfl | later
    · have silent : ((rest.flatMap issuesOf).filter fun issue => issue.nodeId == entry.1) = [] := by
        rw [List.filter_flatMap, List.flatMap_eq_nil_iff]
        exact fun other found => none other fun same => fresh (same ▸ List.mem_map_of_mem found)
      rw [all entry rfl, silent, List.append_nil]
    · have apart : first.1 ≠ entry.1 := fun same => fresh (same ▸ List.mem_map_of_mem later)
      rw [none first apart, List.nil_append, ih distinct later]

include owned in
theorem filter_flatMap_ne_of_owned (entries : List (String × α)) (id : String) :
    ((entries.flatMap issuesOf).filter fun issue => issue.nodeId != id) =
      (entries.filter fun entry => entry.1 != id).flatMap issuesOf := by
  induction entries with
  | nil => rfl
  | cons entry rest ih =>
    rw [List.flatMap_cons, List.filter_append, ih]
    by_cases same : entry.1 = id
    · have dropped : ((issuesOf entry).filter fun issue => issue.nodeId != id) = [] :=
        List.filter_eq_nil_iff.2 fun issue found => by simp [owned entry issue found, same]
      simp [dropped, same]
    · have kept : ((issuesOf entry).filter fun issue => issue.nodeId != id) = issuesOf entry :=
        List.filter_eq_self.2 fun issue found => by simp [owned entry issue found, same]
      simp [kept, same]

end Entries

-- One node's issues stand together, and the nodes follow each other as the ids do.
def Grouped (ids : List String) (issues : List Issue) : Prop :=
  issues = ids.flatMap fun id => issues.filter fun issue => issue.nodeId == id

theorem grouped_flatMap {α : Type} (issuesOf : String × α → List Issue)
    (owned : ∀ entry issue, issue ∈ issuesOf entry → issue.nodeId = entry.1)
    (entries : List (String × α)) (distinct : (names entries).Nodup) :
    Grouped (names entries) (entries.flatMap issuesOf) := by
  unfold Grouped names
  rw [List.flatMap_map, List.flatMap_def, List.flatMap_def]
  congr 1
  exact List.map_congr_left fun entry member =>
    (filter_flatMap_of_owned issuesOf owned entries distinct entry member).symm

namespace Graph

variable (graph : Graph) (snapshot : Snapshot)

theorem isStructural_of_mem_structuralIssues {issue : Issue} (found : issue ∈ graph.structuralIssues) :
    issue.check.isStructural = true := by
  obtain ⟨entry, _, made⟩ := List.mem_flatMap.1 found
  exact (about_structuralIssuesOf graph entry.1 entry.2 issue made).2

theorem isStructural_of_mem_catalogIssues {issue : Issue} (found : issue ∈ graph.catalogIssues snapshot) :
    issue.check.isStructural = false := by
  obtain ⟨entry, _, made⟩ := List.mem_flatMap.1 found
  exact (about_nodeIssues graph snapshot entry.1 entry.2 issue made).2

theorem owned_structuralIssuesOf (entry : String × Node) (issue : Issue)
    (found : issue ∈ graph.structuralIssuesOf entry.1 entry.2) : issue.nodeId = entry.1 :=
  (about_structuralIssuesOf graph entry.1 entry.2 issue found).1

theorem owned_nodeIssues (entry : String × Node) (issue : Issue)
    (found : issue ∈ NodeRules.issues graph snapshot entry.1 entry.2) : issue.nodeId = entry.1 :=
  (about_nodeIssues graph snapshot entry.1 entry.2 issue found).1

theorem grouped_structuralIssues : Grouped graph.ids graph.structuralIssues :=
  grouped_flatMap _ graph.owned_structuralIssuesOf graph.nodes.entries graph.nodes.distinct

theorem grouped_catalogIssues : Grouped graph.ids (graph.catalogIssues snapshot) :=
  grouped_flatMap _ (graph.owned_nodeIssues snapshot) graph.nodes.entries graph.nodes.distinct

theorem issues_of_isEmpty (empty : graph.isEmpty = true) :
    (graph.validate snapshot).issues = [emptyWorkflow] := by simp [validate, empty]

theorem issues_of_not_isEmpty (inhabited : graph.isEmpty = false) : (graph.validate snapshot).issues =
    graph.structuralIssues ++ if snapshot.isLoaded then graph.catalogIssues snapshot else [] := by
  simp [validate, inhabited]

theorem issues_of_node? (id : String) (node : Node) (found : graph.node? id = some node) :
    ((graph.validate snapshot).issues.filter fun issue => issue.nodeId == id) =
      graph.structuralIssuesOf id node ++
        if snapshot.isLoaded then NodeRules.issues graph snapshot id node else [] := by
  have inhabited := (graph.isEmpty_eq_false_iff).2 ⟨id, node, found⟩
  have member := (graph.mem_entries_iff id node).2 found
  have structural : (graph.structuralIssues.filter fun issue => issue.nodeId == id) =
      graph.structuralIssuesOf id node :=
    filter_flatMap_of_owned (fun entry => graph.structuralIssuesOf entry.1 entry.2) graph.owned_structuralIssuesOf
      graph.nodes.entries graph.nodes.distinct (id, node) member
  have catalog : ((graph.catalogIssues snapshot).filter fun issue => issue.nodeId == id) =
      NodeRules.issues graph snapshot id node :=
    filter_flatMap_of_owned (fun entry => NodeRules.issues graph snapshot entry.1 entry.2)
      (graph.owned_nodeIssues snapshot) graph.nodes.entries graph.nodes.distinct (id, node) member
  rw [graph.issues_of_not_isEmpty snapshot inhabited, List.filter_append, structural]
  cases snapshot.isLoaded with
  | true => rw [if_pos rfl, if_pos rfl, catalog]
  | false => rfl

theorem issues_about (id : String) (node : Node) (loaded : snapshot.isLoaded = true)
    (found : graph.node? id = some node) :
    ((graph.validate snapshot).issues.filter fun issue => issue.nodeId == id) =
      graph.structuralIssuesOf id node ++ NodeRules.issues graph snapshot id node := by
  rw [graph.issues_of_node? snapshot id node found, loaded, if_pos rfl]

theorem structuralIssues_elsewhere (id : String) :
    (graph.structuralIssues.filter fun issue => issue.nodeId != id) =
      (graph.nodes.entries.filter fun entry => entry.1 != id).flatMap fun entry =>
        graph.structuralIssuesOf entry.1 entry.2 :=
  filter_flatMap_ne_of_owned _ graph.owned_structuralIssuesOf graph.nodes.entries id

theorem catalogIssues_elsewhere (id : String) :
    ((graph.catalogIssues snapshot).filter fun issue => issue.nodeId != id) =
      (graph.nodes.entries.filter fun entry => entry.1 != id).flatMap fun entry =>
        NodeRules.issues graph snapshot entry.1 entry.2 :=
  filter_flatMap_ne_of_owned _ (graph.owned_nodeIssues snapshot) graph.nodes.entries id

theorem filter_structural (later : List Issue) (catalog : ∀ issue ∈ later, issue.check.isStructural = false) :
    ((graph.structuralIssues ++ later).filter fun issue => issue.check.isStructural) =
      graph.structuralIssues := by
  have kept := List.filter_eq_self.2 fun issue found => graph.isStructural_of_mem_structuralIssues found
  have dropped := List.filter_eq_nil_iff.2 fun issue found => Bool.eq_false_iff.1 (catalog issue found)
  rw [List.filter_append, kept, dropped, List.append_nil]

theorem filter_catalog (later : List Issue) (catalog : ∀ issue ∈ later, issue.check.isStructural = false) :
    ((graph.structuralIssues ++ later).filter fun issue => !issue.check.isStructural) = later := by
  have dropped : (graph.structuralIssues.filter fun issue => !issue.check.isStructural) = [] :=
    List.filter_eq_nil_iff.2 fun issue found => by simp [graph.isStructural_of_mem_structuralIssues found]
  have kept : (later.filter fun issue => !issue.check.isStructural) = later :=
    List.filter_eq_self.2 fun issue found => by simp [catalog issue found]
  rw [List.filter_append, dropped, kept, List.nil_append]

theorem exists_catalogPart (inhabited : graph.isEmpty = false) : ∃ later,
    (graph.validate snapshot).issues = graph.structuralIssues ++ later ∧
    (∀ issue ∈ later, issue.check.isStructural = false) ∧ Grouped graph.ids later := by
  refine ⟨_, graph.issues_of_not_isEmpty snapshot inhabited, ?_⟩
  split
  · exact ⟨fun _ found => graph.isStructural_of_mem_catalogIssues snapshot found, graph.grouped_catalogIssues snapshot⟩
  · exact ⟨nofun, by simp [Grouped]⟩

-- A report is put together again from what it says about each node in each of its two parts.
theorem issues_regrouped (inhabited : graph.isEmpty = false) : (graph.validate snapshot).issues =
    [true, false].flatMap fun structural => graph.ids.flatMap fun id =>
      (graph.validate snapshot).issues.filter fun issue =>
        issue.nodeId == id && issue.check.isStructural == structural := by
  obtain ⟨later, whole, catalog, grouped⟩ := graph.exists_catalogPart snapshot inhabited
  have first := graph.filter_structural later catalog
  have second := graph.filter_catalog later catalog
  simp only [List.flatMap_cons, List.flatMap_nil, List.append_nil, beq_true, beq_false, whole, ← List.filter_filter,
    first, second]
  rw [← graph.grouped_structuralIssues, ← grouped]

theorem issues_prefix_of_unloaded (unloaded : Snapshot) (blank : unloaded.isLoaded = false) :
    (graph.validate unloaded).issues <+: (graph.validate snapshot).issues := by
  cases inhabited : graph.isEmpty with
  | true => simp [issues_of_isEmpty _ _ inhabited]
  | false => simp [issues_of_not_isEmpty _ _ inhabited, blank]

-- A report is what the workflow finds of itself, and after that what the catalog adds; without a
-- catalog the report only ends earlier.
theorem issues_parts :
    (graph.isEmpty = false → ∃ later, (graph.validate snapshot).issues = graph.selfCheck.2 ++ later ∧
      ((graph.validate snapshot).issues.filter fun issue => issue.check.isStructural) = graph.selfCheck.2 ∧
      (∀ issue ∈ later, issue.check.isStructural = false) ∧ (snapshot.isLoaded = false → later = []) ∧
      Grouped graph.ids later) ∧
    (∀ unloaded : Snapshot, unloaded.isLoaded = false →
      (graph.validate unloaded).issues <+: (graph.validate snapshot).issues) ∧
    (graph.isEmpty = true → (graph.validate snapshot).issues =
      [⟨.emptyWorkflow, "", "Workflow is empty", .error, none⟩]) := by
  refine ⟨fun inhabited => ?_, graph.issues_prefix_of_unloaded snapshot, graph.issues_of_isEmpty snapshot⟩
  have whole := graph.issues_of_not_isEmpty snapshot inhabited
  cases loaded : snapshot.isLoaded with
  | true =>
    have catalog : ∀ issue ∈ graph.catalogIssues snapshot, issue.check.isStructural = false :=
      fun _ found => graph.isStructural_of_mem_catalogIssues snapshot found
    rw [loaded, if_pos rfl] at whole
    rw [whole]
    exact ⟨_, rfl, graph.filter_structural _ catalog, catalog, Bool.noConfusion,
      graph.grouped_catalogIssues snapshot⟩
  | false =>
    rw [loaded, if_neg Bool.false_ne_true] at whole
    rw [whole]
    exact ⟨[], rfl, graph.filter_structural [] (by simp), by simp, fun _ => rfl, by simp [Grouped]⟩

def unserved : Graph := ⟨.ofList [("1", ⟨some "Blur", none, none, []⟩)]⟩

def savingHost : Snapshot :=
  ⟨.ofList [("SaveImage", ⟨"SaveImage", "image", "Save Image", "", .empty, .empty, [], []⟩)], none⟩

theorem unserved_parts : ∃ later, (unserved.validate savingHost).issues = unserved.selfCheck.2 ++ later ∧
    later.length = 1 ∧ Grouped unserved.ids later := by
  obtain ⟨later, whole, _, _, _, grouped⟩ := (unserved.issues_parts savingHost).1 rfl
  have all : (unserved.validate savingHost).issues.length = 2 := rfl
  have own : unserved.selfCheck.2.length = 1 := rfl
  rw [whole, List.length_append, own] at all
  exact ⟨later, whole, Nat.add_left_cancel all, grouped⟩

end Graph

end NodeFlow
