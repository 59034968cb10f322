import Mathlib.Data.List.Count
import Mathlib.Data.List.Nodup
import NodeFlow.Graph.Links
import NodeFlow.Proofs.Validation.Parts

namespace NodeFlow

structure LinkedInput where
  node : String
  input : String
  link : Link
  deriving DecidableEq

namespace LinkedInput

def edge (held : LinkedInput) : Edge := ⟨held.link.source, held.link.slot, held.node, held.input⟩

def issue (held : LinkedInput) : Issue := Graph.danglingLink held.node held.input held.link

-- Nothing of a linked input is lost in its edge. An issue is a text and may be that of another input, too.
theorem edge_injective : Function.Injective edge := by
  rintro ⟨node, input, source, slot⟩ ⟨other, name, origin, place⟩ same
  obtain ⟨rfl, rfl, rfl, rfl⟩ := Edge.mk.inj same
  rfl

end LinkedInput

namespace Node

theorem inputEntries_distinct (node : Node) : (names node.inputEntries).Nodup := by
  unfold inputEntries
  cases node.inputs with
  | none => simp [names]
  | some inputs => exact inputs.distinct

theorem links_nodup (node : Node) : node.links.Nodup := by
  have apart := List.pairwise_map.1 node.inputEntries_distinct
  refine List.pairwise_filterMap.2 (apart.imp ?_)
  rintro ⟨name, value⟩ ⟨other, second⟩ different entry made rival rivalMade same
  obtain ⟨_, _, rfl⟩ := Option.map_eq_some_iff.1 made
  obtain ⟨_, _, rfl⟩ := Option.map_eq_some_iff.1 rivalMade
  exact different (Prod.mk.inj same).1

end Node

namespace Graph

def linkedInputsOf (id : String) (node : Node) : List LinkedInput :=
  node.links.map fun (input, link) => ⟨id, input, link⟩

def linkedInputs (graph : Graph) : List LinkedInput :=
  graph.nodes.entries.flatMap fun (id, node) => linkedInputsOf id node

def resolves (graph : Graph) (held : LinkedInput) : Bool := graph.contains held.link.source

def resolvedInputs (graph : Graph) : List LinkedInput := graph.linkedInputs.filter graph.resolves

def danglingInputs (graph : Graph) : List LinkedInput :=
  graph.linkedInputs.filter fun held => !graph.resolves held

theorem mem_linkedInputsOf_iff (id : String) (node : Node) (held : LinkedInput) :
    held ∈ linkedInputsOf id node ↔ held.node = id ∧ node.input? held.input = some (.linked held.link) := by
  rw [← node.mem_links_iff]
  constructor
  · intro member
    obtain ⟨⟨input, link⟩, found, rfl⟩ := List.mem_map.1 member
    exact ⟨rfl, found⟩
  · rintro ⟨rfl, found⟩
    exact List.mem_map.2 ⟨_, found, rfl⟩

theorem mem_linkedInputs_iff (graph : Graph) (held : LinkedInput) :
    held ∈ graph.linkedInputs ↔
      ∃ node, graph.node? held.node = some node ∧ node.input? held.input = some (.linked held.link) := by
  unfold linkedInputs
  rw [List.mem_flatMap]
  constructor
  · rintro ⟨⟨id, node⟩, entry, member⟩
    obtain ⟨rfl, linked⟩ := (mem_linkedInputsOf_iff id node held).1 member
    exact ⟨node, (graph.mem_entries_iff _ _).1 entry, linked⟩
  · rintro ⟨node, found, linked⟩
    exact ⟨(held.node, node), (graph.mem_entries_iff _ _).2 found, (mem_linkedInputsOf_iff _ _ _).2 ⟨rfl, linked⟩⟩

theorem linkedInputsOf_nodup (id : String) (node : Node) : (linkedInputsOf id node).Nodup := by
  refine node.links_nodup.map ?_
  rintro ⟨input, link⟩ ⟨other, second⟩ same
  obtain ⟨_, rfl, rfl⟩ := LinkedInput.mk.inj same
  rfl

theorem linkedInputs_nodup (graph : Graph) : graph.linkedInputs.Nodup := by
  refine List.nodup_flatMap.2 ⟨fun entry _ => linkedInputsOf_nodup entry.1 entry.2, ?_⟩
  refine (List.pairwise_map.1 graph.nodes.distinct).imp ?_
  intro entry other different held inOne inOther
  obtain ⟨one, _⟩ := (mem_linkedInputsOf_iff _ _ held).1 inOne
  obtain ⟨two, _⟩ := (mem_linkedInputsOf_iff _ _ held).1 inOther
  exact different (one.symm.trans two)

theorem map_filter_map {α β γ : Type} (items : List α) (image : α → β) (keep : β → Bool) (make : β → γ) :
    ((items.map image).filter keep).map make =
      items.filterMap fun item => if keep (image item) then some (make (image item)) else none := by
  induction items with
  | nil => rfl
  | cons item rest ih => by_cases kept : keep (image item) <;> simp [kept, ih]

theorem edges_eq (graph : Graph) : graph.linkGraph.edges = graph.resolvedInputs.map LinkedInput.edge := by
  unfold resolvedInputs linkedInputs linkedInputsOf
  simp only [List.filter_flatMap, List.map_flatMap, map_filter_map]
  rfl

theorem linkValidity_of_structuralIssuesOf (graph : Graph) (id : String) (node : Node) :
    ((graph.structuralIssuesOf id node).filter fun issue => issue.check == .linkValidity) =
      graph.danglingIssues id node := by
  have dangling := (uniform_danglingIssues graph id node).marked.filter_of_keep (· == .linkValidity) rfl
  have untyped := (uniform_missingClassType id node).marked.filter_of_drop (· == .linkValidity) rfl
  unfold structuralIssuesOf
  rw [List.filter_append, untyped, List.nil_append]
  cases inputs : node.inputs with
  | none =>
    -- Without inputs there is no link that the early end could pass over.
    have unlinked : node.links = [] := by simp [Node.links, Node.inputEntries, inputs]
    rw [danglingIssues, unlinked]
    rfl
  | some table => exact dangling

theorem linkValidity_issues_eq (graph : Graph) :
    (graph.selfCheck.2.filter fun issue => issue.check == .linkValidity) =
      graph.danglingInputs.map LinkedInput.issue := by
  unfold danglingInputs linkedInputs linkedInputsOf
  show (graph.structuralIssues.filter _) = _
  simp only [structuralIssues, List.filter_flatMap, List.map_flatMap, map_filter_map,
    linkValidity_of_structuralIssuesOf, danglingIssues]
  congr 1
  funext entry
  congr 1
  funext held
  cases known : graph.contains held.2.source <;> simp [resolves, known, LinkedInput.issue]

theorem resolved_append_dangling_perm (graph : Graph) :
    (graph.resolvedInputs ++ graph.danglingInputs).Perm graph.linkedInputs :=
  List.filter_append_perm graph.resolves graph.linkedInputs

theorem edge_ends (graph : Graph) {held : LinkedInput} (member : held ∈ graph.resolvedInputs) :
    held.edge.source ∈ graph.linkGraph.vertices ∧ held.edge.target ∈ graph.linkGraph.vertices := by
  obtain ⟨linked, resolved⟩ := List.mem_filter.1 member
  obtain ⟨node, found, _⟩ := (graph.mem_linkedInputs_iff held).1 linked
  have target := (graph.contains_iff held.node).2 ⟨node, found⟩
  exact ⟨(graph.contains_iff_mem_ids _).1 resolved, (graph.contains_iff_mem_ids _).1 target⟩

-- Edges can be counted as they are, issues by the linked inputs they are made of.
theorem count_edge_add_count_dangling (graph : Graph) {held : LinkedInput} (member : held ∈ graph.linkedInputs) :
    graph.linkGraph.edges.count held.edge + graph.danglingInputs.count held = 1 := by
  have parts := graph.resolved_append_dangling_perm.count_eq held
  rw [List.count_append, List.count_eq_one_of_mem graph.linkedInputs_nodup member] at parts
  rw [edges_eq, List.count_map_of_injective _ _ LinkedInput.edge_injective, parts]

-- Vertices are the ids in their order. An edge is what a linked input says whose source exists, an issue of the
-- structural check about links what one says whose source does not, both in the order of nodes and of inputs.
theorem linkedInputs_classified (graph : Graph) :
    (graph.linkGraph.vertices = graph.ids ∧ graph.linkGraph.vertices.Nodup) ∧
    (graph.linkedInputs.Nodup ∧ ∀ held, held ∈ graph.linkedInputs ↔
      ∃ node, graph.node? held.node = some node ∧ node.input? held.input = some (.linked held.link)) ∧
    (graph.linkGraph.edges = (graph.linkedInputs.filter fun held => graph.contains held.link.source).map
        (fun held => ⟨held.link.source, held.link.slot, held.node, held.input⟩) ∧
      ∀ edge ∈ graph.linkGraph.edges,
        edge.source ∈ graph.linkGraph.vertices ∧ edge.target ∈ graph.linkGraph.vertices) ∧
    (graph.selfCheck.2.filter fun issue => issue.check == .linkValidity) =
      (graph.linkedInputs.filter fun held => !graph.contains held.link.source).map
        (fun held => danglingLink held.node held.input held.link) ∧
    ∀ held ∈ graph.linkedInputs, graph.linkGraph.edges.count held.edge + graph.danglingInputs.count held = 1 := by
  refine ⟨⟨rfl, graph.ids_nodup⟩, ⟨graph.linkedInputs_nodup, graph.mem_linkedInputs_iff⟩, ⟨graph.edges_eq, ?_⟩,
    graph.linkValidity_issues_eq, fun held member => graph.count_edge_add_count_dangling member⟩
  intro edge member
  rw [edges_eq] at member
  obtain ⟨held, resolved, rfl⟩ := List.mem_map.1 member
  exact graph.edge_ends resolved

def meshedNode : Node :=
  ⟨some "Blend", some (.ofList [("base", .linked ⟨"1", 0⟩), ("top", .linked ⟨"1", 0⟩), ("mask", .linked ⟨"2", 1⟩),
    ("noise", .linked ⟨"9", 3⟩)]), none, []⟩

def meshed : Graph := ⟨.ofList [("1", ⟨none, none, none, []⟩), ("2", meshedNode)]⟩

theorem meshed_classified :
    meshed.linkGraph.edges = [⟨"1", 0, "2", "base"⟩, ⟨"1", 0, "2", "top"⟩, ⟨"2", 1, "2", "mask"⟩] ∧
    (⟨"2", "noise", ⟨"9", 3⟩⟩ : LinkedInput) ∈ meshed.linkedInputs ∧
    meshed.danglingInputs.count ⟨"2", "noise", ⟨"9", 3⟩⟩ = 1 := by
  obtain ⟨_, _, ⟨edges, _⟩, _, once⟩ := linkedInputs_classified meshed
  have member : (⟨"2", "noise", ⟨"9", 3⟩⟩ : LinkedInput) ∈ meshed.linkedInputs := by decide
  have told := once _ member
  have none : meshed.linkGraph.edges.count (⟨"2", "noise", ⟨"9", 3⟩⟩ : LinkedInput).edge = 0 := by decide
  rw [none, Nat.zero_add] at told
  exact ⟨edges.trans (by decide), member, told⟩

end Graph

end NodeFlow
