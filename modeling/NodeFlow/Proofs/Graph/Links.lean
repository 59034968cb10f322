import Mathlib.Logic.Relation
import NodeFlow.Graph.Links
import NodeFlow.Proofs.Graph.Lookup
import NodeFlow.Proofs.Text.ByteOrder

namespace NodeFlow

namespace LinkGraph

-- Parallel edges and their slots make no difference here.
def Joins (links : LinkGraph) (source target : String) : Prop :=
  ∃ edge ∈ links.edges, edge.source = source ∧ edge.target = target

structure Closed (links : LinkGraph) : Prop where
  distinct : links.vertices.Nodup
  ends : ∀ source target, links.Joins source target → source ∈ links.vertices ∧ target ∈ links.vertices

def Acyclic (links : LinkGraph) : Prop := ∀ id, ¬ Relation.TransGen links.Joins id id

theorem mem_successors_iff (links : LinkGraph) (source target : String) :
    target ∈ links.successors source ↔ links.Joins source target := by
  simp [successors, Joins, and_assoc]

theorem mem_sources_iff (links : LinkGraph) (source target : String) :
    source ∈ links.sources target ↔ links.Joins source target := by
  simp [sources, Joins, and_assoc, and_comm]

section Neighbours

variable {names : List String}

theorem mem_insertName_iff (name other : String) : other ∈ insertName name names ↔ other = name ∨ other ∈ names := by
  induction names with
  | nil => simp [insertName]
  | cons first rest ih =>
    unfold insertName
    split
    · rename_i same
      simp [same]
    · split
      · simp
      · simp [ih, or_left_comm]

theorem mem_ascending_iff (name : String) : name ∈ ascending names ↔ name ∈ names := by
  induction names with
  | nil => rfl
  | cons first rest ih => rw [ascending, List.foldr_cons, mem_insertName_iff, List.mem_cons, ← ih]; rfl

theorem insertName_pairwise (name : String) (sorted : names.Pairwise Text.Precedes) :
    (insertName name names).Pairwise Text.Precedes := by
  induction names with
  | nil => exact List.pairwise_singleton ..
  | cons first rest ih =>
    obtain ⟨behind, others⟩ := List.pairwise_cons.1 sorted
    unfold insertName
    split
    · exact sorted
    · rename_i different
      split
      · rename_i before
        refine List.pairwise_cons.2 ⟨fun other member => ?_, sorted⟩
        rcases List.mem_cons.1 member with rfl | later
        · exact before
        · exact before.trans (behind other later)
      · rename_i notBefore
        refine List.pairwise_cons.2 ⟨fun other member => ?_, ih others⟩
        rcases (mem_insertName_iff name other).1 member with rfl | later
        · exact Text.precedes_of_not different notBefore
        · exact behind other later

theorem ascending_pairwise (names : List String) : (ascending names).Pairwise Text.Precedes := by
  induction names with
  | nil => exact .nil
  | cons first rest ih => exact insertName_pairwise first ih

-- Each name stands once, so the same names in ascending order are the same list.
theorem eq_of_pairwise_precedes {first second : List String} (one : first.Pairwise Text.Precedes)
    (two : second.Pairwise Text.Precedes) (same : ∀ name, name ∈ first ↔ name ∈ second) : first = second := by
  have distinct : ∀ {list : List String}, list.Pairwise Text.Precedes → list.Nodup := by
    intro list sorted
    refine sorted.imp fun {name other} before equal => ?_
    rw [equal] at before
    exact Text.precedes_irrefl other before
  refine ((List.perm_ext_iff_of_nodup (distinct one) (distinct two)).2 same).eq_of_pairwise ?_ one two
  exact fun name _ _ _ before after => absurd (before.trans after) (Text.precedes_irrefl name)

theorem suppliers_pairwise (links : LinkGraph) (id : String) : (links.suppliers id).Pairwise Text.Precedes := by
  unfold suppliers
  split
  · exact ascending_pairwise _
  · exact .nil

theorem consumers_pairwise (links : LinkGraph) (id : String) : (links.consumers id).Pairwise Text.Precedes := by
  unfold consumers
  split
  · exact ascending_pairwise _
  · exact .nil

theorem mem_suppliers_iff {links : LinkGraph} (closed : links.Closed) (source target : String) :
    source ∈ links.suppliers target ↔ links.Joins source target := by
  unfold suppliers
  split
  · rw [mem_ascending_iff, mem_sources_iff]
  · rename_i unknown
    exact ⟨fun member => absurd member List.not_mem_nil, fun joined => absurd (closed.ends _ _ joined).2 unknown⟩

theorem mem_consumers_iff {links : LinkGraph} (closed : links.Closed) (source target : String) :
    target ∈ links.consumers source ↔ links.Joins source target := by
  unfold consumers
  split
  · rw [mem_ascending_iff, mem_successors_iff]
  · rename_i unknown
    exact ⟨fun member => absurd member List.not_mem_nil, fun joined => absurd (closed.ends _ _ joined).1 unknown⟩

end Neighbours

end LinkGraph

namespace Graph

def Feeds (graph : Graph) (source target : String) : Prop :=
  ∃ node input link, graph.node? target = some node ∧ node.input? input = some (.linked link) ∧
    link.source = source ∧ graph.contains source = true

theorem mem_edgesInto_iff (graph : Graph) (target : String) (node : Node) (edge : Edge) :
    edge ∈ graph.edgesInto target node ↔
      edge.target = target ∧ node.input? edge.input = some (.linked ⟨edge.source, edge.slot⟩) ∧
        graph.contains edge.source = true := by
  constructor
  · intro member
    obtain ⟨⟨input, link⟩, found, made⟩ := List.mem_filterMap.1 member
    dsimp only at made
    split at made
    · rename_i present
      cases made
      exact ⟨rfl, (node.mem_links_iff input link).1 found, present⟩
    · cases made
  · intro feeding
    obtain ⟨rfl, found, present⟩ := feeding
    refine List.mem_filterMap.2 ⟨(edge.input, ⟨edge.source, edge.slot⟩), (node.mem_links_iff _ _).2 found, ?_⟩
    simp [present]

theorem linkGraph_joins_iff (graph : Graph) (source target : String) :
    graph.linkGraph.Joins source target ↔ graph.Feeds source target := by
  constructor
  · intro joined
    obtain ⟨edge, member, rfl, rfl⟩ := joined
    obtain ⟨⟨id, node⟩, held, into⟩ := List.mem_flatMap.1 member
    obtain ⟨rfl, found, present⟩ := (graph.mem_edgesInto_iff id node edge).1 into
    exact ⟨node, edge.input, _, (graph.mem_entries_iff _ _).1 held, found, rfl, present⟩
  · intro feeds
    obtain ⟨node, input, link, held, found, rfl, present⟩ := feeds
    refine ⟨⟨link.source, link.slot, target, input⟩, List.mem_flatMap.2 ⟨(target, node), ?_, ?_⟩, rfl, rfl⟩
    · exact (graph.mem_entries_iff target node).2 held
    · exact (graph.mem_edgesInto_iff target node _).2 ⟨rfl, found, present⟩

theorem Feeds.contains {graph : Graph} {source target : String} (feeds : graph.Feeds source target) :
    graph.contains source = true ∧ graph.contains target = true := by
  obtain ⟨node, _, _, held, _, _, present⟩ := feeds
  exact ⟨present, (graph.contains_iff target).2 ⟨node, held⟩⟩

theorem linkGraph_closed (graph : Graph) : graph.linkGraph.Closed := by
  refine ⟨graph.ids_nodup, ?_⟩
  intro source target joined
  obtain ⟨first, second⟩ := ((graph.linkGraph_joins_iff source target).1 joined).contains
  exact ⟨(graph.contains_iff_mem_ids source).1 first, (graph.contains_iff_mem_ids target).1 second⟩

theorem linkGraph_acyclic_iff (graph : Graph) :
    graph.linkGraph.Acyclic ↔ ∀ id, ¬ Relation.TransGen graph.Feeds id id := by
  have same : graph.linkGraph.Joins = graph.Feeds := by
    funext source target
    exact propext (graph.linkGraph_joins_iff source target)
  unfold LinkGraph.Acyclic
  rw [same]

theorem feeds_iff (graph : Graph) (source target : String) : graph.Feeds source target ↔
    source ∈ graph.ids ∧ target ∈ graph.ids ∧
      ∃ node input slot, graph.node? target = some node ∧ node.input? input = some (.linked ⟨source, slot⟩) := by
  simp only [← contains_iff_mem_ids]
  constructor
  · intro feeds
    obtain ⟨present, here⟩ := feeds.contains
    obtain ⟨node, input, link, held, found, rfl, _⟩ := feeds
    exact ⟨present, here, node, input, link.slot, held, found⟩
  · intro linked
    obtain ⟨present, _, node, input, slot, held, found⟩ := linked
    exact ⟨node, input, ⟨source, slot⟩, held, found, rfl, present⟩

-- One node supplies another exactly if the other consumes it; a missing node has neither, whatever links name it.
theorem neighbours_exact (graph : Graph) :
    (∀ a b, (a ∈ graph.linkGraph.suppliers b ↔ b ∈ graph.linkGraph.consumers a) ∧
      (a ∈ graph.linkGraph.suppliers b ↔ a ∈ graph.ids ∧ b ∈ graph.ids ∧
        ∃ node input slot, graph.node? b = some node ∧ node.input? input = some (.linked ⟨a, slot⟩))) ∧
    ∀ id, (graph.linkGraph.suppliers id).Pairwise (fun one other => Text.bytes one < Text.bytes other) ∧
      (graph.linkGraph.consumers id).Pairwise (fun one other => Text.bytes one < Text.bytes other) ∧
      (id ∉ graph.ids → graph.linkGraph.suppliers id = [] ∧ graph.linkGraph.consumers id = []) := by
  have closed := graph.linkGraph_closed
  refine ⟨fun a b => ?_, fun id => ⟨?_, ?_, fun absent => ⟨if_neg absent, if_neg absent⟩⟩⟩
  · rw [← graph.feeds_iff, ← graph.linkGraph_joins_iff, LinkGraph.mem_suppliers_iff closed,
      LinkGraph.mem_consumers_iff closed]
    exact ⟨Iff.rfl, Iff.rfl⟩
  · exact (graph.linkGraph.suppliers_pairwise id).imp (Text.precedes_iff_bytes _ _).1
  · exact (graph.linkGraph.consumers_pairwise id).imp (Text.precedes_iff_bytes _ _).1

def knotted : Graph :=
  ⟨.ofList [("b", ⟨some "Blend", some (.ofList [("base", .linked ⟨"a", 0⟩), ("mask", .linked ⟨"a", 1⟩),
      ("top", .linked ⟨"b", 0⟩), ("note", .linked ⟨"c", 0⟩)]), none, []⟩), ("a", ⟨some "Load", none, none, []⟩)]⟩

example : knotted.linkGraph.suppliers "b" = ["a", "b"] ∧ knotted.linkGraph.consumers "a" = ["b"] ∧
    knotted.linkGraph.consumers "c" = [] := by decide

end Graph

end NodeFlow
