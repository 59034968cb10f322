import Mathlib.Data.List.Basic
import NodeFlow.Proofs.Graph.Search

namespace NodeFlow

namespace LinkGraph

variable {links : LinkGraph}

def SourcesPlaced (links : LinkGraph) (met : List String) : List String → Prop
  | [] => True
  | vertex :: rest =>
    (∀ source, links.Joins source vertex → source ∈ vertex :: met) ∧ links.SourcesPlaced (vertex :: met) rest

theorem stepBack_eq_none_iff (met stack : List String) :
    links.stepBack met stack = none ↔ ∀ vertex ∈ stack, vertex ∈ met := by
  induction stack with
  | nil => simp [stepBack]
  | cons top below ih => by_cases known : top ∈ met <;> simp [stepBack, known, ih]

-- The walks of the second pass meet one vertex each exactly if the sources are placed.
theorem walksAlone_iff {met order : List String} (once : order.Nodup) (new : ∀ vertex ∈ order, vertex ∉ met) :
    links.walksAlone met order = true ↔ links.SourcesPlaced met order := by
  induction order generalizing met with
  | nil => simp [walksAlone, SourcesPlaced]
  | cons vertex rest ih =>
    obtain ⟨single, others⟩ := List.nodup_cons.1 once
    have unmet : vertex ∉ met := new vertex List.mem_cons_self
    have later : ∀ other ∈ rest, other ∉ vertex :: met := by
      intro other member known
      rcases List.mem_cons.1 known with rfl | known
      · exact single member
      · exact new other (List.mem_cons_of_mem _ member) known
    -- Only sources that are not met would be left on the stack.
    have alone : (links.stepBack (vertex :: met)
          ((links.sources vertex).filter (fun source => !(vertex :: met).contains source) ++ [])).isNone = true ↔
        ∀ source, links.Joins source vertex → source ∈ vertex :: met := by
      rw [Option.isNone_iff_eq_none, stepBack_eq_none_iff]
      simp only [List.append_nil, List.mem_filter, mem_sources_iff]
      constructor
      · intro known source joined
        by_contra absent
        exact absent (known source ⟨joined, by simpa using absent⟩)
      · intro known source found
        exact known source found.1
    simp only [walksAlone, stepBack, if_neg unmet, Bool.and_eq_true, alone, ih others later, SourcesPlaced]

theorem idxOf_lt_of_sourcesPlaced {met order : List String} (placed : links.SourcesPlaced met order)
    {source target : String} (joined : links.Joins source target) (apart : source ≠ target)
    (new : source ∉ met) (listed : target ∈ order) : order.idxOf source < order.idxOf target := by
  induction order generalizing met with
  | nil => exact absurd listed List.not_mem_nil
  | cons vertex rest ih =>
    obtain ⟨first, placed⟩ := placed
    have second : vertex ≠ target := by
      intro same
      subst same
      exact (List.mem_cons.1 (first source joined)).elim apart new
    rw [List.idxOf_cons_ne rest second]
    by_cases here : vertex = source
    · rw [here, List.idxOf_cons_self]
      exact Nat.succ_pos _
    · rw [List.idxOf_cons_ne rest here]
      have behind : target ∈ rest := (List.mem_cons.1 listed).resolve_left (Ne.symm second)
      have still : source ∉ vertex :: met := fun known =>
        (List.mem_cons.1 known).elim (fun same => here same.symm) new
      exact Nat.succ_lt_succ (ih placed still behind)

theorem Settled.mem_of_joins {order : List String} (settled : links.Settled order) {source target : String}
    (joined : links.Joins source target) (listed : source ∈ order) : target ∈ order := by
  induction order with
  | nil => exact absurd listed List.not_mem_nil
  | cons vertex rest ih =>
    obtain ⟨first, settled⟩ := settled
    rcases List.mem_cons.1 listed with rfl | listed
    · exact List.mem_cons_of_mem _ (first target joined)
    · exact List.mem_cons_of_mem _ (ih settled listed)

-- Successors behind every vertex are sources before every vertex, once nothing is left out.
theorem Settled.sourcesPlaced {met order : List String} (settled : links.Settled order) (once : order.Nodup)
    (all : ∀ source target, links.Joins source target → target ∈ order → source ∈ met ∨ source ∈ order) :
    links.SourcesPlaced met order := by
  induction order generalizing met with
  | nil => trivial
  | cons vertex rest ih =>
    obtain ⟨_, later⟩ := settled
    obtain ⟨single, others⟩ := List.nodup_cons.1 once
    refine ⟨?_, ih later others ?_⟩
    · intro source joined
      rcases all source vertex joined List.mem_cons_self with known | listed
      · exact List.mem_cons_of_mem _ known
      · rcases List.mem_cons.1 listed with rfl | behind
        · exact List.mem_cons_self
        · exact absurd (later.mem_of_joins joined behind) single
    · intro source target joined behind
      rcases all source target joined (List.mem_cons_of_mem _ behind) with known | listed
      · exact .inl (List.mem_cons_of_mem _ known)
      · rcases List.mem_cons.1 listed with rfl | listed
        · exact .inl List.mem_cons_self
        · exact .inr listed

theorem executionOrder?_eq_some {order : List String} (done : links.executionOrder? = some order) :
    ∃ last, links.searchFrom links.vertices ⟨[], [], []⟩ = some last ∧ links.walksAlone [] last.finished = true ∧
      last.finished = order := by
  unfold executionOrder? at done
  split at done
  · rename_i last searched
    split at done
    · rename_i alone
      cases done
      exact ⟨last, searched, alone, rfl⟩
    · cases done
  · cases done

theorem executionOrder?_sound (closed : links.Closed) {order : List String}
    (done : links.executionOrder? = some order) :
    order.Nodup ∧ (∀ vertex, vertex ∈ order ↔ vertex ∈ links.vertices) ∧
      ∀ source target, links.Joins source target → order.idxOf source < order.idxOf target := by
  obtain ⟨last, searched, alone, rfl⟩ := executionOrder?_eq_some done
  obtain ⟨once, all, loopless⟩ := searchFrom_finished closed searched
  have placed := (walksAlone_iff once fun _ _ => List.not_mem_nil).1 alone
  refine ⟨once, all, ?_⟩
  intro source target joined
  have apart : source ≠ target := by
    intro same
    subst same
    exact loopless source joined
  have listed := (all target).2 (closed.ends source target joined).2
  exact idxOf_lt_of_sourcesPlaced placed joined apart List.not_mem_nil listed

theorem executionOrder?_isSome_iff (closed : links.Closed) :
    links.executionOrder?.isSome = true ↔ links.Acyclic := by
  constructor
  · intro some_ id cycle
    obtain ⟨order, done⟩ := Option.isSome_iff_exists.1 some_
    obtain ⟨_, _, before⟩ := executionOrder?_sound closed done
    -- Along a cycle the place in the order would grow and come back.
    have grows : ∀ target, Relation.TransGen links.Joins id target → order.idxOf id < order.idxOf target := by
      intro target path
      induction path with
      | single joined => exact before _ _ joined
      | tail _ joined ih => exact Nat.lt_trans ih (before _ _ joined)
    exact Nat.lt_irrefl _ (grows id cycle)
  · intro acyclic
    obtain ⟨last, searched, settled⟩ := searchFrom_of_acyclic closed acyclic
    obtain ⟨once, all, _⟩ := searchFrom_finished closed searched
    have placed : links.SourcesPlaced [] last.finished :=
      settled.sourcesPlaced once fun source target joined _ =>
        .inr ((all source).2 (closed.ends source target joined).1)
    have alone := (walksAlone_iff once fun _ _ => List.not_mem_nil).2 placed
    simp [executionOrder?, searched, alone]

end LinkGraph

namespace Graph

theorem executionOrder?_exact (graph : Graph) :
    (graph.linkGraph.executionOrder?.isSome = true ↔ ∀ id, ¬ Relation.TransGen graph.Feeds id id) ∧
    ∀ order, graph.linkGraph.executionOrder? = some order →
      order.Nodup ∧ (∀ id, id ∈ order ↔ graph.contains id = true) ∧
      ∀ source target, graph.Feeds source target → order.idxOf source < order.idxOf target := by
  refine ⟨?_, ?_⟩
  · rw [LinkGraph.executionOrder?_isSome_iff graph.linkGraph_closed, graph.linkGraph_acyclic_iff]
  · intro order done
    obtain ⟨once, all, before⟩ := LinkGraph.executionOrder?_sound graph.linkGraph_closed done
    refine ⟨once, ?_, ?_⟩
    · intro id
      exact (all id).trans (graph.contains_iff_mem_ids id).symm
    · intro source target feeds
      exact before source target ((graph.linkGraph_joins_iff source target).2 feeds)

def relayed : Graph :=
  ⟨.ofList [
    ("1", ⟨some "SaveImage", some (.ofList [("image", .linked ⟨"2", 0⟩), ("mask", .linked ⟨"2", 1⟩)]), none, []⟩),
    ("2", ⟨some "Blur", some (.ofList [("image", .linked ⟨"3", 0⟩), ("depth", .linked ⟨"9", 0⟩)]), none, []⟩),
    ("3", ⟨some "LoadImage", none, none, []⟩)]⟩

theorem relayed_in_order : ∃ order, relayed.linkGraph.executionOrder? = some order ∧ order = ["3", "2", "1"] ∧
    relayed.Feeds "2" "1" ∧ order.idxOf "2" < order.idxOf "1" := by
  have done : relayed.linkGraph.executionOrder? = some ["3", "2", "1"] := by decide
  have feeds : relayed.Feeds "2" "1" := ⟨_, "image", ⟨"2", 0⟩, rfl, rfl, rfl, rfl⟩
  obtain ⟨_, _, before⟩ := (executionOrder?_exact relayed).2 _ done
  exact ⟨_, done, rfl, feeds, before "2" "1" feeds⟩

end Graph

end NodeFlow
