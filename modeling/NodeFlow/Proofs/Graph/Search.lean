import NodeFlow.Graph.Order
import NodeFlow.Proofs.Graph.Links

namespace NodeFlow.LinkGraph

open Relation (ReflTransGen TransGen)

variable {links : LinkGraph}

-- What comes to stand above a new vertex on the stack.
def pushed (links : LinkGraph) (seen : List String) (top : String) : List String :=
  ((links.successors top).filter fun next => !(top :: seen).contains next).reverse

theorem mem_pushed_iff (seen : List String) (top vertex : String) :
    vertex ∈ links.pushed seen top ↔ links.Joins top vertex ∧ vertex ≠ top ∧ vertex ∉ seen := by
  simp [pushed, mem_successors_iff]

-- One look at the top of the stack, or a new start when the stack is empty.
inductive Step (links : LinkGraph) : Search → Search → Prop
  | start {seen finished : List String} {vertex : String} :
    vertex ∈ links.vertices → Step links ⟨seen, [], finished⟩ ⟨seen, [vertex], finished⟩
  | meet {seen below finished : List String} {top : String} : top ∉ seen → ¬ links.Joins top top →
    Step links ⟨seen, top :: below, finished⟩ ⟨top :: seen, links.pushed seen top ++ top :: below, finished⟩
  | finish {seen below finished : List String} {top : String} : top ∈ seen → top ∉ finished →
    Step links ⟨seen, top :: below, finished⟩ ⟨seen, below, top :: finished⟩
  | drop {seen below finished : List String} {top : String} : top ∈ seen → top ∈ finished →
    Step links ⟨seen, top :: below, finished⟩ ⟨seen, below, finished⟩

theorem visit_step {search next : Search} (busy : search.stack ≠ []) (done : links.visit search = some next) :
    links.Step search next := by
  obtain ⟨seen, stack, finished⟩ := search
  cases stack with
  | nil => exact absurd rfl busy
  | cons top below =>
    simp only [visit] at done
    split at done
    · rename_i met
      cases done
      by_cases ended : top ∈ finished
      · rw [if_pos ended]; exact .drop met ended
      · rw [if_neg ended]; exact .finish met ended
    · rename_i new
      split at done
      · cases done
      · rename_i loopless
        cases done
        exact .meet new fun joined => loopless ((mem_successors_iff _ _ _).2 joined)

theorem visitAll_steps {fuel : Nat} {search last : Search} (done : links.visitAll fuel search = some last) :
    ReflTransGen links.Step search last ∧ last.stack = [] := by
  induction fuel generalizing search with
  | zero =>
    simp only [visitAll] at done
    split at done
    · rename_i idle
      cases done
      exact ⟨.refl, List.isEmpty_iff.1 idle⟩
    · cases done
  | succ fuel ih =>
    simp only [visitAll] at done
    split at done
    · rename_i idle
      cases done
      exact ⟨.refl, List.isEmpty_iff.1 idle⟩
    · rename_i busy
      split at done
      · rename_i next one
        obtain ⟨steps, idle⟩ := ih done
        exact ⟨.head (visit_step (fun empty => busy (List.isEmpty_iff.2 empty)) one) steps, idle⟩
      · cases done

def Search.Knows (search : Search) (vertex : String) : Prop := vertex ∈ search.seen ∨ vertex ∈ search.stack

theorem Step.knows {search next : Search} (step : links.Step search next) {vertex : String}
    (known : search.Knows vertex) : next.Knows vertex := by
  cases step with
  | start _ => exact .inl (known.resolve_right List.not_mem_nil)
  | meet _ _ =>
    rcases known with seen | stacked
    · exact .inl (List.mem_cons_of_mem _ seen)
    · exact .inr (List.mem_append_right _ stacked)
  | finish met _ | drop met _ =>
    rcases known with seen | stacked
    · exact .inl seen
    · rcases List.mem_cons.1 stacked with rfl | below
      · exact .inl met
      · exact .inr below

theorem steps_knows {search next : Search} (steps : ReflTransGen links.Step search next) {vertex : String}
    (known : search.Knows vertex) : next.Knows vertex := by
  induction steps with
  | refl => exact known
  | tail _ step ih => exact step.knows ih

theorem searchFrom_steps {vertices : List String} {search last : Search}
    (listed : ∀ vertex ∈ vertices, vertex ∈ links.vertices) (idle : search.stack = [])
    (done : links.searchFrom vertices search = some last) :
    ReflTransGen links.Step search last ∧ last.stack = [] ∧ ∀ vertex ∈ vertices, vertex ∈ last.seen := by
  induction vertices generalizing search with
  | nil => cases done; exact ⟨.refl, idle, by simp⟩
  | cons vertex rest ih =>
    have later := fun other member => listed other (List.mem_cons_of_mem vertex member)
    have reached : ∃ middle, ReflTransGen links.Step search middle ∧ middle.stack = [] ∧
        middle.Knows vertex ∧ links.searchFrom rest middle = some last := by
      simp only [searchFrom] at done
      split at done
      · rename_i seen
        exact ⟨search, .refl, idle, .inl seen, done⟩
      · split at done
        · rename_i middle visited
          obtain ⟨steps, empty⟩ := visitAll_steps visited
          obtain ⟨seen, stack, finished⟩ := search
          cases idle
          exact ⟨middle, .head (.start (listed vertex List.mem_cons_self)) steps, empty,
            steps_knows steps (.inr List.mem_cons_self), done⟩
        · cases done
    obtain ⟨middle, first, empty, known, done⟩ := reached
    obtain ⟨second, last_idle, others⟩ := ih later empty done
    refine ⟨first.trans second, last_idle, ?_⟩
    intro other member
    rcases List.mem_cons.1 member with rfl | member
    · have still := steps_knows second known
      simpa [Search.Knows, last_idle] using still
    · exact others other member

structure Tracks (links : LinkGraph) (search : Search) : Prop where
  once : search.finished.Nodup
  finished_seen : ∀ vertex ∈ search.finished, vertex ∈ search.seen
  seen_kept : ∀ vertex ∈ search.seen, vertex ∈ search.finished ∨ vertex ∈ search.stack
  within : ∀ vertex, search.Knows vertex → vertex ∈ links.vertices
  loopless : ∀ vertex ∈ search.seen, ¬ links.Joins vertex vertex

-- When the top has left the stack, what stood at it or below is finished or still below.
theorem left_stack {top vertex : String} {below finished finished' : List String} (ended : top ∈ finished')
    (grown : finished ⊆ finished') (held : vertex ∈ finished ∨ vertex ∈ top :: below) :
    vertex ∈ finished' ∨ vertex ∈ below := by
  rcases held with done | stacked
  · exact .inl (grown done)
  · rcases List.mem_cons.1 stacked with rfl | below
    · exact .inl ended
    · exact .inr below

theorem tracks_init (links : LinkGraph) : links.Tracks ⟨[], [], []⟩ := by
  constructor <;> simp [Search.Knows]

section Tracking

variable {seen below finished : List String} {top : String}

theorem tracks_start (listed : top ∈ links.vertices) (tracks : links.Tracks ⟨seen, [], finished⟩) :
    links.Tracks ⟨seen, [top], finished⟩ := by
  refine ⟨tracks.once, tracks.finished_seen, ?_, ?_, tracks.loopless⟩
  · intro vertex met
    exact .inl ((tracks.seen_kept vertex met).resolve_right List.not_mem_nil)
  · intro vertex known
    rcases known with met | stacked
    · exact tracks.within vertex (.inl met)
    · cases List.mem_singleton.1 stacked
      exact listed

theorem tracks_meet (closed : links.Closed) (loopless : ¬ links.Joins top top)
    (tracks : links.Tracks ⟨seen, top :: below, finished⟩) :
    links.Tracks ⟨top :: seen, links.pushed seen top ++ top :: below, finished⟩ := by
  refine ⟨tracks.once, ?_, ?_, ?_, ?_⟩
  · intro vertex ended
    exact List.mem_cons_of_mem _ (tracks.finished_seen vertex ended)
  · intro vertex met
    rcases List.mem_cons.1 met with rfl | met
    · exact .inr (List.mem_append_right _ List.mem_cons_self)
    · exact (tracks.seen_kept vertex met).imp_right (List.mem_append_right _)
  · intro vertex known
    rcases known with met | stacked
    · rcases List.mem_cons.1 met with rfl | met
      · exact tracks.within vertex (.inr List.mem_cons_self)
      · exact tracks.within vertex (.inl met)
    · rcases List.mem_append.1 stacked with spread | old
      · exact (closed.ends top vertex ((mem_pushed_iff _ _ _).1 spread).1).2
      · exact tracks.within vertex (.inr old)
  · intro vertex met
    rcases List.mem_cons.1 met with rfl | met
    · exact loopless
    · exact tracks.loopless vertex met

theorem tracks_finish (met : top ∈ seen) (unfinished : top ∉ finished)
    (tracks : links.Tracks ⟨seen, top :: below, finished⟩) : links.Tracks ⟨seen, below, top :: finished⟩ := by
  refine ⟨List.nodup_cons.2 ⟨unfinished, tracks.once⟩, ?_, ?_, ?_, tracks.loopless⟩
  · intro vertex ended
    rcases List.mem_cons.1 ended with rfl | ended
    · exact met
    · exact tracks.finished_seen vertex ended
  · intro vertex known
    exact left_stack List.mem_cons_self (List.subset_cons_self top finished) (tracks.seen_kept vertex known)
  · intro vertex known
    exact tracks.within vertex (known.imp_right (List.mem_cons_of_mem _))

theorem tracks_drop (ended : top ∈ finished) (tracks : links.Tracks ⟨seen, top :: below, finished⟩) :
    links.Tracks ⟨seen, below, finished⟩ := by
  refine ⟨tracks.once, tracks.finished_seen, ?_, ?_, tracks.loopless⟩
  · intro vertex known
    exact left_stack ended (List.Subset.refl finished) (tracks.seen_kept vertex known)
  · intro vertex known
    exact tracks.within vertex (known.imp_right (List.mem_cons_of_mem _))

end Tracking

theorem Step.tracks (closed : links.Closed) {search next : Search} (step : links.Step search next)
    (tracks : links.Tracks search) : links.Tracks next := by
  cases step with
  | start listed => exact tracks_start listed tracks
  | meet _ loopless => exact tracks_meet closed loopless tracks
  | finish met unfinished => exact tracks_finish met unfinished tracks
  | drop _ ended => exact tracks_drop ended tracks

theorem steps_tracks (closed : links.Closed) {search next : Search}
    (steps : ReflTransGen links.Step search next) (tracks : links.Tracks search) : links.Tracks next := by
  induction steps with
  | refl => exact tracks
  | tail _ step ih => exact step.tracks closed ih

theorem searchFrom_finished (closed : links.Closed) {last : Search}
    (done : links.searchFrom links.vertices ⟨[], [], []⟩ = some last) :
    last.finished.Nodup ∧ (∀ vertex, vertex ∈ last.finished ↔ vertex ∈ links.vertices) ∧
      ∀ vertex, ¬ links.Joins vertex vertex := by
  obtain ⟨steps, idle, all⟩ := searchFrom_steps (fun _ listed => listed) rfl done
  have tracks := steps_tracks closed steps links.tracks_init
  refine ⟨tracks.once, ?_, ?_⟩
  · intro vertex
    constructor
    · intro ended
      exact tracks.within vertex (.inl (tracks.finished_seen vertex ended))
    · intro listed
      have kept := tracks.seen_kept vertex (all vertex listed)
      simpa [idle] using kept
  · intro vertex joined
    exact tracks.loopless vertex (all vertex (closed.ends vertex vertex joined).1) joined

section Acyclic

def above (vertex : String) (stack : List String) : List String := stack.takeWhile (· != vertex)

theorem above_self (vertex : String) (below : List String) : above vertex (vertex :: below) = [] := by
  simp [above]

theorem above_cons {vertex top : String} (other : top ≠ vertex) (below : List String) :
    above vertex (top :: below) = top :: above vertex below := by
  simp [above, other]

theorem above_append {vertex : String} {upper : List String} (absent : vertex ∉ upper) (stack : List String) :
    above vertex (upper ++ stack) = upper ++ above vertex stack := by
  refine List.takeWhile_append_of_pos fun entry member => ?_
  simpa using fun same : entry = vertex => absent (same ▸ member)

def Settled (links : LinkGraph) : List String → Prop
  | [] => True
  | vertex :: after => (∀ next, links.Joins vertex next → next ∈ after) ∧ links.Settled after

-- An open vertex, which is seen and not finished, leads to everything above it on the stack, and its
-- successors are finished or above it.
structure Ordered (links : LinkGraph) (search : Search) : Prop where
  settled : links.Settled search.finished
  covered : ∀ vertex ∈ search.seen, vertex ∉ search.finished → ∀ next, links.Joins vertex next →
    next ∈ search.finished ∨ next ∈ above vertex search.stack
  leads : ∀ vertex ∈ search.seen, vertex ∉ search.finished → ∀ entry ∈ above vertex search.stack,
    TransGen links.Joins vertex entry

theorem ordered_init (links : LinkGraph) : links.Ordered ⟨[], [], []⟩ := by
  constructor <;> simp [Settled]

section Ordering

variable {seen below finished : List String} {top : String}

theorem ordered_start (tracks : links.Tracks ⟨seen, [], finished⟩) (ordered : links.Ordered ⟨seen, [], finished⟩) :
    links.Ordered ⟨seen, [top], finished⟩ := by
  have ended : ∀ vertex ∈ seen, vertex ∈ finished := fun vertex met =>
    (tracks.seen_kept vertex met).resolve_right List.not_mem_nil
  refine ⟨ordered.settled, ?_, ?_⟩
  · intro vertex met unfinished
    exact absurd (ended vertex met) unfinished
  · intro vertex met unfinished
    exact absurd (ended vertex met) unfinished

-- Everything open leads to the top of the stack.
theorem Ordered.leads_top (ordered : links.Ordered ⟨seen, top :: below, finished⟩) {vertex : String}
    (met : vertex ∈ seen) (unfinished : vertex ∉ finished) (other : top ≠ vertex) :
    TransGen links.Joins vertex top := by
  apply ordered.leads vertex met unfinished
  rw [above_cons other]
  exact List.mem_cons_self

-- Without cycles no successor of a new vertex is open: it would lead back to the vertex.
theorem successor_of_new (acyclic : links.Acyclic) (ordered : links.Ordered ⟨seen, top :: below, finished⟩)
    (new : top ∉ seen) {next : String} (joined : links.Joins top next) :
    next ∈ finished ∨ next ∈ links.pushed seen top := by
  by_cases met : next ∈ seen
  · by_cases ended : next ∈ finished
    · exact .inl ended
    · have other : top ≠ next := fun same => new (same ▸ met)
      exact absurd ((ordered.leads_top met ended other).tail joined) (acyclic next)
  · have other : next ≠ top := by
      intro same
      subst same
      exact acyclic next (.single joined)
    exact .inr ((mem_pushed_iff _ _ _).2 ⟨joined, other, met⟩)

theorem above_pushed {vertex : String} (met : vertex ∈ top :: seen) (stack : List String) :
    above vertex (links.pushed seen top ++ stack) = links.pushed seen top ++ above vertex stack := by
  apply above_append
  intro spread
  obtain ⟨_, other, unseen⟩ := (mem_pushed_iff _ _ _).1 spread
  exact (List.mem_cons.1 met).elim other unseen

theorem ordered_meet (acyclic : links.Acyclic) (new : top ∉ seen)
    (ordered : links.Ordered ⟨seen, top :: below, finished⟩) :
    links.Ordered ⟨top :: seen, links.pushed seen top ++ top :: below, finished⟩ := by
  refine ⟨ordered.settled, ?_, ?_⟩
  · intro vertex met unfinished target joined
    simp only [above_pushed met]
    rcases List.mem_cons.1 met with rfl | met
    · rw [above_self, List.append_nil]
      exact successor_of_new acyclic ordered new joined
    · exact (ordered.covered vertex met unfinished target joined).imp_right (List.mem_append_right _)
  · intro vertex met unfinished entry higher
    simp only [above_pushed met] at higher
    rcases List.mem_cons.1 met with rfl | met
    · rw [above_self, List.append_nil] at higher
      exact .single ((mem_pushed_iff _ _ _).1 higher).1
    · rcases List.mem_append.1 higher with spread | higher
      · have other : top ≠ vertex := fun same => new (same ▸ met)
        exact (ordered.leads_top met unfinished other).tail ((mem_pushed_iff _ _ _).1 spread).1
      · exact ordered.leads vertex met unfinished entry higher

theorem ordered_below {finished' : List String} (ordered : links.Ordered ⟨seen, top :: below, finished⟩)
    (settled : links.Settled finished') (ended : top ∈ finished') (grown : finished ⊆ finished') :
    links.Ordered ⟨seen, below, finished'⟩ := by
  have apart : ∀ vertex, vertex ∉ finished' → top ≠ vertex := by
    intro vertex unfinished same
    exact unfinished (same ▸ ended)
  refine ⟨settled, ?_, ?_⟩
  · intro vertex met unfinished target joined
    have covered := ordered.covered vertex met (fun done => unfinished (grown done)) target joined
    rw [above_cons (apart vertex unfinished)] at covered
    exact left_stack ended grown covered
  · intro vertex met unfinished entry higher
    apply ordered.leads vertex met fun done => unfinished (grown done)
    rw [above_cons (apart vertex unfinished)]
    exact List.mem_cons_of_mem _ higher

theorem ordered_finish (met : top ∈ seen) (unfinished : top ∉ finished)
    (ordered : links.Ordered ⟨seen, top :: below, finished⟩) : links.Ordered ⟨seen, below, top :: finished⟩ := by
  have behind : ∀ target, links.Joins top target → target ∈ finished := by
    intro target joined
    have covered := ordered.covered top met unfinished target joined
    rw [above_self] at covered
    exact covered.resolve_right List.not_mem_nil
  exact ordered_below ordered ⟨behind, ordered.settled⟩ List.mem_cons_self (List.subset_cons_self top finished)

end Ordering

theorem Step.ordered (acyclic : links.Acyclic) {search next : Search} (step : links.Step search next)
    (tracks : links.Tracks search) (ordered : links.Ordered search) : links.Ordered next := by
  cases step with
  | start _ => exact ordered_start tracks ordered
  | meet new _ => exact ordered_meet acyclic new ordered
  | finish met unfinished => exact ordered_finish met unfinished ordered
  | drop _ ended => exact ordered_below ordered ordered.settled ended (List.Subset.refl _)

theorem steps_ordered (closed : links.Closed) (acyclic : links.Acyclic) {search next : Search}
    (steps : ReflTransGen links.Step search next) (tracks : links.Tracks search)
    (ordered : links.Ordered search) : links.Ordered next := by
  induction steps with
  | refl => exact ordered
  | tail before step ih => exact step.ordered acyclic (steps_tracks closed before tracks) ih

end Acyclic

section Fuel

def unmet {α : Type} (vertex : α → String) (seen : List String) (items : List α) : List α :=
  items.filter fun item => !seen.contains (vertex item)

theorem unmet_cons {α : Type} (vertex : α → String) {seen : List String} {top : String} (new : top ∉ seen)
    (items : List α) : (unmet vertex (top :: seen) items).length +
      (items.filter fun item => vertex item == top).length = (unmet vertex seen items).length := by
  induction items with
  | nil => rfl
  | cons item rest ih =>
    simp only [unmet] at ih ⊢
    by_cases same : vertex item = top
    · simp [same, new] at ih ⊢
      omega
    · by_cases met : vertex item ∈ seen
      · simpa [same, met] using ih
      · simp [same, met] at ih ⊢
        omega

-- What a search still has to look at: the stack, the unseen vertices and the edges out of them.
def pending (links : LinkGraph) (search : Search) : Nat :=
  search.stack.length + (unmet id search.seen links.vertices).length +
    (unmet Edge.source search.seen links.edges).length

theorem length_pushed_le (links : LinkGraph) (seen : List String) (top : String) :
    (links.pushed seen top).length ≤ (links.edges.filter fun edge => edge.source == top).length := by
  have fewer := List.length_filter_le (fun next => !(top :: seen).contains next) (links.successors top)
  simpa [pushed, successors] using fewer

theorem Step.pending_lt {search next : Search} (step : links.Step search next) (busy : search.stack ≠ [])
    (listed : ∀ vertex ∈ search.stack, vertex ∈ links.vertices) : links.pending next < links.pending search := by
  cases step with
  | start _ => exact absurd rfl busy
  | @meet seen below finished top new _ =>
    have vertices := unmet_cons id new links.vertices
    have edges := unmet_cons Edge.source new links.edges
    have fewer := length_pushed_le links seen top
    have one : 0 < (links.vertices.filter fun vertex => id vertex == top).length :=
      List.length_pos_of_mem (List.mem_filter.2 ⟨listed top List.mem_cons_self, by simp⟩)
    simp only [pending, List.length_append, List.length_cons]
    omega
  | finish _ _ | drop _ _ => simp only [pending, List.length_cons]; omega

-- The fuel given to a visit covers the one entry it starts with.
theorem pending_start_le (links : LinkGraph) (seen finished : List String) (vertex : String) :
    links.pending ⟨seen, [vertex], finished⟩ ≤ links.fuel := by
  have vertices := List.length_filter_le (fun item => !seen.contains (id item)) links.vertices
  have edges := List.length_filter_le (fun item => !seen.contains (Edge.source item)) links.edges
  simp only [pending, unmet, fuel, List.length_singleton]
  omega

variable (closed : links.Closed) (acyclic : links.Acyclic)
include acyclic

theorem visit_isSome (search : Search) : ∃ next, links.visit search = some next := by
  obtain ⟨seen, stack, finished⟩ := search
  cases stack with
  | nil => exact ⟨_, rfl⟩
  | cons top below =>
    by_cases met : top ∈ seen
    · simp [visit, met]
    · have loopless : top ∉ links.successors top := fun listed =>
        acyclic top (.single ((mem_successors_iff _ _ _).1 listed))
      simp [visit, met, loopless]

include closed

theorem visitAll_isSome {fuel : Nat} {search : Search} (tracks : links.Tracks search)
    (enough : links.pending search ≤ fuel) : ∃ last, links.visitAll fuel search = some last := by
  induction fuel generalizing search with
  | zero =>
    have idle : search.stack = [] := List.length_eq_zero_iff.1 (by simp only [pending] at enough; omega)
    simp [visitAll, idle]
  | succ fuel ih =>
    by_cases idle : search.stack = []
    · simp [visitAll, idle]
    · obtain ⟨next, one⟩ := visit_isSome acyclic search
      have step := visit_step idle one
      have fewer := step.pending_lt idle fun vertex stacked => tracks.within vertex (.inr stacked)
      obtain ⟨last, done⟩ := ih (step.tracks closed tracks) (by omega)
      exact ⟨last, by simp [visitAll, idle, one, done]⟩

theorem searchFrom_isSome {vertices : List String} {search : Search}
    (listed : ∀ vertex ∈ vertices, vertex ∈ links.vertices) (idle : search.stack = [])
    (tracks : links.Tracks search) : ∃ last, links.searchFrom vertices search = some last := by
  induction vertices generalizing search with
  | nil => exact ⟨_, rfl⟩
  | cons vertex rest ih =>
    have later := fun other member => listed other (List.mem_cons_of_mem vertex member)
    by_cases met : vertex ∈ search.seen
    · obtain ⟨last, done⟩ := ih later idle tracks
      exact ⟨last, by simp [searchFrom, met, done]⟩
    · obtain ⟨seen, stack, finished⟩ := search
      cases idle
      have started := Step.tracks closed (.start (listed vertex List.mem_cons_self)) tracks
      obtain ⟨middle, visited⟩ := visitAll_isSome closed acyclic started (links.pending_start_le seen finished vertex)
      obtain ⟨steps, empty⟩ := visitAll_steps visited
      obtain ⟨last, done⟩ := ih later empty (steps_tracks closed steps started)
      exact ⟨last, by simp [searchFrom, met, visited, done]⟩

theorem searchFrom_of_acyclic :
    ∃ last, links.searchFrom links.vertices ⟨[], [], []⟩ = some last ∧ links.Settled last.finished := by
  obtain ⟨last, done⟩ := searchFrom_isSome closed acyclic (fun _ listed => listed) rfl links.tracks_init
  obtain ⟨steps, _, _⟩ := searchFrom_steps (fun _ listed => listed) rfl done
  exact ⟨last, done, (steps_ordered closed acyclic steps links.tracks_init links.ordered_init).settled⟩

end Fuel

end NodeFlow.LinkGraph
