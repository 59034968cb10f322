import Mathlib.Data.List.Forall2
import Mathlib.Data.List.Nodup
import Mathlib.Data.List.Perm.Subperm
import NodeFlow.Proofs.Graph.Equality
import NodeFlow.Proofs.Graph.ExecutionOrder
import NodeFlow.Proofs.Graph.FreshId

namespace NodeFlow

section Matching

variable {α β γ δ : Type} {R : α → β → Prop} {S : γ → δ → Prop} {first : List α} {second : List β}

-- The items of two lists stand to each other one to one, in some order.
def Matched (R : α → β → Prop) (first : List α) (second : List β) : Prop :=
  ∃ aligned : List β, aligned.Perm second ∧ List.Forall₂ R first aligned

theorem matched_of_forall₂ (related : List.Forall₂ R first second) : Matched R first second :=
  ⟨second, .refl _, related⟩

theorem matched_of_perm {R : α → α → Prop} {first second : List α} (refl : ∀ x, R x x) (perm : first.Perm second) :
    Matched R first second :=
  ⟨first, perm, List.forall₂_same.2 fun x _ => refl x⟩

theorem Matched.isEmpty (matched : Matched R first second) : first.isEmpty = second.isEmpty := by
  obtain ⟨aligned, perm, related⟩ := matched
  rw [← perm.isEmpty_eq]
  cases related <;> rfl

theorem Matched.map_perm {f : α → γ} {g : β → γ} (matched : Matched (fun x y => f x = g y) first second) :
    (first.map f).Perm (second.map g) := by
  obtain ⟨aligned, perm, related⟩ := matched
  have same : first.map f = aligned.map g := by
    rw [← List.forall₂_eq_eq_eq, List.forall₂_map_left_iff, List.forall₂_map_right_iff]
    exact related
  rw [same]
  exact perm.map g

theorem Matched.perm {first second : List α} (matched : Matched Eq first second) : first.Perm second := by
  simpa only [List.map_id] using Matched.map_perm (f := id) (g := id) matched

theorem Matched.append {first' : List α} {second' : List β} (matched : Matched R first second)
    (later : Matched R first' second') : Matched R (first ++ first') (second ++ second') := by
  obtain ⟨aligned, perm, related⟩ := matched
  obtain ⟨aligned', perm', related'⟩ := later
  exact ⟨aligned ++ aligned', perm.append perm', List.rel_append related related'⟩

theorem Matched.filterMap {f : α → Option γ} {g : β → Option δ} (matched : Matched R first second)
    (each : ∀ x y, R x y → Option.Rel S (f x) (g y)) : Matched S (first.filterMap f) (second.filterMap g) := by
  obtain ⟨aligned, perm, related⟩ := matched
  refine ⟨aligned.filterMap g, perm.filterMap g, ?_⟩
  clear perm
  induction related with
  | nil => exact .nil
  | @cons x y xs ys one _ ih =>
    have made := each x y one
    rw [List.filterMap_cons, List.filterMap_cons]
    generalize f x = left, g y = right at made
    cases made with
    | none => exact ih
    | some each => exact .cons each ih

theorem Matched.flatMap {f : α → List γ} {g : β → List δ} (matched : Matched R first second)
    (each : ∀ x y, R x y → Matched S (f x) (g y)) : Matched S (first.flatMap f) (second.flatMap g) := by
  obtain ⟨aligned, perm, related⟩ := matched
  have made : Matched S (first.flatMap f) (aligned.flatMap g) := by
    clear perm
    induction related with
    | nil => exact matched_of_forall₂ .nil
    | cons one _ ih => exact (each _ _ one).append ih
  obtain ⟨made, order, related⟩ := made
  exact ⟨made, order.trans (perm.flatMap_right g), related⟩

end Matching

namespace Table

variable {α : Type} {same : α → α → Bool} {a b : Table α}

def Alike (same : α → α → Bool) (one other : String × α) : Prop := one.1 = other.1 ∧ same one.2 other.2 = true

theorem matched_of_sameEntries (equal : a.sameEntries same b = true) :
    Matched (Alike same) a.entries b.entries := by
  have size : a.entries.length = b.entries.length := by
    simp only [sameEntries, Bool.and_eq_true, beq_iff_eq] at equal
    exact equal.1
  let partner := fun (entry : String × α) => (entry.1, (b.get? entry.1).getD entry.2)
  have found : ∀ entry ∈ a.entries, partner entry ∈ b.entries ∧ Alike same entry (partner entry) := by
    intro entry member
    obtain ⟨other, held, equal⟩ := get?_of_sameEntries equal ((mem_entries_iff a _ _).1 member)
    simp only [partner, held, Option.getD_some]
    exact ⟨(mem_entries_iff b _ _).2 held, rfl, equal⟩
  refine ⟨a.entries.map partner, ?_, ?_⟩
  · -- The partners are as many as there are entries, and of distinct names.
    have distinct : (a.entries.map partner).Nodup := by
      refine List.Nodup.of_map Prod.fst ?_
      rw [List.map_map]
      exact a.distinct
    have subset : a.entries.map partner ⊆ b.entries := by
      intro entry member
      obtain ⟨source, held, rfl⟩ := List.mem_map.1 member
      exact (found source held).1
    exact (List.subperm_of_subset distinct subset).perm_of_length_le (by simp [size])
  · rw [List.forall₂_map_right_iff, List.forall₂_same]
    exact fun entry member => (found entry member).2

theorem names_perm_of_sameEntries (equal : a.sameEntries same b = true) : a.names.Perm b.names := by
  obtain ⟨aligned, perm, related⟩ := matched_of_sameEntries equal
  exact Matched.map_perm ⟨aligned, perm, related.imp fun _ _ alike => alike.1⟩

theorem rel_get?_of_sameEntries (equal : a.sameEntries same b = true) (name : String) :
    Option.Rel (fun one other => same one other = true) (a.get? name) (b.get? name) := by
  cases found : a.get? name with
  | some value =>
    obtain ⟨other, held, equal⟩ := get?_of_sameEntries equal found
    rw [held]
    exact .some equal
  | none =>
    have absent := (get?_eq_none_iff a name).1 found
    rw [(names_perm_of_sameEntries equal).mem_iff, ← get?_eq_none_iff] at absent
    rw [absent]
    exact .none

theorem contains_of_sameEntries (equal : a.sameEntries same b = true) (name : String) :
    a.contains name = b.contains name := by
  rw [Bool.eq_iff_iff, contains_iff, contains_iff, (names_perm_of_sameEntries equal).mem_iff]

end Table

section Values

theorem Number.key_of_same {a b : Number} (equal : a.same b = true) : a.toBinary64.key = b.toBinary64.key := by
  cases a <;> cases b <;> simp_all [Number.same, Number.toBinary64, Binary64.same]

theorem Json.rel_number?_of_same {a b : Json} (equal : a.same b = true) :
    Option.Rel (fun one other => one.toBinary64.key = other.toBinary64.key) a.number? b.number? := by
  cases a <;> cases b <;> first | exact .none | exact .some (Number.key_of_same equal) | cases equal

theorem Json.string?_of_same {a b : Json} (equal : a.same b = true) : a.string? = b.string? := by
  cases a <;> cases b <;> simp_all [Json.same, Json.string?]

theorem InputValue.link?_of_same {a b : InputValue} (equal : a.same b = true) : a.link? = b.link? := by
  cases a <;> cases b <;> simp_all [InputValue.same, InputValue.link?]

theorem InputValue.rel_literal?_of_same {a b : InputValue} (equal : a.same b = true) :
    Option.Rel (fun one other => one.same other = true) a.literal? b.literal? := by
  cases a <;> cases b <;> first | exact .none | exact .some equal | cases equal

end Values

namespace Node

variable {a b : Node} (equal : a.same b = true)

include equal

theorem classType_of_same : a.classType = b.classType := by
  simp only [same, Bool.and_eq_true, beq_iff_eq] at equal
  simp only [classType, equal.1.1.1]

theorem rel_inputs_of_same :
    Option.Rel (fun one other => Table.sameEntries InputValue.same one other = true) a.inputs b.inputs := by
  simp only [same, Bool.and_eq_true] at equal
  have inputs := equal.1.1.2
  generalize a.inputs = left, b.inputs = right at inputs
  cases left <;> cases right <;> first | exact .none | exact .some inputs | cases inputs

theorem matched_inputEntries_of_same :
    Matched (Table.Alike InputValue.same) a.inputEntries b.inputEntries := by
  have inputs := rel_inputs_of_same equal
  unfold inputEntries
  generalize a.inputs = left, b.inputs = right at inputs
  cases inputs with
  | none => exact matched_of_forall₂ .nil
  | some alike => exact Table.matched_of_sameEntries alike

theorem isSome_input?_of_same (name : String) : (a.input? name).isSome = (b.input? name).isSome := by
  have inputs := rel_inputs_of_same equal
  unfold input?
  generalize a.inputs = left, b.inputs = right at inputs
  cases inputs with
  | none => rfl
  | some alike => exact Table.contains_of_sameEntries alike name

theorem links_perm_of_same : a.links.Perm b.links := by
  have links : Matched Eq a.links b.links := by
    refine (matched_inputEntries_of_same equal).filterMap fun one other alike => ?_
    dsimp only
    rw [← alike.1, ← InputValue.link?_of_same alike.2]
    cases one.2.link? with
    | none => exact .none
    | some link => exact .some rfl
  exact links.perm

end Node

namespace Graph

variable {a b : Graph}

theorem feeds_iff_links (graph : Graph) (source target : String) : graph.Feeds source target ↔
    graph.contains source = true ∧ ∃ node, graph.node? target = some node ∧
      ∃ entry ∈ node.links, entry.2.source = source := by
  constructor
  · intro feeds
    obtain ⟨node, input, link, held, found, same, present⟩ := feeds
    exact ⟨present, node, held, (input, link), (node.mem_links_iff input link).2 found, same⟩
  · intro linked
    obtain ⟨present, node, held, ⟨input, link⟩, member, same⟩ := linked
    exact ⟨node, input, link, held, (node.mem_links_iff input link).1 member, same, present⟩

variable (equal : a.same b = true)

include equal

theorem matched_entries_of_same : Matched (Table.Alike Node.same) a.nodes.entries b.nodes.entries :=
  Table.matched_of_sameEntries equal

theorem ids_perm_of_same : a.ids.Perm b.ids := Table.names_perm_of_sameEntries equal

theorem rel_node?_of_same (id : String) :
    Option.Rel (fun one other => Node.same one other = true) (a.node? id) (b.node? id) :=
  Table.rel_get?_of_sameEntries equal id

theorem contains_of_same (id : String) : a.contains id = b.contains id := Table.contains_of_sameEntries equal id

theorem isEmpty_of_same : a.isEmpty = b.isEmpty := (matched_entries_of_same equal).isEmpty

theorem nextId_of_same : a.nextId = b.nextId := nextId_eq_of_ids fun _ => (ids_perm_of_same equal).mem_iff

theorem feeds_iff_of_same (source target : String) : a.Feeds source target ↔ b.Feeds source target := by
  have nodes := rel_node?_of_same equal target
  rw [feeds_iff_links, feeds_iff_links, contains_of_same equal]
  generalize a.node? target = left, b.node? target = right at nodes
  cases nodes with
  | none => simp only [reduceCtorEq, false_and, exists_false, and_false]
  | some alike => simp only [Option.some.injEq, exists_eq_left', (Node.links_perm_of_same alike).mem_iff]

-- There is an order for both or for neither, but it is not the same one.
theorem executionOrder?_isSome_of_same :
    a.linkGraph.executionOrder?.isSome = b.linkGraph.executionOrder?.isSome := by
  have feeds : a.Feeds = b.Feeds := by
    funext source target
    exact propext (feeds_iff_of_same equal source target)
  rw [Bool.eq_iff_iff, (executionOrder?_exact a).1, (executionOrder?_exact b).1, feeds]

theorem suppliers_of_same (id : String) : a.linkGraph.suppliers id = b.linkGraph.suppliers id := by
  refine LinkGraph.eq_of_pairwise_precedes (LinkGraph.suppliers_pairwise _ id) (LinkGraph.suppliers_pairwise _ id) ?_
  intro source
  rw [LinkGraph.mem_suppliers_iff a.linkGraph_closed, LinkGraph.mem_suppliers_iff b.linkGraph_closed,
    linkGraph_joins_iff, linkGraph_joins_iff, feeds_iff_of_same equal]

theorem consumers_of_same (id : String) : a.linkGraph.consumers id = b.linkGraph.consumers id := by
  refine LinkGraph.eq_of_pairwise_precedes (LinkGraph.consumers_pairwise _ id) (LinkGraph.consumers_pairwise _ id) ?_
  intro target
  rw [LinkGraph.mem_consumers_iff a.linkGraph_closed, LinkGraph.mem_consumers_iff b.linkGraph_closed,
    linkGraph_joins_iff, linkGraph_joins_iff, feeds_iff_of_same equal]

end Graph

end NodeFlow
