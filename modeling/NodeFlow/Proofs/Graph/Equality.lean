import NodeFlow.Proofs.Graph.Lookup

namespace NodeFlow

theorem Number.same_refl (value : Number) : value.same value = true := by
  cases value <;> simp [Number.same, Binary64.same]

mutual
theorem Json.same_refl : (value : Json) → value.same value = true
  | .null => rfl
  | .bool value => by simp [Json.same]
  | .number value => value.same_refl
  | .string text => by simp [Json.same]
  | .array items => Json.sameItems_refl items
  | .object members => Json.sameMembers_refl members

theorem Json.sameItems_refl : (items : List Json) → Json.sameItems items items = true
  | [] => rfl
  | item :: rest => by simp only [Json.sameItems, Json.same_refl item, Json.sameItems_refl rest, Bool.and_self]

theorem Json.sameMembers_refl : (members : List (String × Json)) → Json.sameMembers members members = true
  | [] => rfl
  | (name, value) :: rest => by
    simp only [Json.sameMembers, Json.same_refl value, Json.sameMembers_refl rest, beq_self_eq_true, Bool.and_self]
end

namespace Table

variable {α : Type} {same : α → α → Bool}

theorem sameEntries_refl (refl : ∀ value, same value value = true) (table : Table α) :
    table.sameEntries same table = true := by
  simp only [sameEntries, beq_self_eq_true, Bool.true_and, List.all_eq_true]
  intro entry member
  simp only [(mem_entries_iff table entry.1 entry.2).1 member, refl]

section Equal

variable {a b : Table α} (equal : a.sameEntries same b = true)

include equal

theorem get?_of_sameEntries {name : String} {value : α} (found : a.get? name = some value) :
    ∃ other, b.get? name = some other ∧ same value other = true := by
  simp only [sameEntries, Bool.and_eq_true, List.all_eq_true] at equal
  have entry := equal.2 (name, value) ((mem_entries_iff a name value).2 found)
  cases held : b.get? name with
  | none => simp [held] at entry
  | some other => exact ⟨other, rfl, by simpa [held] using entry⟩

theorem same_of_sameEntries {name : String} {x y : α} (one : a.get? name = some x) (two : b.get? name = some y) :
    same x y = true := by
  obtain ⟨other, held, alike⟩ := get?_of_sameEntries equal one
  cases held.symm.trans two
  exact alike

end Equal

end Table

theorem InputValue.same_refl (value : InputValue) : value.same value = true := by
  cases value with
  | linked link => simp [InputValue.same]
  | literal literal => exact literal.same_refl

theorem Node.same_refl (node : Node) : node.same node = true := by
  have inputs := Table.sameEntries_refl InputValue.same_refl
  have extra := Json.sameMembers_refl node.extra
  cases field : node.inputs <;> simp [Node.same, field, inputs, extra]

theorem Graph.same_refl (graph : Graph) : graph.same graph = true :=
  Table.sameEntries_refl Node.same_refl graph.nodes

end NodeFlow
