import Mathlib.Data.List.Nodup
import NodeFlow.Proofs.Json.Stored
import NodeFlow.Table

namespace NodeFlow.Json

variable {members others : List (String × Json)}

theorem lookup_cons {α : Type} (name first : String) (value : α) (rest : List (String × α)) :
    ((first, value) :: rest).lookup name = if name = first then some value else rest.lookup name := by
  by_cases here : name = first
  · simp [here]
  · have miss : (name == first) = false := by simpa using here
    simp [here, miss, List.lookup_cons]

theorem lookup_map {α β : Type} (f : α → β) (entries : List (String × α)) (name : String) :
    (entries.map fun (name, value) => (name, f value)).lookup name = (entries.lookup name).map f := by
  induction entries with
  | nil => rfl
  | cons entry rest ih =>
    rw [List.map_cons, lookup_cons, ih, lookup_cons]
    split <;> rfl

section Order

theorem Ascending.distinct (ascending : Ascending members) : (names members).Nodup := by
  refine List.Pairwise.imp (fun {one other} before => ?_) ascending
  rintro rfl
  exact Text.precedes_irrefl one before

theorem mem_iff_lookup (distinct : (names members).Nodup) (name : String) (value : Json) :
    (name, value) ∈ members ↔ members.lookup name = some value :=
  Table.mem_entries_iff ⟨members, distinct⟩ name value

-- Each name stands once, so the same look-ups give the same members, and the order gives their places.
theorem Ascending.ext (first : Ascending members) (second : Ascending others)
    (same : ∀ name, members.lookup name = others.lookup name) : members = others := by
  have perm : members.Perm others := by
    refine (List.perm_ext_iff_of_nodup (List.Nodup.of_map _ first.distinct) (List.Nodup.of_map _ second.distinct)).2 ?_
    rintro ⟨name, value⟩
    rw [mem_iff_lookup first.distinct, mem_iff_lookup second.distinct, same]
  refine perm.eq_of_pairwise (fun one _ _ _ before after => ?_) (List.pairwise_map.1 first) (List.pairwise_map.1 second)
  exact absurd (before.trans after) (Text.precedes_irrefl one.1)

theorem lookup_insertMember (name other : String) (value : Json) (members : List (String × Json)) :
    (insertMember name value members).lookup other = if other = name then some value else members.lookup other := by
  induction members with
  | nil => exact lookup_cons other name value []
  | cons member rest ih =>
    obtain ⟨first, old⟩ := member
    unfold insertMember
    by_cases hit : name = first
    · subst hit
      simp only [if_true, lookup_cons]
      split <;> rfl
    · by_cases before : Text.Precedes name first
      · simp only [hit, before, if_false, if_true, lookup_cons]
      · simp only [hit, before, if_false, lookup_cons, ih]
        by_cases here : other = first
        · have apart : ¬ first = name := fun equal => hit equal.symm
          simp only [here, apart, if_true, if_false]
        · simp only [here, if_false]

end Order

section Optional

variable {α : Type} {own : String} {toJson : α → Json} {field : Option α}

def optionalMember (own : String) (toJson : α → Json) (field : Option α) : List (String × Json) :=
  (field.map fun value => (own, toJson value)).toList

theorem optionalMember_distinct (distinct : (names members).Nodup) (absent : own ∉ names members) :
    (names (optionalMember own toJson field ++ members)).Nodup := by
  cases field with
  | none => exact distinct
  | some value => exact List.nodup_cons.2 ⟨absent, distinct⟩

theorem not_mem_optionalMember {other : String} (different : other ≠ own) (absent : other ∉ names members) :
    other ∉ names (optionalMember own toJson field ++ members) := by
  cases field with
  | none => exact absent
  | some value => exact List.not_mem_cons_of_ne_of_not_mem different absent

theorem lookup_optionalMember (absent : own ∉ names members) (name : String) :
    (optionalMember own toJson field ++ members).lookup name =
      if name = own then field.map toJson else members.lookup name := by
  cases field with
  | none =>
    by_cases same : name = own
    · rw [if_pos same, same]
      exact (Table.lookup_eq_none_iff own members).2 absent
    · rw [if_neg same]
      rfl
  | some value => exact lookup_cons name own (toJson value) members

end Optional

section Sorting

theorem sortMembers_ascending {done : List (String × Json)} (ascending : Ascending done)
    (members : List (String × Json)) : Ascending (sortMembers done members) := by
  induction members generalizing done with
  | nil => simpa only [sortMembers] using ascending
  | cons member rest ih =>
    simp only [sortMembers]
    exact ih (insertMember_ascending _ _ done ascending)

theorem lookup_sortMembers (distinct : (names members).Nodup) (done : List (String × Json)) (name : String) :
    (sortMembers done members).lookup name = ((members.lookup name).map sorted).or (done.lookup name) := by
  induction members generalizing done with
  | nil => simp [sortMembers]
  | cons member rest ih =>
    obtain ⟨first, value⟩ := member
    obtain ⟨absent, distinct⟩ := List.nodup_cons.1 distinct
    simp only [sortMembers, ih distinct, lookup_insertMember, lookup_cons]
    by_cases here : name = first
    · rw [here, (Table.lookup_eq_none_iff first rest).2 absent]
      simp
    · simp only [here, if_false]

end Sorting

section Kept

def keepMembers (keep : String → Json → Option Json) (members : List (String × Json)) : List (String × Json) :=
  members.filterMap fun (name, value) => (keep name value).map fun kept => (name, kept)

variable {keep : String → Json → Option Json}

theorem keepMembers_ascending (ascending : Ascending members) : Ascending (keepMembers keep members) := by
  unfold keepMembers Ascending
  rw [List.pairwise_map, List.pairwise_filterMap]
  refine (List.pairwise_map.1 ascending).imp fun {one two} before first kept second other => ?_
  obtain ⟨_, _, rfl⟩ := Option.map_eq_some_iff.1 kept
  obtain ⟨_, _, rfl⟩ := Option.map_eq_some_iff.1 other
  exact before

theorem lookup_keepMembers (distinct : (names members).Nodup) (name : String) :
    (keepMembers keep members).lookup name = (members.lookup name).bind (keep name) := by
  induction members with
  | nil => rfl
  | cons member rest ih =>
    obtain ⟨first, value⟩ := member
    obtain ⟨absent, distinct⟩ := List.nodup_cons.1 distinct
    have later := ih distinct
    rw [lookup_cons]
    unfold keepMembers at later ⊢
    rw [List.filterMap_cons]
    by_cases here : name = first
    · subst here
      rw [(Table.lookup_eq_none_iff name rest).2 absent] at later
      cases kept : keep name value with
      | none => simpa [kept] using later
      | some new => simp [kept]
    · cases kept : keep first value with
      | none => simpa [kept, here] using later
      | some new => simpa [kept, here, lookup_cons] using later

-- What is kept of members in ascending order is what is written, if it is so under each name.
theorem keepMembers_eq_sorted {written : List (String × Json)} (ascending : Ascending members)
    (distinct : (names written).Nodup)
    (each : ∀ name, (members.lookup name).bind (keep name) = (written.lookup name).map sorted) :
    .object (keepMembers keep members) = (Json.object written).sorted := by
  rw [sorted]
  have none : Ascending [] := List.Pairwise.nil
  refine congrArg Json.object ((keepMembers_ascending ascending).ext (sortMembers_ascending none written) ?_)
  intro name
  rw [lookup_keepMembers ascending.distinct, lookup_sortMembers distinct, each, List.lookup_nil, Option.or_none]

theorem keepMembers_eq_sorted_table {α : Type} (ascending : Ascending members) (table : Table α) {save : Json → Json}
    {toJson : α → Json}
    (each : ∀ name, (members.lookup name).map save = (table.get? name).map fun value => (toJson value).sorted) :
    .object (keepMembers (fun _ value => some (save value)) members) =
      (Json.object (table.entries.map fun (name, value) => (name, toJson value))).sorted := by
  refine keepMembers_eq_sorted ascending ?_ fun name => ?_
  · simpa only [names, List.map_map, Function.comp_def] using table.distinct
  · rw [lookup_map, Option.map_map]
    exact Option.map_eq_bind.symm.trans (each name)

end Kept

end NodeFlow.Json
