import Mathlib.Data.List.Induction
import NodeFlow.Table

namespace NodeFlow.Table

variable {α : Type}

theorem ofList_append_singleton (entries : List (String × α)) (name : String) (value : α) :
    ofList (entries ++ [(name, value)]) = (ofList entries).insert name value := by
  simp [ofList]

theorem names_ofList (entries : List (String × α)) :
    (ofList entries).names = (NodeFlow.names entries).eraseDups := by
  induction entries using List.reverseRecOn with
  | nil => rfl
  | append_singleton entries entry ih =>
    obtain ⟨name, value⟩ := entry
    rw [ofList_append_singleton, names_insert, ih]
    simp only [NodeFlow.names, List.map_append, List.eraseDups_append, List.mem_eraseDups]
    by_cases known : name ∈ entries.map Prod.fst
    · simp [known, List.removeAll]
    · simp [known, List.removeAll, List.eraseDups_cons]

theorem get?_ofList (entries : List (String × α)) (name : String) :
    (ofList entries).get? name = entries.reverse.lookup name := by
  induction entries using List.reverseRecOn with
  | nil => rfl
  | append_singleton entries entry ih =>
    obtain ⟨other, value⟩ := entry
    rw [ofList_append_singleton, get?_insert, ih]
    by_cases same : name = other
    · simp [same]
    · have miss : (name == other) = false := by simpa using same
      simp [same, miss, List.lookup_cons]

theorem entries_ofList (entries : List (String × α)) (distinct : (NodeFlow.names entries).Nodup) :
    (ofList entries).entries = entries := by
  induction entries using List.reverseRecOn with
  | nil => rfl
  | append_singleton entries entry ih =>
    obtain ⟨name, value⟩ := entry
    simp only [NodeFlow.names, List.map_append] at distinct
    obtain ⟨first, _, apart⟩ := List.nodup_append.1 distinct
    have kept := ih first
    have absent : name ∉ (ofList entries).names := by
      rw [names, kept]
      exact fun member => apart name member name (List.mem_singleton_self name) rfl
    rw [ofList_append_singleton, insert_of_not_mem _ _ _ absent, kept]

theorem mem_of_get?_ofList {entries : List (String × α)} {name : String} {value : α}
    (found : (ofList entries).get? name = some value) : (name, value) ∈ entries := by
  rw [get?_ofList, List.lookup_eq_some_iff] at found
  obtain ⟨before, after, split, _⟩ := found
  rw [← List.mem_reverse, split]
  exact List.mem_append_right _ List.mem_cons_self

theorem get?_of_perm {table other : Table α} (perm : other.entries.Perm table.entries) (name : String) :
    other.get? name = table.get? name := by
  apply Option.ext
  intro value
  rw [← mem_entries_iff, ← mem_entries_iff, perm.mem_iff]

end NodeFlow.Table
