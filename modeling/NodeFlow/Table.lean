namespace NodeFlow

def names {α : Type} (entries : List (String × α)) : List String := entries.map Prod.fst

structure Table (α : Type) where
  entries : List (String × α)
  distinct : (names entries).Nodup

namespace Table

variable {α β : Type}

-- A known name keeps its place and takes the new value; a new one comes last.
def insertEntry (name : String) (value : α) : List (String × α) → List (String × α)
  | [] => [(name, value)]
  | (other, old) :: rest =>
    if other = name then (other, value) :: rest else (other, old) :: insertEntry name value rest

theorem names_insertEntry (name : String) (value : α) (entries : List (String × α)) :
    names (insertEntry name value entries) =
      if name ∈ names entries then names entries else names entries ++ [name] := by
  induction entries with
  | nil => simp [insertEntry, names]
  | cons entry rest ih =>
    obtain ⟨other, old⟩ := entry
    unfold insertEntry
    by_cases same : other = name
    · simp [same, names]
    · have different : name ≠ other := fun equal => same equal.symm
      simp only [names] at ih
      by_cases present : name ∈ rest.map Prod.fst <;> simp [same, different, names, ih, present]

theorem insertEntry_distinct (name : String) (value : α) (entries : List (String × α))
    (distinct : (names entries).Nodup) : (names (insertEntry name value entries)).Nodup := by
  rw [names_insertEntry]
  split
  · exact distinct
  · rename_i absent
    refine List.nodup_append.2 ⟨distinct, by simp, ?_⟩
    intro old member other single
    rw [List.mem_singleton] at single
    subst other
    exact fun equal => absent (equal ▸ member)

def empty : Table α := ⟨[], by simp [names]⟩

def names (table : Table α) : List String := NodeFlow.names table.entries

def size (table : Table α) : Nat := table.entries.length

def isEmpty (table : Table α) : Bool := table.entries.isEmpty

def get? (table : Table α) (name : String) : Option α := table.entries.lookup name

def contains (table : Table α) (name : String) : Bool := (table.get? name).isSome

def insert (table : Table α) (name : String) (value : α) : Table α :=
  ⟨insertEntry name value table.entries, insertEntry_distinct _ _ _ table.distinct⟩

def ofList (entries : List (String × α)) : Table α :=
  entries.foldl (fun table entry => table.insert entry.1 entry.2) empty

theorem sublist_distinct {few many : List (String × α)} (part : few.Sublist many)
    (distinct : (NodeFlow.names many).Nodup) : (NodeFlow.names few).Nodup :=
  distinct.sublist (part.map Prod.fst)

def filter (table : Table α) (keep : String → α → Bool) : Table α :=
  ⟨table.entries.filter fun entry => keep entry.1 entry.2,
    sublist_distinct List.filter_sublist table.distinct⟩

def erase (table : Table α) (name : String) : Table α := table.filter fun other _ => other != name

def map (table : Table α) (f : String → α → β) : Table β :=
  ⟨table.entries.map fun entry => (entry.1, f entry.1 entry.2), by
    simpa [NodeFlow.names, Function.comp_def] using table.distinct⟩

def sameEntries (same : α → α → Bool) (a b : Table α) : Bool :=
  a.size == b.size && a.entries.all fun entry =>
    match b.get? entry.1 with
    | some value => same entry.2 value
    | none => false

theorem names_insert (table : Table α) (name : String) (value : α) :
    (table.insert name value).names =
      if name ∈ table.names then table.names else table.names ++ [name] :=
  names_insertEntry name value table.entries

theorem lookup_insertEntry (name other : String) (value : α) (entries : List (String × α)) :
    (insertEntry name value entries).lookup other =
      if other = name then some value else entries.lookup other := by
  induction entries with
  | nil =>
    by_cases same : other = name
    · simp [insertEntry, same]
    · simp [insertEntry, same]
  | cons entry rest ih =>
    obtain ⟨first, old⟩ := entry
    unfold insertEntry
    by_cases hit : first = name
    · by_cases same : other = name
      · simp [hit, same]
      · have miss : (other == name) = false := by simpa using same
        simp [hit, same, List.lookup_cons, miss]
    · by_cases here : other = first
      · have apart : ¬ other = name := fun equal => hit (here ▸ equal)
        simp [hit, here]
      · have miss : (other == first) = false := by simpa using here
        simp [hit, List.lookup_cons, miss, ih]

theorem get?_insert (table : Table α) (name other : String) (value : α) :
    (table.insert name value).get? other = if other = name then some value else table.get? other :=
  lookup_insertEntry name other value table.entries

theorem lookup_eq_none_iff (name : String) (entries : List (String × α)) :
    entries.lookup name = none ↔ name ∉ NodeFlow.names entries := by
  induction entries with
  | nil => simp [NodeFlow.names]
  | cons entry rest ih =>
    obtain ⟨first, old⟩ := entry
    simp only [NodeFlow.names] at ih
    by_cases here : name = first
    · simp [here, NodeFlow.names]
    · have miss : (name == first) = false := by simpa using here
      simp [List.lookup_cons, miss, NodeFlow.names, ih, here]

theorem get?_eq_none_iff (table : Table α) (name : String) :
    table.get? name = none ↔ name ∉ table.names := lookup_eq_none_iff name table.entries

theorem contains_iff (table : Table α) (name : String) :
    table.contains name = true ↔ name ∈ table.names := by
  have absent := get?_eq_none_iff table name
  unfold contains
  cases found : table.get? name with
  | none => simp [absent.1 found]
  | some value =>
    have present : ¬ name ∉ table.names := fun missing => by simp [absent.2 missing] at found
    simpa using present

theorem mem_entries_iff (table : Table α) (name : String) (value : α) :
    (name, value) ∈ table.entries ↔ table.get? name = some value := by
  obtain ⟨entries, distinct⟩ := table
  show (name, value) ∈ entries ↔ entries.lookup name = some value
  induction entries with
  | nil => simp
  | cons entry rest ih =>
    obtain ⟨first, old⟩ := entry
    simp only [NodeFlow.names, List.map_cons, List.nodup_cons] at distinct
    have tail := ih distinct.2
    by_cases here : name = first
    · subst here
      have absent : (name, value) ∉ rest := fun member =>
        distinct.1 (List.mem_map.2 ⟨_, member, rfl⟩)
      simp [absent, eq_comm]
    · have miss : (name == first) = false := by simpa using here
      simp [List.lookup_cons, miss, here, tail]

theorem get?_erase (table : Table α) (name other : String) :
    (table.erase name).get? other = if other = name then none else table.get? other := by
  by_cases same : other = name
  · rw [if_pos same, get?_eq_none_iff]
    simp [erase, filter, names, NodeFlow.names, same]
  · rw [if_neg same]
    apply Option.ext
    intro value
    rw [← mem_entries_iff, ← mem_entries_iff]
    simp [erase, filter, same]

theorem insertEntry_of_not_mem (name : String) (value : α) (entries : List (String × α))
    (absent : name ∉ NodeFlow.names entries) :
    insertEntry name value entries = entries ++ [(name, value)] := by
  induction entries with
  | nil => rfl
  | cons entry rest ih =>
    obtain ⟨first, old⟩ := entry
    simp only [NodeFlow.names, List.map_cons, List.mem_cons, not_or] at absent
    have apart : ¬ first = name := fun equal => absent.1 equal.symm
    simp [insertEntry, apart, ih absent.2]

theorem insert_of_not_mem (table : Table α) (name : String) (value : α)
    (absent : name ∉ table.names) :
    (table.insert name value).entries = table.entries ++ [(name, value)] :=
  insertEntry_of_not_mem name value table.entries absent

end Table

end NodeFlow
