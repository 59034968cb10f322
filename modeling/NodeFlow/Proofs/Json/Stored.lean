import NodeFlow.Proofs.Json.Loops

namespace NodeFlow.Json

section Members

variable (name : String) (value : Json)

theorem mem_insertMember (members : List (String × Json)) (member : String × Json)
    (found : member ∈ insertMember name value members) : member = (name, value) ∨ member ∈ members := by
  induction members with
  | nil => exact .inl (List.mem_singleton.1 found)
  | cons first rest ih =>
    obtain ⟨other, old⟩ := first
    unfold insertMember at found
    split at found
    · rcases List.mem_cons.1 found with rfl | later
      · exact .inl rfl
      · exact .inr (List.mem_cons_of_mem _ later)
    · split at found
      · exact List.mem_cons.1 found
      · rcases List.mem_cons.1 found with rfl | later
        · exact .inr List.mem_cons_self
        · exact (ih later).imp_right (List.mem_cons_of_mem _)

theorem ascending_cons_iff (members : List (String × Json)) :
    Ascending ((name, value) :: members) ↔ (∀ member ∈ members, Text.Precedes name member.1) ∧ Ascending members := by
  simp [Ascending]

theorem insertMember_ascending (members : List (String × Json)) (ascending : Ascending members) :
    Ascending (insertMember name value members) := by
  induction members with
  | nil => simp [insertMember, Ascending]
  | cons first rest ih =>
    obtain ⟨other, old⟩ := first
    have parts := (ascending_cons_iff other old rest).1 ascending
    unfold insertMember
    split
    · rename_i same
      exact (ascending_cons_iff _ _ _).2 ⟨same ▸ parts.1, parts.2⟩
    · rename_i different
      split
      · rename_i before
        refine (ascending_cons_iff _ _ _).2 ⟨?_, ascending⟩
        intro member found
        rcases List.mem_cons.1 found with rfl | later
        · exact before
        · exact before.trans (parts.1 member later)
      · rename_i notBefore
        refine (ascending_cons_iff _ _ _).2 ⟨?_, ih parts.2⟩
        intro member found
        rcases mem_insertMember name value rest member found with rfl | later
        · exact Text.precedes_of_not different notBefore
        · exact parts.1 member later

theorem Ascending.behind {done rest : List (String × Json)} (ascending : Ascending (done ++ (name, value) :: rest)) :
    ∀ member ∈ done, Text.Precedes member.1 name := by
  intro member found
  unfold Ascending at ascending
  rw [List.map_append, List.map_cons, List.pairwise_append] at ascending
  exact ascending.2.2 member.1 (List.mem_map_of_mem found) name List.mem_cons_self

theorem insertMember_last (members : List (String × Json)) (behind : ∀ member ∈ members, Text.Precedes member.1 name) :
    insertMember name value members = members ++ [(name, value)] := by
  induction members with
  | nil => rfl
  | cons first rest ih =>
    obtain ⟨other, old⟩ := first
    have less : Text.Precedes other name := behind (other, old) List.mem_cons_self
    have different : ¬ name = other := fun same => Text.precedes_irrefl name (same ▸ less)
    have notBefore : ¬ Text.Precedes name other := fun greater => Text.precedes_irrefl name (greater.trans less)
    have tail := ih fun member found => behind member (List.mem_cons_of_mem _ found)
    simp [insertMember, different, notBefore, tail]

end Members

theorem canonicalItems_iff (items : List Json) :
    CanonicalItems items ↔ ∀ item ∈ items, item.Canonical := by
  induction items with
  | nil => simp [CanonicalItems]
  | cons item rest ih => simp [CanonicalItems, ih]

theorem canonicalMembers_iff (members : List (String × Json)) :
    CanonicalMembers members ↔ ∀ member ∈ members, member.2.Canonical := by
  induction members with
  | nil => simp [CanonicalMembers]
  | cons member rest ih => obtain ⟨name, value⟩ := member; simp [CanonicalMembers, ih]

mutual
def depth : Json → Nat
  | .array items => depthOfItems items + 1
  | .object members => depthOfMembers members + 1
  | _ => 0

def depthOfItems : List Json → Nat
  | [] => 0
  | item :: rest => max item.depth (depthOfItems rest)

def depthOfMembers : List (String × Json) → Nat
  | [] => 0
  | (_, value) :: rest => max value.depth (depthOfMembers rest)
end

theorem depthOfItems_le_iff (items : List Json) (limit : Nat) :
    depthOfItems items ≤ limit ↔ ∀ item ∈ items, item.depth ≤ limit := by
  induction items with
  | nil => simp [depthOfItems]
  | cons item rest ih => rw [depthOfItems, Nat.max_le, ih, List.forall_mem_cons]

theorem depthOfMembers_le_iff (members : List (String × Json)) (limit : Nat) :
    depthOfMembers members ≤ limit ↔ ∀ member ∈ members, member.2.depth ≤ limit := by
  induction members with
  | nil => simp [depthOfMembers]
  | cons member rest ih => rw [depthOfMembers, Nat.max_le, ih, List.forall_mem_cons]

-- A value that a reader with the budget can have made.
structure Stored (budget : Nat) (value : Json) : Prop where
  canonical : value.Canonical
  depth_le : value.depth ≤ budget

theorem stored_array_iff (budget : Nat) (items : List Json) :
    Stored (budget + 1) (.array items) ↔ ∀ item ∈ items, item.Stored budget := by
  constructor
  · intro stored item member
    obtain ⟨canonical, depth_le⟩ := stored
    exact ⟨(canonicalItems_iff items).1 canonical item member,
      (depthOfItems_le_iff items budget).1 (Nat.le_of_succ_le_succ depth_le) item member⟩
  · intro each
    exact ⟨(canonicalItems_iff items).2 fun item member => (each item member).canonical,
      Nat.succ_le_succ ((depthOfItems_le_iff items budget).2 fun item member => (each item member).depth_le)⟩

theorem stored_object_iff (budget : Nat) (members : List (String × Json)) :
    Stored (budget + 1) (.object members) ↔
      Ascending members ∧ ∀ member ∈ members, member.2.Stored budget := by
  constructor
  · intro stored
    obtain ⟨⟨ascending, canonical⟩, depth_le⟩ := stored
    exact ⟨ascending, fun member found => ⟨(canonicalMembers_iff members).1 canonical member found,
      (depthOfMembers_le_iff members budget).1 (Nat.le_of_succ_le_succ depth_le) member found⟩⟩
  · intro parts
    obtain ⟨ascending, each⟩ := parts
    exact ⟨⟨ascending, (canonicalMembers_iff members).2 fun member found => (each member found).canonical⟩,
      Nat.succ_le_succ
        ((depthOfMembers_le_iff members budget).2 fun member found => (each member found).depth_le)⟩

namespace Read

open Scan

-- Members gathered in ascending order stay storable, one level up.
theorem keptField_keeps_members {value : Reader Json} {budget : Nat}
    (made : ∀ text read rest, value text = .ok (read, rest) → read.Stored budget) :
    Keeps (keptField value fun done name read => insertMember name read done)
      fun members => Ascending members ∧ ∀ member ∈ members, member.2.Stored budget := by
  intro members name text next rest held done
  obtain ⟨ascending, each⟩ := held
  obtain ⟨read, before, one, rfl⟩ := keptField_eq_ok done
  refine ⟨insertMember_ascending name read members ascending, ?_⟩
  intro member found
  rcases mem_insertMember name read members member found with rfl | old
  · exact made _ _ _ one
  · exact each member old

theorem value_eq_ok (budget : Nat) (text rest : List Char) (read : Json)
    (done : value budget text = .ok (read, rest)) :
    (∀ limit, read.Stored limit) ∨
    (∃ below inner list, budget = below + 1 ∧ items (value below) inner = .ok (list, rest) ∧
      read = .array list) ∨
    (∃ below inner list, budget = below + 1 ∧
      members (keptField (value below) fun done name read => insertMember name read done) [] inner =
        .ok (list, rest) ∧ read = .object list) := by
  unfold value at done
  split at done
  · cases done
  · -- The words, numbers and strings come before the brackets.
    iterate 5
      split at done
      · obtain ⟨_, _, done⟩ := (bind_eq_ok_iff _ _ _).1 done
        cases done
        exact .inl fun limit => ⟨trivial, Nat.zero_le limit⟩
    split at done
    · split at done
      · cases done
      · obtain ⟨⟨list, after⟩, one, done⟩ := (bind_eq_ok_iff _ _ _).1 done
        cases done
        exact .inr (.inl ⟨_, _, _, rfl, one, rfl⟩)
    · split at done
      · split at done
        · cases done
        · obtain ⟨⟨list, after⟩, one, done⟩ := (bind_eq_ok_iff _ _ _).1 done
          cases done
          exact .inr (.inr ⟨_, _, _, rfl, one, rfl⟩)
      · cases done

theorem value_stored (budget : Nat) (text : List Char) (read : Json) (rest : List Char)
    (done : value budget text = .ok (read, rest)) : read.Stored budget := by
  induction budget generalizing text read rest with
  | zero =>
    rcases value_eq_ok _ _ _ _ done with scalar | ⟨_, _, _, positive, _⟩ | ⟨_, _, _, positive, _⟩
    · exact scalar 0
    · cases positive
    · cases positive
  | succ budget ih =>
    obtain scalar | ⟨_, inner, list, same, one, rfl⟩ | ⟨_, inner, list, same, one, rfl⟩ :=
      value_eq_ok _ _ _ _ done
    · exact scalar _
    · cases same
      exact (stored_array_iff budget list).2 (items_forall ih _ _ _ one)
    · cases same
      have none : Ascending [] ∧ ∀ member ∈ ([] : List (String × Json)), member.2.Stored budget :=
        ⟨List.Pairwise.nil, by simp⟩
      exact (stored_object_iff budget list).2 (members_keeps (keptField_keeps_members ih) _ _ _ _ none one)

end Read

theorem stored_of_read? {text : String} {value : Json} (read : read? text = some value) :
    value.Stored Read.depthLimit := by
  obtain ⟨rest, one, _⟩ := Read.whole_eq_ok (read_of_read? read)
  exact Read.value_stored _ _ _ _ one

section Sorting

theorem sortMembers_of_sorted (done members : List (String × Json)) (ascending : Ascending (done ++ members))
    (each : ∀ member ∈ members, member.2.sorted = member.2) : sortMembers done members = done ++ members := by
  induction members generalizing done with
  | nil => simp [sortMembers]
  | cons member rest ih =>
    obtain ⟨name, value⟩ := member
    have fixed : value.sorted = value := each (name, value) List.mem_cons_self
    have shifted : Ascending ((done ++ [(name, value)]) ++ rest) := by simpa using ascending
    simp only [sortMembers]
    rw [fixed, insertMember_last name value done ascending.behind,
      ih _ shifted fun member found => each member (List.mem_cons_of_mem _ found)]
    simp

mutual
theorem sorted_of_canonical : (value : Json) → value.Canonical → value.sorted = value
  | .null, _ | .bool _, _ | .number _, _ | .string _, _ => by simp [sorted]
  | .array items, canonical => by
    simp only [sorted, sortedItems_of_canonical items canonical]
  | .object members, canonical => by
    have each := sortedMembers_of_canonical members canonical.2
    simp only [sorted, sortMembers_of_sorted [] members canonical.1 each, List.nil_append]

theorem sortedItems_of_canonical : (items : List Json) → CanonicalItems items → sortedItems items = items
  | [], _ => rfl
  | item :: rest, canonical => by
    simp only [sortedItems, sorted_of_canonical item canonical.1, sortedItems_of_canonical rest canonical.2]

theorem sortedMembers_of_canonical : (members : List (String × Json)) → CanonicalMembers members →
    ∀ member ∈ members, member.2.sorted = member.2
  | [], _ => by simp
  | (name, value) :: rest, canonical => by
    intro member found
    rcases List.mem_cons.1 found with rfl | later
    · exact sorted_of_canonical value canonical.1
    · exact sortedMembers_of_canonical rest canonical.2 member later
end

end Sorting

end NodeFlow.Json
