import NodeFlow.Proofs.Json.Quoting
import NodeFlow.Proofs.Json.Stored

namespace NodeFlow.Json

open Scan Read

mutual
def memberNames : Json → List String
  | .array items => namesOfItems items
  | .object members => namesOfMembers members
  | _ => []

def namesOfItems : List Json → List String
  | [] => []
  | item :: rest => item.memberNames ++ namesOfItems rest

def namesOfMembers : List (String × Json) → List String
  | [] => []
  | (name, value) :: rest => name :: value.memberNames ++ namesOfMembers rest
end

theorem namesOfItems_eq_flatMap (items : List Json) : namesOfItems items = items.flatMap memberNames := by
  induction items with
  | nil => rfl
  | cons item rest ih => simp [namesOfItems, ih]

theorem mem_namesOfMembers (members : List (String × Json)) (name : String) :
    name ∈ namesOfMembers members ↔ ∃ member ∈ members, name = member.1 ∨ name ∈ member.2.memberNames := by
  induction members with
  | nil => simp [namesOfMembers]
  | cons member rest ih => obtain ⟨first, value⟩ := member; simp [namesOfMembers, ih, or_assoc]

namespace Read

section Loops

variable {α σ : Type}

theorem moreItems_takes {item : Reader α} {namesOf : α → List String}
    (each : ∀ text read rest, item text = .ok (read, rest) → Takes text rest (namesOf read))
    (bound text rest : List Char) (read : List α) (done : moreItems item bound text = .ok (read, rest)) :
    Takes text rest (read.flatMap namesOf) := by
  induction bound generalizing text read with
  | nil => cases done
  | cons _ bound ih =>
    unfold moreItems at done
    split at done
    · cases done
    · rename_i c tail skipped
      split at done
      · rename_i closing
        cases done
        exact takes_of_skipBlank skipped (by rw [closing]; decide)
      · split at done
        · rename_i comma
          have mark := takes_of_skipBlank skipped (by rw [comma]; decide)
          split at done
          · cases done
          · rename_i d behind next
            split at done
            · cases done
            · obtain ⟨⟨first, after⟩, one, done⟩ := (bind_eq_ok_iff _ _ _).1 done
              obtain ⟨⟨others, last⟩, more, done⟩ := (bind_eq_ok_iff _ _ _).1 done
              cases done
              have gap := skipBlank_takes tail
              rw [next] at gap
              exact mark.trans (gap.trans ((each _ _ _ one).trans (ih _ _ more)))
        · cases done

theorem items_takes {item : Reader α} {namesOf : α → List String}
    (each : ∀ text read rest, item text = .ok (read, rest) → Takes text rest (namesOf read))
    (text rest : List Char) (read : List α) (done : items item text = .ok (read, rest)) :
    Takes text rest (read.flatMap namesOf) := by
  unfold items at done
  split at done
  · cases done
  · rename_i c tail skipped
    split at done
    · rename_i closing
      cases done
      exact takes_of_skipBlank skipped (by rw [closing]; decide)
    · obtain ⟨⟨first, after⟩, one, done⟩ := (bind_eq_ok_iff _ _ _).1 done
      obtain ⟨⟨others, last⟩, more, done⟩ := (bind_eq_ok_iff _ _ _).1 done
      cases done
      have gap := skipBlank_takes text
      rw [skipped] at gap
      exact gap.trans ((each _ _ _ one).trans (moreItems_takes each _ _ _ _ more))

-- A member adds no names to the state but its own and those that its text spells.
def FieldTakes (namesOf : σ → List String) (field : FieldReader σ) : Prop :=
  ∀ state name text next rest, field state name text = .ok (next, rest) →
    ∃ found, Takes text rest found ∧ ∀ n ∈ namesOf next, n = name ∨ n ∈ found ∨ n ∈ namesOf state

variable {namesOf : σ → List String} {field : FieldReader σ}

theorem member_takes {state next final : σ} {name : String} {text value after rest : List Char}
    (takes : FieldTakes namesOf field) (named : stringBody text = .ok (name, value))
    (one : field state name value = .ok (next, after))
    (more : ∃ found, Takes after rest found ∧ ∀ n ∈ namesOf final, n ∈ found ∨ n ∈ namesOf next) :
    ∃ found, Takes ('"' :: text) rest found ∧ ∀ n ∈ namesOf final, n ∈ found ∨ n ∈ namesOf state := by
  obtain ⟨inner, first, gained⟩ := takes _ _ _ _ _ one
  obtain ⟨others, onward, later⟩ := more
  refine ⟨_, (stringBody_takes named).trans (first.trans onward), ?_⟩
  intro n member
  rcases later n member with found | found
  · simp [found]
  · rcases gained n found with rfl | inside | old
    · simp
    · simp [inside]
    · exact .inr old

theorem moreMembers_takes (takes : FieldTakes namesOf field) (bound text rest : List Char) (state final : σ)
    (done : moreMembers field bound state text = .ok (final, rest)) :
    ∃ found, Takes text rest found ∧ ∀ n ∈ namesOf final, n ∈ found ∨ n ∈ namesOf state := by
  induction bound generalizing text state with
  | nil => cases done
  | cons _ bound ih =>
    unfold moreMembers at done
    split at done
    · cases done
    · rename_i c tail skipped
      split at done
      · rename_i closing
        cases done
        exact ⟨[], takes_of_skipBlank skipped (by rw [closing]; decide), fun n member => .inr member⟩
      · split at done
        · rename_i comma
          have mark := takes_of_skipBlank skipped (by rw [comma]; decide)
          split at done
          · cases done
          · rename_i d behind next
            split at done
            · rename_i quote
              obtain ⟨⟨name, value⟩, named, done⟩ := (bind_eq_ok_iff _ _ _).1 done
              obtain ⟨⟨later, after⟩, one, done⟩ := (bind_eq_ok_iff _ _ _).1 done
              have gap := skipBlank_takes tail
              rw [next, quote] at gap
              obtain ⟨found, body, gained⟩ := member_takes takes named one (ih _ _ done)
              exact ⟨_, mark.trans (gap.trans body), gained⟩
            · split at done <;> cases done
        · cases done

theorem members_takes (takes : FieldTakes namesOf field) (text rest : List Char) (state final : σ)
    (done : members field state text = .ok (final, rest)) :
    ∃ found, Takes text rest found ∧ ∀ n ∈ namesOf final, n ∈ found ∨ n ∈ namesOf state := by
  unfold members at done
  split at done
  · cases done
  · rename_i c tail skipped
    split at done
    · rename_i closing
      cases done
      exact ⟨[], takes_of_skipBlank skipped (by rw [closing]; decide), fun n member => .inr member⟩
    · split at done
      · rename_i quote
        obtain ⟨⟨name, value⟩, named, done⟩ := (bind_eq_ok_iff _ _ _).1 done
        obtain ⟨⟨later, after⟩, one, done⟩ := (bind_eq_ok_iff _ _ _).1 done
        have gap := skipBlank_takes text
        rw [skipped, quote] at gap
        obtain ⟨found, body, gained⟩ := member_takes takes named one (moreMembers_takes takes _ _ _ _ _ done)
        exact ⟨_, gap.trans body, gained⟩
      · cases done

theorem keptField_takes {value : Reader Json}
    (each : ∀ text read rest, value text = .ok (read, rest) → Takes text rest read.memberNames) :
    FieldTakes namesOfMembers (keptField value fun done name read => insertMember name read done) := by
  intro members name text next rest done
  obtain ⟨before, punctuated, done⟩ := (bind_eq_ok_iff _ _ _).1 done
  obtain ⟨⟨read, after⟩, one, done⟩ := (bind_eq_ok_iff _ _ _).1 done
  cases done
  refine ⟨_, (colon_takes punctuated).trans (each _ _ _ one), ?_⟩
  intro n member
  obtain ⟨entry, present, spelled⟩ := (mem_namesOfMembers _ n).1 member
  rcases mem_insertMember name read members entry present with rfl | old
  · exact spelled.imp_right .inl
  · exact .inr (.inr ((mem_namesOfMembers _ n).2 ⟨entry, old, spelled⟩))

end Loops

theorem word_takes {text tail letters rest : List Char} {c : Char} (skipped : skipBlank text = c :: tail)
    (spelled : word letters tail = .ok rest) (bare : ∀ d ∈ c :: letters, d ≠ '"' ∧ isBare d = true) :
    Takes text rest [] := by
  have gap := skipBlank_takes text
  rw [skipped, word_eq_ok spelled] at gap
  exact gap.trans (.of_bare bare rest)

theorem value_takes_of_below {budget : Nat} (below : ∀ limit, budget = limit + 1 → ∀ text read rest,
    value limit text = .ok (read, rest) → Takes text rest read.memberNames)
    {text : List Char} {read : Json} {rest : List Char} (done : value budget text = .ok (read, rest)) :
    Takes text rest read.memberNames := by
  unfold value at done
  split at done
  · cases done
  · rename_i c tail skipped
    have gap := skipBlank_takes text
    rw [skipped] at gap
    split at done
    · rename_i null
      obtain ⟨_, spelled, done⟩ := (bind_eq_ok_iff _ _ _).1 done
      cases done
      exact word_takes skipped spelled (by simp [null, isBare])
    split at done
    · rename_i truth
      obtain ⟨_, spelled, done⟩ := (bind_eq_ok_iff _ _ _).1 done
      cases done
      exact word_takes skipped spelled (by simp [truth, isBare])
    split at done
    · rename_i falsehood
      obtain ⟨_, spelled, done⟩ := (bind_eq_ok_iff _ _ _).1 done
      cases done
      exact word_takes skipped spelled (by simp [falsehood, isBare])
    split at done
    · obtain ⟨_, one, done⟩ := (bind_eq_ok_iff _ _ _).1 done
      cases done
      exact gap.trans (number_takes one)
    split at done
    · rename_i quote
      obtain ⟨_, one, done⟩ := (bind_eq_ok_iff _ _ _).1 done
      cases done
      rw [quote] at gap
      exact (gap.trans (stringBody_takes one)).mono (by simp [memberNames])
    split at done
    · rename_i bracket
      have mark := takes_of_skipBlank skipped (by rw [bracket]; decide)
      split at done
      · cases done
      · obtain ⟨⟨list, after⟩, one, done⟩ := (bind_eq_ok_iff _ _ _).1 done
        cases done
        have inner := items_takes (below _ rfl) _ _ _ one
        rw [← namesOfItems_eq_flatMap] at inner
        exact mark.trans inner
    split at done
    · rename_i brace
      have mark := takes_of_skipBlank skipped (by rw [brace]; decide)
      split at done
      · cases done
      · obtain ⟨⟨list, after⟩, one, done⟩ := (bind_eq_ok_iff _ _ _).1 done
        cases done
        obtain ⟨found, inner, gained⟩ := members_takes (keptField_takes (below _ rfl)) _ _ _ _ one
        refine (mark.trans inner).mono fun name member => ?_
        exact (gained name member).resolve_right (by simp [namesOfMembers])
    · cases done

theorem value_takes (budget : Nat) (text : List Char) (read : Json) (rest : List Char)
    (done : value budget text = .ok (read, rest)) : Takes text rest read.memberNames := by
  induction budget generalizing text read rest with
  | zero => exact value_takes_of_below (fun limit positive => by cases positive) done
  | succ budget ih => exact value_takes_of_below (fun limit same => by cases same; exact ih) done

end Read

theorem read_takes {text : String} {value : Json} (read : Json.read text = .ok value) :
    Takes text.toList [] value.memberNames := by
  obtain ⟨rest, done, blank⟩ := Read.whole_eq_ok read
  have gap := skipBlank_takes rest
  rw [blank] at gap
  exact ((Read.value_takes _ _ _ _ done).trans gap).mono (by simp)

-- What is read of a part of a string has no name with an underscore: outside the string that part would
-- be walked through on the other side of every quote.
theorem no_underscore_of_inside {text : List Char} {last : Side} {value : Json}
    (inside : walk? .inside text = some last) (read : Json.read? (String.ofList text) = some value) :
    ∀ name ∈ value.memberNames, '_' ∉ name.toList := by
  obtain ⟨used, whole, outside, spelled⟩ := read_takes (read_of_read? read)
  rw [String.toList_ofList, List.append_nil] at whole
  subst whole
  have bare := bare_of_walks text _ _ outside inside
  intro name member underscore
  rcases spelled name member with backslash | each
  · exact absurd (bare _ backslash) (by decide)
  · exact absurd (bare _ (each _ underscore)) (by decide)

end NodeFlow.Json
