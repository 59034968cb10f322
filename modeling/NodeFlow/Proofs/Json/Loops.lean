import NodeFlow.Json.Reader

namespace NodeFlow.Json

namespace Read

open Scan

variable {α β σ : Type}

theorem bind_eq_ok_iff (first : Except Failure α) (next : α → Except Failure β) (made : β) :
    (first >>= next) = .ok made ↔ ∃ found, first = .ok found ∧ next found = .ok made := by
  cases first with
  | error failure =>
    constructor
    · intro done; cases done
    · intro parts
      obtain ⟨found, one, _⟩ := parts
      cases one
  | ok found =>
    constructor
    · intro done; exact ⟨found, rfl, done⟩
    · intro parts
      obtain ⟨other, one, done⟩ := parts
      cases one
      exact done

theorem moreItems_forall {item : Reader α} {P : α → Prop}
    (each : ∀ text read rest, item text = .ok (read, rest) → P read) (bound text rest : List Char)
    (read : List α) (done : moreItems item bound text = .ok (read, rest)) : ∀ x ∈ read, P x := by
  induction bound generalizing text read with
  | nil => cases done
  | cons _ bound ih =>
    unfold moreItems at done
    split at done
    · cases done
    · split at done
      · cases done; simp
      · split at done
        · split at done
          · cases done
          · split at done
            · cases done
            · obtain ⟨⟨first, after⟩, one, done⟩ := (bind_eq_ok_iff _ _ _).1 done
              obtain ⟨⟨others, after⟩, more, done⟩ := (bind_eq_ok_iff _ _ _).1 done
              cases done
              intro x member
              rcases List.mem_cons.1 member with rfl | later
              · exact each _ _ _ one
              · exact ih _ _ more x later
        · cases done

theorem items_forall {item : Reader α} {P : α → Prop}
    (each : ∀ text read rest, item text = .ok (read, rest) → P read) (text rest : List Char)
    (read : List α) (done : items item text = .ok (read, rest)) : ∀ x ∈ read, P x := by
  unfold items at done
  split at done
  · cases done
  · split at done
    · cases done; simp
    · obtain ⟨⟨first, after⟩, one, done⟩ := (bind_eq_ok_iff _ _ _).1 done
      obtain ⟨⟨others, after⟩, more, done⟩ := (bind_eq_ok_iff _ _ _).1 done
      cases done
      intro x member
      rcases List.mem_cons.1 member with rfl | later
      · exact each _ _ _ one
      · exact moreItems_forall each _ _ _ _ more x later

def Keeps (field : FieldReader σ) (P : σ → Prop) : Prop :=
  ∀ state name text next rest, P state → field state name text = .ok (next, rest) → P next

theorem moreMembers_keeps {field : FieldReader σ} {P : σ → Prop} (keeps : Keeps field P)
    (bound text rest : List Char) (state final : σ) (start : P state)
    (done : moreMembers field bound state text = .ok (final, rest)) : P final := by
  induction bound generalizing text state with
  | nil => cases done
  | cons _ bound ih =>
    unfold moreMembers at done
    split at done
    · cases done
    · split at done
      · cases done; exact start
      · split at done
        · split at done
          · cases done
          · split at done
            · obtain ⟨⟨name, after⟩, _, done⟩ := (bind_eq_ok_iff _ _ _).1 done
              obtain ⟨⟨next, after⟩, one, done⟩ := (bind_eq_ok_iff _ _ _).1 done
              exact ih _ _ (keeps _ _ _ _ _ start one) done
            · split at done <;> cases done
        · cases done

theorem members_keeps {field : FieldReader σ} {P : σ → Prop} (keeps : Keeps field P)
    (text rest : List Char) (state final : σ) (start : P state)
    (done : members field state text = .ok (final, rest)) : P final := by
  unfold members at done
  split at done
  · cases done
  · split at done
    · cases done; exact start
    · split at done
      · obtain ⟨⟨name, after⟩, _, done⟩ := (bind_eq_ok_iff _ _ _).1 done
        obtain ⟨⟨next, after⟩, one, done⟩ := (bind_eq_ok_iff _ _ _).1 done
        exact moreMembers_keeps keeps _ _ _ _ _ (keeps _ _ _ _ _ start one) done
      · cases done

theorem keptField_eq_ok {value : Reader Json} {keep : σ → String → Json → σ} {state next : σ}
    {name : String} {text rest : List Char}
    (done : keptField value keep state name text = .ok (next, rest)) :
    ∃ read before, value before = .ok (read, rest) ∧ next = keep state name read := by
  obtain ⟨before, _, done⟩ := (bind_eq_ok_iff _ _ _).1 done
  obtain ⟨⟨read, after⟩, one, done⟩ := (bind_eq_ok_iff _ _ _).1 done
  cases done
  exact ⟨read, before, one, rfl⟩

theorem whole_eq_ok {reader : Reader α} {text : List Char} {read : α}
    (done : whole reader text = .ok read) :
    ∃ rest, reader text = .ok (read, rest) ∧ skipBlank rest = [] := by
  obtain ⟨⟨found, rest⟩, one, done⟩ := (bind_eq_ok_iff _ _ _).1 done
  dsimp only at done
  split at done
  · rename_i blank
    cases done
    exact ⟨rest, one, blank⟩
  · cases done

end Read

theorem read_of_read? {text : String} {value : Json} (read : Json.read? text = some value) :
    Json.read text = .ok value := by
  unfold Json.read? at read
  cases found : Json.read text with
  | ok other => rw [found] at read; exact congrArg Except.ok (Option.some.inj read)
  | error failure => rw [found] at read; cases read

end NodeFlow.Json
