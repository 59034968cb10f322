import NodeFlow.Proofs.Graph.Loaded
import NodeFlow.Proofs.Json.Grammatical

namespace NodeFlow.Graph.Document

open Json Json.Scan Json.Read Json.Skim

variable {α σ : Type}

-- A reader whose first character is read before.
def GrammaticalAfter (reader : Char → Reader α) : Prop := ∀ c given made rest,
  reader c given = .ok (made, rest) → ∃ tree used, Derives (.value tree) used ∧ c :: given = used ++ rest

theorem optional_grammatical {reader : Char → Reader α} (grammatical : GrammaticalAfter reader) :
    Grammatical (optional reader) := by
  intro given made rest done
  unfold optional at done
  split at done
  · cases done
  · rename_i c tail skipped
    refine grammatical_of_skipBlank skipped ?_
    split at done
    · rename_i same
      obtain ⟨_, one, done⟩ := (bind_eq_ok_iff _ _ _).1 done
      cases done
      exact ⟨_, _, .null, by rw [same, word_eq_ok one]; rfl⟩
    · obtain ⟨⟨found, _⟩, one, done⟩ := (bind_eq_ok_iff _ _ _).1 done
      cases done
      exact grammatical _ _ _ _ one

theorem optionalText_grammatical : Grammatical optionalText := by
  refine optional_grammatical fun c given made rest done => ?_
  split at done
  · rename_i quote
    rw [quote]
    exact derives_of_stringBody done
  · exact absurd done (mismatch_ne_ok _ _ _ _)

theorem field_of_once {seen : Option α} {name : String} {reader : Reader α} (grammatical : Grammatical reader)
    {given rest : List Char} {made : α} (done : once seen name reader given = .ok (made, rest)) :
    ∃ between gap tree used, Blank between ∧ Blank gap ∧ Derives (.value tree) used ∧
      given = between ++ ':' :: (gap ++ (used ++ rest)) := by
  unfold once at done
  split at done
  · unfold repeated at done
    split at done <;> cases done
  · obtain ⟨behind, one, read⟩ := (bind_eq_ok_iff _ _ _).1 done
    obtain ⟨between, trail, rfl⟩ := gap_of_colon one
    obtain ⟨gap, tree, used, blank, derived, rfl⟩ := grammatical _ _ _ read
    exact ⟨between, gap, tree, used, trail, blank, derived, rfl⟩

theorem optionalInputs_grammatical : Grammatical optionalInputs := by
  refine optional_grammatical fun c given made rest done => ?_
  split at done
  · rename_i brace
    obtain ⟨tree, used, derived, rfl⟩ := members_grammatical (keptField_grammatical (value_grammatical _) _) done
    exact ⟨tree, _, derived, by rw [brace]; rfl⟩
  · exact absurd done (mismatch_ne_ok _ _ _ _)

theorem titleField_grammatical : GrammaticalField titleField := by
  intro seen name given next rest done
  unfold titleField at done
  split at done
  · obtain ⟨⟨title, _⟩, one, done⟩ := (bind_eq_ok_iff _ _ _).1 done
    cases done
    exact field_of_once optionalText_grammatical one
  · obtain ⟨behind, one, done⟩ := (bind_eq_ok_iff _ _ _).1 done
    obtain ⟨_, two, done⟩ := (bind_eq_ok_iff _ _ _).1 done
    cases done
    obtain ⟨between, trail, rfl⟩ := gap_of_colon one
    obtain ⟨gap, tree, used, blank, derived, rfl⟩ := derives_of_value two
    exact ⟨between, gap, tree, used, trail, blank, derived, rfl⟩

theorem gap_of_endOfList {given rest : List Char} (done : endOfList given = .ok rest) :
    ∃ gap, Blank gap ∧ given = gap ++ ']' :: rest := by
  unfold endOfList at done
  split at done
  · cases done
  · rename_i c tail skipped
    obtain ⟨gap, blank, rfl⟩ := gap_of_skipBlank skipped
    split at done
    · rename_i closed
      cases done
      exact ⟨gap, blank, by rw [closed]⟩
    · split at done
      · split at done <;> cases done
      · cases done

theorem listedTitle_grammatical {given rest : List Char} {title : Option String}
    (done : listedTitle given = .ok (title, rest)) :
    ∃ tree used, Derives (.value tree) ('[' :: used) ∧ given = used ++ rest := by
  unfold listedTitle at done
  split at done
  · cases done
  · rename_i c tail skipped
    obtain ⟨lead, spaced, rfl⟩ := gap_of_skipBlank skipped
    split at done
    · rename_i closed
      cases done
      obtain ⟨tree, derived⟩ := bracket_of_blank .list spaced
      exact ⟨tree, _, derived, by simp [closed, Frame.closing]⟩
    · obtain ⟨⟨found, _⟩, one, done⟩ := (bind_eq_ok_iff _ _ _).1 done
      obtain ⟨_, two, done⟩ := (bind_eq_ok_iff _ _ _).1 done
      cases done
      obtain ⟨gap, tree, used, blank, derived, same⟩ := optionalText_grammatical _ _ _ one
      obtain ⟨after, trail, rfl⟩ := gap_of_endOfList two
      have stands : Lead .list lead := spaced
      obtain ⟨tree, derived⟩ := bracket_of_remainder stands blank derived (.closed trail)
      exact ⟨tree, _, derived, by rw [same]; simp [Frame.closing]⟩

theorem optionalMetadata_grammatical : Grammatical optionalMetadata := by
  refine optional_grammatical fun c given made rest done => ?_
  split at done
  · rename_i brace
    obtain ⟨⟨title, _⟩, one, done⟩ := (bind_eq_ok_iff _ _ _).1 done
    cases done
    obtain ⟨tree, used, derived, rfl⟩ := members_grammatical titleField_grammatical one
    exact ⟨tree, _, derived, by rw [brace]; rfl⟩
  · split at done
    · rename_i bracket
      obtain ⟨⟨title, _⟩, one, done⟩ := (bind_eq_ok_iff _ _ _).1 done
      cases done
      obtain ⟨tree, used, derived, rfl⟩ := listedTitle_grammatical one
      exact ⟨tree, _, derived, by rw [bracket]; rfl⟩
    · exact absurd done (mismatch_ne_ok _ _ _ _)

theorem recordField_grammatical : GrammaticalField recordField := by
  intro draft name given next rest done
  unfold recordField at done
  split at done
  · obtain ⟨⟨found, _⟩, one, done⟩ := (bind_eq_ok_iff _ _ _).1 done
    cases done
    exact field_of_once optionalText_grammatical one
  split at done
  · obtain ⟨⟨found, _⟩, one, done⟩ := (bind_eq_ok_iff _ _ _).1 done
    cases done
    exact field_of_once optionalInputs_grammatical one
  split at done
  · obtain ⟨⟨found, _⟩, one, done⟩ := (bind_eq_ok_iff _ _ _).1 done
    cases done
    exact field_of_once optionalMetadata_grammatical one
  · exact keptField_grammatical (value_grammatical _) _ _ _ _ _ _ done

theorem braced_grammatical {field : FieldReader σ} (grammatical : GrammaticalField field) (wanted : Wanted)
    (start : σ) : Grammatical (braced wanted field start) := by
  intro given made rest done
  unfold braced at done
  split at done
  · cases done
  · rename_i c tail skipped
    refine grammatical_of_skipBlank skipped ?_
    split at done
    · rename_i brace
      obtain ⟨tree, used, derived, rfl⟩ := members_grammatical grammatical done
      exact ⟨tree, _, derived, by rw [brace]; rfl⟩
    · exact absurd done (mismatch_ne_ok _ _ _ _)

theorem nodeField_grammatical : GrammaticalField nodeField := by
  intro nodes id given next rest done
  obtain ⟨behind, one, done⟩ := (bind_eq_ok_iff _ _ _).1 done
  obtain ⟨⟨node, _⟩, two, done⟩ := (bind_eq_ok_iff _ _ _).1 done
  cases done
  obtain ⟨⟨draft, _⟩, read, two⟩ := (bind_eq_ok_iff _ _ _).1 two
  cases two
  obtain ⟨between, trail, rfl⟩ := gap_of_colon one
  obtain ⟨gap, tree, used, blank, derived, rfl⟩ := braced_grammatical recordField_grammatical _ _ _ _ _ read
  exact ⟨between, gap, tree, used, trail, blank, derived, rfl⟩

theorem workflow_grammatical : Grammatical workflow := by
  intro given made rest done
  obtain ⟨⟨nodes, _⟩, one, done⟩ := (bind_eq_ok_iff _ _ _).1 done
  cases done
  exact braced_grammatical nodeField_grammatical _ _ _ _ _ one

theorem written_of_workflow {text : List Char} {graph : Graph} (done : whole workflow text = .ok graph) :
    ∃ tree, Written tree text := written_of_whole workflow_grammatical done

end NodeFlow.Graph.Document
