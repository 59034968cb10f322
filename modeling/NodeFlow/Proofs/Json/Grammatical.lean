import NodeFlow.Proofs.Json.Skimming

namespace NodeFlow.Json.Read

open Scan Skim

variable {α σ : Type}

-- Whatever the reader makes of it, it takes white space and one value.
def Grammatical (reader : Reader α) : Prop := ∀ given made rest, reader given = .ok (made, rest) →
  ∃ gap tree used, Blank gap ∧ Derives (.value tree) used ∧ given = gap ++ (used ++ rest)

def GrammaticalField (field : FieldReader σ) : Prop := ∀ state name given next rest,
  field state name given = .ok (next, rest) →
    ∃ between gap tree used, Blank between ∧ Blank gap ∧ Derives (.value tree) used ∧
      given = between ++ ':' :: (gap ++ (used ++ rest))

theorem moreItems_grammatical {item : Reader α} (grammatical : Grammatical item) {bound given rest : List Char}
    {read : List α} (done : moreItems item bound given = .ok (read, rest)) :
    ∃ more, Remainder .list more ∧ given = more ++ rest := by
  induction bound generalizing given read with
  | nil => cases done
  | cons _ bound ih =>
    unfold moreItems at done
    split at done
    · cases done
    · rename_i c tail skipped
      obtain ⟨after, trail, rfl⟩ := gap_of_skipBlank skipped
      split at done
      · rename_i closed
        cases done
        exact ⟨_, .closed trail, by simp [closed, Frame.closing]⟩
      · split at done
        · rename_i comma
          split at done
          · cases done
          · rename_i d behind skipped
            obtain ⟨lead, spaced, rfl⟩ := gap_of_skipBlank skipped
            have stands : Lead .list lead := spaced
            split at done
            · cases done
            · obtain ⟨⟨first, next⟩, one, done⟩ := (bind_eq_ok_iff _ _ _).1 done
              obtain ⟨⟨others, last⟩, two, done⟩ := (bind_eq_ok_iff _ _ _).1 done
              cases done
              obtain ⟨gap, tree, used, blank, derived, same⟩ := grammatical _ _ _ one
              obtain ⟨more, left, rfl⟩ := ih two
              rw [same, comma]
              exact ⟨_, remainder_of_comma trail stands blank derived left, by simp⟩
        · cases done

theorem items_grammatical {item : Reader α} (grammatical : Grammatical item) {given rest : List Char} {read : List α}
    (done : items item given = .ok (read, rest)) :
    ∃ tree used, Derives (.value tree) ('[' :: used) ∧ given = used ++ rest := by
  unfold items at done
  split at done
  · cases done
  · rename_i c tail skipped
    obtain ⟨lead, spaced, rfl⟩ := gap_of_skipBlank skipped
    have stands : Lead .list lead := spaced
    split at done
    · rename_i closed
      cases done
      obtain ⟨tree, value⟩ := bracket_of_blank .list spaced
      exact ⟨tree, _, value, by simp [closed, Frame.closing]⟩
    · obtain ⟨⟨first, next⟩, one, done⟩ := (bind_eq_ok_iff _ _ _).1 done
      obtain ⟨⟨others, last⟩, two, done⟩ := (bind_eq_ok_iff _ _ _).1 done
      cases done
      obtain ⟨gap, tree, used, blank, derived, same⟩ := grammatical _ _ _ one
      obtain ⟨more, left, rfl⟩ := moreItems_grammatical grammatical two
      obtain ⟨tree, value⟩ := bracket_of_remainder stands blank derived left
      exact ⟨tree, _, value, by rw [same]; simp⟩

section Members

variable {field : FieldReader σ} (grammatical : GrammaticalField field)

include grammatical in
theorem member_grammatical {before given behind rest : List Char} {name : String} {state next : σ}
    (blank : Blank before) (spelled : stringBody given = .ok (name, behind))
    (done : field state name behind = .ok (next, rest)) :
    ∃ lead gap tree used, Lead .object lead ∧ Blank gap ∧ Derives (.value tree) used ∧
      before ++ '"' :: given = lead ++ (gap ++ (used ++ rest)) := by
  obtain ⟨spelling, allowed, rfl⟩ := spelling_of_stringBody spelled
  obtain ⟨between, gap, tree, used, trail, clear, derived, rfl⟩ := grammatical _ _ _ _ _ done
  exact ⟨_, gap, tree, used, ⟨before, spelling, between, blank, allowed, trail, rfl⟩, clear, derived,
    by simp [closing, Spelling.quoted]⟩

include grammatical in
theorem moreMembers_grammatical {bound given rest : List Char} {state final : σ}
    (done : moreMembers field bound state given = .ok (final, rest)) :
    ∃ more, Remainder .object more ∧ given = more ++ rest := by
  induction bound generalizing given state with
  | nil => cases done
  | cons _ bound ih =>
    unfold moreMembers at done
    split at done
    · cases done
    · rename_i c tail skipped
      obtain ⟨after, trail, rfl⟩ := gap_of_skipBlank skipped
      split at done
      · rename_i closed
        cases done
        exact ⟨_, .closed trail, by simp [closed, Frame.closing]⟩
      · split at done
        · rename_i comma
          split at done
          · cases done
          · rename_i d behind skipped
            obtain ⟨before, blank, rfl⟩ := gap_of_skipBlank skipped
            split at done
            · rename_i quote
              obtain ⟨⟨name, next⟩, one, done⟩ := (bind_eq_ok_iff _ _ _).1 done
              obtain ⟨⟨state, last⟩, two, done⟩ := (bind_eq_ok_iff _ _ _).1 done
              obtain ⟨lead, gap, tree, used, stands, clear, derived, same⟩ :=
                member_grammatical grammatical blank one two
              obtain ⟨more, left, rfl⟩ := ih done
              rw [quote, same, comma]
              exact ⟨_, remainder_of_comma trail stands clear derived left, by simp⟩
            · split at done <;> cases done
        · cases done

include grammatical in
theorem members_grammatical {given rest : List Char} {start final : σ}
    (done : members field start given = .ok (final, rest)) :
    ∃ tree used, Derives (.value tree) ('{' :: used) ∧ given = used ++ rest := by
  unfold members at done
  split at done
  · cases done
  · rename_i c tail skipped
    obtain ⟨before, blank, rfl⟩ := gap_of_skipBlank skipped
    split at done
    · rename_i closed
      cases done
      obtain ⟨tree, value⟩ := bracket_of_blank .object blank
      exact ⟨tree, _, value, by simp [closed, Frame.closing]⟩
    · split at done
      · rename_i quote
        obtain ⟨⟨name, next⟩, one, done⟩ := (bind_eq_ok_iff _ _ _).1 done
        obtain ⟨⟨state, last⟩, two, done⟩ := (bind_eq_ok_iff _ _ _).1 done
        obtain ⟨lead, gap, tree, used, stands, clear, derived, same⟩ := member_grammatical grammatical blank one two
        obtain ⟨more, left, rfl⟩ := moreMembers_grammatical grammatical done
        obtain ⟨tree, value⟩ := bracket_of_remainder stands clear derived left
        exact ⟨tree, _, value, by rw [quote, same]; simp⟩
      · cases done

end Members

theorem keptField_grammatical {value : Reader Json} (grammatical : Grammatical value) (keep : σ → String → Json → σ) :
    GrammaticalField (keptField value keep) := by
  intro state name given next rest done
  obtain ⟨behind, one, done⟩ := (bind_eq_ok_iff _ _ _).1 done
  obtain ⟨⟨read, after⟩, two, done⟩ := (bind_eq_ok_iff _ _ _).1 done
  cases done
  obtain ⟨between, trail, rfl⟩ := gap_of_colon one
  obtain ⟨gap, tree, used, blank, derived, rfl⟩ := grammatical _ _ _ two
  exact ⟨between, gap, tree, used, trail, blank, derived, rfl⟩

theorem grammatical_of_skipBlank {given rest tail : List Char} {c : Char} (skipped : skipBlank given = c :: tail)
    (value : ∃ tree used, Derives (.value tree) used ∧ c :: tail = used ++ rest) :
    ∃ gap tree used, Blank gap ∧ Derives (.value tree) used ∧ given = gap ++ (used ++ rest) := by
  obtain ⟨gap, blank, rfl⟩ := gap_of_skipBlank skipped
  obtain ⟨tree, used, derived, same⟩ := value
  exact ⟨gap, tree, used, blank, derived, by rw [same]⟩

theorem derives_of_number {given rest : List Char} {read : Number} (done : Scan.number given = .ok (read, rest)) :
    ∃ tree used, Derives (.value tree) used ∧ given = used ++ rest := by
  obtain ⟨⟨numeral, behind⟩, one, made⟩ := (bind_eq_ok_iff _ _ _).1 done
  obtain ⟨used, rfl, written⟩ := written_of_numeral one
  dsimp only at made
  split at made
  · cases made
    exact ⟨_, used, .number written, rfl⟩
  · cases made

theorem derives_of_stringBody {given rest : List Char} {read : String} (done : stringBody given = .ok (read, rest)) :
    ∃ tree used, Derives (.value tree) used ∧ '"' :: given = used ++ rest := by
  obtain ⟨spelling, allowed, rfl⟩ := spelling_of_stringBody done
  exact ⟨_, _, .string allowed, by simp [closing, Spelling.quoted]⟩

-- One level of nesting; what is inside has a smaller budget.
theorem value_grammatical_of {budget : Nat} (inner : ∀ fewer, budget = fewer + 1 → Grammatical (value fewer)) :
    Grammatical (value budget) := by
  intro given made rest done
  unfold value at done
  split at done
  · cases done
  · rename_i c tail skipped
    refine grammatical_of_skipBlank skipped ?_
    split at done
    · rename_i same
      obtain ⟨_, one, done⟩ := (bind_eq_ok_iff _ _ _).1 done
      cases done
      exact ⟨_, _, .null, by rw [same, word_eq_ok one]; rfl⟩
    split at done
    · rename_i same
      obtain ⟨_, one, done⟩ := (bind_eq_ok_iff _ _ _).1 done
      cases done
      exact ⟨_, _, .true, by rw [same, word_eq_ok one]; rfl⟩
    split at done
    · rename_i same
      obtain ⟨_, one, done⟩ := (bind_eq_ok_iff _ _ _).1 done
      cases done
      exact ⟨_, _, .false, by rw [same, word_eq_ok one]; rfl⟩
    split at done
    · obtain ⟨⟨number, _⟩, one, done⟩ := (bind_eq_ok_iff _ _ _).1 done
      cases done
      exact derives_of_number one
    split at done
    · rename_i quote
      obtain ⟨⟨text, _⟩, one, done⟩ := (bind_eq_ok_iff _ _ _).1 done
      cases done
      rw [quote]
      exact derives_of_stringBody one
    split at done
    · rename_i bracket
      split at done
      · cases done
      · obtain ⟨⟨read, _⟩, one, done⟩ := (bind_eq_ok_iff _ _ _).1 done
        cases done
        obtain ⟨tree, used, derived, rfl⟩ := items_grammatical (inner _ rfl) one
        exact ⟨tree, _, derived, by rw [bracket]; rfl⟩
    split at done
    · rename_i bracket
      split at done
      · cases done
      · obtain ⟨⟨read, _⟩, one, done⟩ := (bind_eq_ok_iff _ _ _).1 done
        cases done
        obtain ⟨tree, used, derived, rfl⟩ := members_grammatical (keptField_grammatical (inner _ rfl) _) one
        exact ⟨tree, _, derived, by rw [bracket]; rfl⟩
    · cases done

theorem value_grammatical (budget : Nat) : Grammatical (value budget) := by
  induction budget with
  | zero => exact value_grammatical_of fun fewer none => absurd none (Nat.zero_ne_add_one fewer)
  | succ budget ih => exact value_grammatical_of fun fewer same => Nat.succ.inj same ▸ ih

theorem written_of_whole {reader : Reader α} (grammatical : Grammatical reader) {text : List Char} {made : α}
    (done : whole reader text = .ok made) : ∃ tree, Written tree text := by
  obtain ⟨rest, read, ended⟩ := whole_eq_ok done
  obtain ⟨gap, tree, used, blank, derived, rfl⟩ := grammatical _ _ _ read
  obtain ⟨after, trail, same⟩ := gap_of_skipBlank ended
  rw [List.append_nil] at same
  exact ⟨tree, same ▸ .element blank derived trail⟩

end NodeFlow.Json.Read
