import NodeFlow.Proofs.Json.Brackets

namespace NodeFlow.Json.Skim

open Scan Read

section Sound

variable {text rest : List Char}

theorem lead_of_entry {frame : Frame} (done : entry frame text = .ok rest) :
    ∃ lead, Lead frame lead ∧ text = lead ++ rest := by
  cases frame with
  | list =>
    cases done
    exact ⟨[], Blank.nil, rfl⟩
  | object =>
    unfold entry at done
    dsimp only at done
    split at done
    · cases done
    · rename_i c tail skipped
      obtain ⟨before, blank, rfl⟩ := gap_of_skipBlank skipped
      split at done
      · rename_i quote
        obtain ⟨behind, one, colon⟩ := (bind_eq_ok_iff _ _ _).1 done
        obtain ⟨name, allowed, rfl⟩ := spelling_of_skim one
        obtain ⟨between, gap, rfl⟩ := gap_of_colon colon
        refine ⟨_, ⟨before, name, between, blank, allowed, gap, rfl⟩, ?_⟩
        simp [closing, Spelling.quoted, quote]
      · cases done

theorem value_of_scalar {c : Char} {tail : List Char} (done : scalar c tail = .ok rest) :
    ∃ tree used, Derives (.value tree) used ∧ c :: tail = used ++ rest := by
  unfold scalar at done
  split at done
  · rename_i same
    exact ⟨_, _, .null, by rw [same, word_eq_ok done]; rfl⟩
  · split at done
    · rename_i same
      exact ⟨_, _, .true, by rw [same, word_eq_ok done]; rfl⟩
    · split at done
      · rename_i same
        exact ⟨_, _, .false, by rw [same, word_eq_ok done]; rfl⟩
      · split at done
        · obtain ⟨⟨numeral, after⟩, one, made⟩ := (bind_eq_ok_iff _ _ _).1 done
          cases made
          obtain ⟨used, same, written⟩ := written_of_numeral one
          exact ⟨_, used, .number written, same⟩
        · split at done
          · rename_i quote
            obtain ⟨spelling, allowed, rfl⟩ := spelling_of_skim done
            exact ⟨_, _, .string allowed, by simp [closing, Spelling.quoted, quote]⟩
          · cases done

def Closes : List Frame → List Char → Prop
  | [], used => used = []
  | frame :: frames, used => ∃ more behind, Remainder frame more ∧ Closes frames behind ∧ used = more ++ behind

-- What a text is that is passed over from a place in it up to the rest.
def Passed : State → List Char → Prop
  | ⟨.after, frames, text⟩, rest => ∃ used, Closes frames used ∧ text = used ++ rest
  | ⟨.value, frames, text⟩, rest => ∃ gap tree value used, Blank gap ∧ Derives (.value tree) value ∧
      Closes frames used ∧ text = gap ++ (value ++ (used ++ rest))

theorem passed_of_opened (frame : Frame) {frames : List Frame} {state : State}
    (done : opened frames frame text = .ok state) (onward : Passed state rest) :
    ∃ tree value used, Derives (.value tree) value ∧ Closes frames used ∧
      frame.opening :: text = value ++ (used ++ rest) := by
  unfold opened at done
  split at done
  · cases done
  · rename_i c tail skipped
    obtain ⟨before, blank, rfl⟩ := gap_of_skipBlank skipped
    split at done
    · rename_i closed
      cases done
      obtain ⟨used, closes, rfl⟩ := onward
      obtain ⟨tree, value⟩ := bracket_of_blank frame blank
      exact ⟨tree, _, used, value, closes, by simp [closed]⟩
    · obtain ⟨behind, one, made⟩ := (bind_eq_ok_iff _ _ _).1 done
      cases made
      obtain ⟨lead, stands, same⟩ := lead_of_entry one
      obtain ⟨gap, inner, item, used, clear, inside, ⟨more, behind, left, closes, rfl⟩, rfl⟩ := onward
      obtain ⟨tree, value⟩ := bracket_of_remainder (stands.blank_append blank) clear inside left
      exact ⟨tree, _, behind, value, closes, by rw [same]; simp⟩

theorem passed_of_atValue {frames : List Frame} {state : State} (done : atValue frames text = .ok state)
    (onward : Passed state rest) : Passed ⟨.value, frames, text⟩ rest := by
  unfold atValue at done
  split at done
  · cases done
  · rename_i c tail skipped
    obtain ⟨gap, blank, rfl⟩ := gap_of_skipBlank skipped
    suffices here : ∃ tree value used, Derives (.value tree) value ∧ Closes frames used ∧
        c :: tail = value ++ (used ++ rest) by
      obtain ⟨tree, value, used, derived, closes, same⟩ := here
      exact ⟨gap, tree, value, used, blank, derived, closes, by rw [same]⟩
    split at done
    · rename_i bracket
      rw [bracket]
      exact passed_of_opened .list done onward
    · split at done
      · rename_i bracket
        rw [bracket]
        exact passed_of_opened .object done onward
      · obtain ⟨behind, one, made⟩ := (bind_eq_ok_iff _ _ _).1 done
        cases made
        obtain ⟨tree, value, derived, same⟩ := value_of_scalar one
        obtain ⟨used, closes, rfl⟩ := onward
        exact ⟨tree, value, used, derived, closes, same⟩

theorem passed_of_afterValue {frame : Frame} {frames : List Frame} {state : State}
    (done : afterValue frame frames text = .ok state) (onward : Passed state rest) :
    Passed ⟨.after, frame :: frames, text⟩ rest := by
  unfold afterValue at done
  split at done
  · cases done
  · rename_i c tail skipped
    obtain ⟨gap, blank, rfl⟩ := gap_of_skipBlank skipped
    split at done
    · rename_i comma
      obtain ⟨behind, one, made⟩ := (bind_eq_ok_iff _ _ _).1 done
      cases made
      obtain ⟨lead, stands, rfl⟩ := lead_of_entry one
      obtain ⟨between, tree, value, used, clear, derived, ⟨more, behind, left, closes, rfl⟩, rfl⟩ := onward
      exact ⟨_, ⟨_, behind, remainder_of_comma blank stands clear derived left, closes, rfl⟩, by simp [comma]⟩
    · split at done
      · rename_i closed
        cases done
        obtain ⟨used, closes, rfl⟩ := onward
        exact ⟨_, ⟨_, used, .closed blank, closes, rfl⟩, by simp [closed]⟩
      · cases done

-- Each step takes away what the text had to close or to begin with.
theorem passed_of_run {fuel : Nat} {state : State} (done : run fuel state = .ok rest) : Passed state rest := by
  induction fuel generalizing state with
  | zero =>
    obtain ⟨place, frames, text⟩ := state
    cases place with
    | value => cases done
    | after =>
      cases frames with
      | cons frame frames => cases done
      | nil =>
        cases done
        exact ⟨[], rfl, rfl⟩
  | succ fuel ih =>
    obtain ⟨place, frames, text⟩ := state
    cases place with
    | value =>
      obtain ⟨next, one, done⟩ := (bind_eq_ok_iff _ _ _).1 done
      exact passed_of_atValue one (ih done)
    | after =>
      cases frames with
      | cons frame frames =>
        obtain ⟨next, one, done⟩ := (bind_eq_ok_iff _ _ _).1 done
        exact passed_of_afterValue one (ih done)
      | nil =>
        cases done
        exact ⟨[], rfl, rfl⟩

theorem derives_of_value (done : Skim.value text = .ok rest) :
    ∃ gap tree used, Blank gap ∧ Derives (.value tree) used ∧ text = gap ++ (used ++ rest) := by
  obtain ⟨gap, tree, value, used, blank, derived, rfl, same⟩ := passed_of_run done
  exact ⟨gap, tree, value, blank, derived, same⟩

end Sound

section Complete

def Leads (first last : State) : Prop :=
  ∃ steps, steps + last.rest.length ≤ first.rest.length ∧ ∀ fuel, run (fuel + steps) first = run fuel last

theorem Leads.trans {first middle last : State} (one : Leads first middle) (two : Leads middle last) :
    Leads first last := by
  obtain ⟨few, shorter, runs⟩ := one
  obtain ⟨more, shortest, onward⟩ := two
  refine ⟨more + few, by omega, fun fuel => ?_⟩
  rw [← Nat.add_assoc, runs, onward]

variable {text rest : List Char} {frame : Frame} {frames : List Frame}

theorem leads_of_atValue {next : State} (done : atValue frames text = .ok next)
    (shorter : next.rest.length < text.length) : Leads ⟨.value, frames, text⟩ next := by
  refine ⟨1, by rw [Nat.add_comm]; exact shorter, fun fuel => ?_⟩
  show (atValue frames text >>= run fuel) = _
  rw [done]
  rfl

theorem leads_of_afterValue {next : State} (done : afterValue frame frames text = .ok next)
    (shorter : next.rest.length < text.length) : Leads ⟨.after, frame :: frames, text⟩ next := by
  refine ⟨1, by rw [Nat.add_comm]; exact shorter, fun fuel => ?_⟩
  show (afterValue frame frames text >>= run fuel) = _
  rw [done]
  rfl

-- An item is entered by what stands before its value, and it does not close the bracket.
def Enters (frame : Frame) (given : List Char) (onward : List Char → Prop) : Prop :=
  (∃ c tail, skipBlank given = c :: tail ∧ c ≠ frame.closing) ∧
    ∃ lead, entry frame given = .ok lead ∧ lead.length ≤ given.length ∧ onward lead

def SkimsValue (text : List Char) : Prop := ∀ given frames rest, Stops rest → skipBlank given = text ++ rest →
  Leads ⟨.value, frames, given⟩ ⟨.after, frames, rest⟩

def SkimsItem (frame : Frame) (text : List Char) : Prop := ∀ given rest, Stops rest →
  skipBlank given = skipBlank (text ++ rest) → Enters frame given fun lead =>
    ∃ after, Blank after ∧ ∀ frames, Leads ⟨.value, frames, lead⟩ ⟨.after, frames, after ++ rest⟩

def SkimsItems (frame : Frame) (text : List Char) : Prop := ∀ given rest,
  skipBlank given = skipBlank (text ++ frame.closing :: rest) → Enters frame given fun lead =>
    ∀ frames, Leads ⟨.value, frame :: frames, lead⟩ ⟨.after, frames, rest⟩

def Skims : Part → List Char → Prop
  | .value _, text => SkimsValue text
  | .element _, text => SkimsItem .list text
  | .elements _, text => SkimsItems .list text
  | .member _ _, text => SkimsItem .object text
  | .members _, text => SkimsItems .object text

theorem skimsValue_of_scalar {c : Char} {tail : List Char} (notList : c ≠ '[') (notObject : c ≠ '{')
    (read : ∀ rest, Stops rest → scalar c (tail ++ rest) = .ok rest) : SkimsValue (c :: tail) := by
  intro given frames rest stops skipped
  have shorter := length_skipBlank_le given
  refine leads_of_atValue ?_ ?_
  · simp only [atValue, skipped, List.cons_append, if_neg notList, if_neg notObject, read rest stops]
    rfl
  · rw [skipped] at shorter
    simp only [List.length_append, List.length_cons] at shorter ⊢
    omega

theorem skimsValue_number {numeral : Numeral} (written : WrittenNumeral numeral text) : SkimsValue text := by
  obtain ⟨c, tail, rfl, head⟩ := written.head
  have other := fun d => ne_of_numeral (d := d) head
  refine skimsValue_of_scalar (other '[' (by simp)) (other '{' (by simp)) fun rest stops => ?_
  have read := numeral_of_written .invalidNumber written stops
  rw [List.cons_append] at read
  unfold scalar
  rw [if_neg (other 'n' (by simp)), if_neg (other 't' (by simp)), if_neg (other 'f' (by simp)),
    if_pos (by simpa using head), read]
  rfl

theorem skimsValue_string {spelling : Spelling} (allowed : spelling.Allowed) : SkimsValue spelling.quoted := by
  refine skimsValue_of_scalar (by simp) (by simp) fun rest _ => ?_
  have read := skim_of_spelling allowed (closing spelling rest) rest (length_lt_closing spelling rest)
  simpa [scalar, closing] using read

theorem atValue_of_opening {given tail : List Char} (skipped : skipBlank given = frame.opening :: tail) :
    atValue frames given = opened frames frame tail := by
  unfold atValue
  rw [skipped]
  cases frame <;> simp [Frame.opening]

theorem skimsValue_of_blank {gap : List Char} (blank : Blank gap) (frame : Frame) :
    SkimsValue (frame.opening :: (gap ++ [frame.closing])) := by
  intro given frames rest stops skipped
  have shorter := length_skipBlank_le given
  rw [List.cons_append, List.append_assoc, List.singleton_append] at skipped
  have close : isBlank frame.closing = false := by cases frame <;> rfl
  refine leads_of_atValue ?_ ?_
  · rw [atValue_of_opening skipped, opened, skipBlank_blank blank, skipBlank_cons _ close]
    exact if_pos rfl
  · rw [skipped] at shorter
    simp only [List.length_append, List.length_cons] at shorter ⊢
    omega

theorem skimsValue_of_items (frame : Frame) (items : SkimsItems frame text) :
    SkimsValue (frame.opening :: (text ++ [frame.closing])) := by
  intro given frames rest stops skipped
  have shorter := length_skipBlank_le given
  rw [List.cons_append, List.append_assoc, List.singleton_append] at skipped
  have inner := length_skipBlank_le (text ++ frame.closing :: rest)
  obtain ⟨⟨c, tail, head, other⟩, lead, entered, fewer, onward⟩ := items _ rest (skipBlank_skipBlank _)
  rw [skipBlank_skipBlank] at head
  have first : Leads ⟨.value, frames, given⟩ ⟨.value, frame :: frames, lead⟩ := by
    refine leads_of_atValue ?_ ?_
    · rw [head] at entered
      rw [atValue_of_opening skipped, opened, head]
      simp only [if_neg other, entered]
      rfl
    · rw [skipped] at shorter
      simp only [List.length_cons] at shorter ⊢
      omega
  exact first.trans (onward frames)

theorem skimsItem_element {before after : List Char} {tree : Tree} (lead : Blank before)
    (derived : Derives (.value tree) text) (value : SkimsValue text) (trail : Blank after) :
    SkimsItem .list (before ++ (text ++ after)) := by
  intro given rest stops skipped
  rw [List.append_assoc, skipBlank_blank lead, List.append_assoc, skipBlank_value derived] at skipped
  obtain ⟨c, tail, same, opens⟩ := value_head derived
  refine ⟨⟨c, _, by rw [skipped, same]; rfl, opens.ne_closing .list⟩, given, rfl, Nat.le_refl _, after, trail, ?_⟩
  exact fun frames => value given frames _ (stops_append trail.isBlank stops) skipped

theorem skimsItem_member {name : Spelling} {before between : List Char} (lead : Blank before)
    (allowed : name.Allowed) (gap : Blank between) (element : SkimsItem .list text) :
    SkimsItem .object (before ++ (name.quoted ++ (between ++ ':' :: text))) := by
  intro given rest stops skipped
  obtain ⟨_, behind, entered, _, after, trail, onward⟩ := element (text ++ rest) rest stops rfl
  cases entered
  have written : before ++ (name.quoted ++ (between ++ ':' :: text)) ++ rest =
      before ++ ('"' :: closing name (between ++ ':' :: (text ++ rest))) := by
    simp [closing, Spelling.quoted]
  rw [written, skipBlank_blank lead, skipBlank_cons _ rfl] at skipped
  have colon := colon_of_skipBlank (skipBlank_blank gap (':' :: (text ++ rest)))
  have shorter := length_skipBlank_le given
  refine ⟨⟨'"', _, skipped, by simp [Frame.closing]⟩, text ++ rest, ?_, ?_, after, trail, onward⟩
  · simp only [entry, skipped, if_true]
    rw [skim_of_spelling allowed _ _ (length_lt_closing name _)]
    exact colon
  · rw [skipped] at shorter
    simp only [closing, List.length_append, List.length_cons] at shorter ⊢
    omega

theorem skimsItems_last (item : SkimsItem frame text) : SkimsItems frame text := by
  intro given rest skipped
  have stops : Stops (frame.closing :: rest) := stops_cons rest (by cases frame <;> simp [Frame.closing])
  have visible : isBlank frame.closing = false := by cases frame <;> rfl
  have noComma : frame.closing ≠ ',' := by cases frame <;> simp [Frame.closing]
  obtain ⟨head, lead, entered, fewer, after, trail, onward⟩ := item given _ stops skipped
  refine ⟨head, lead, entered, fewer, fun frames => (onward (frame :: frames)).trans (leads_of_afterValue ?_ ?_)⟩
  · rw [afterValue, skipBlank_mark trail visible]
    simp only [if_neg noComma, if_true]
  · simp only [List.length_append, List.length_cons]
    omega

theorem skimsItems_more {others : List Char} (item : SkimsItem frame text) (more : SkimsItems frame others) :
    SkimsItems frame (text ++ ',' :: others) := by
  intro given rest skipped
  have stops : Stops (',' :: (others ++ frame.closing :: rest)) := stops_cons _ (by simp)
  rw [List.append_assoc, List.cons_append] at skipped
  obtain ⟨head, lead, entered, fewer, after, trail, onward⟩ := item given _ stops skipped
  obtain ⟨_, next, opened, shorter, behind⟩ := more (others ++ frame.closing :: rest) rest rfl
  refine ⟨head, lead, entered, fewer, fun frames => (onward (frame :: frames)).trans ?_⟩
  have comma : Leads ⟨.after, frame :: frames, after ++ ',' :: (others ++ frame.closing :: rest)⟩
      ⟨.value, frame :: frames, next⟩ := by
    refine leads_of_afterValue ?_ ?_
    · rw [afterValue, skipBlank_mark trail rfl]
      simp only [if_true, opened]
      rfl
    · simp only [List.length_append, List.length_cons] at shorter ⊢
      omega
  exact comma.trans (behind frames)

-- By induction on the derivation: each rule of the grammar is a few steps of a run.
theorem skims_of_derives {part : Part} (derived : Derives part text) : Skims part text := by
  induction derived with
  | null => exact skimsValue_of_scalar (by simp) (by simp) fun rest _ => rfl
  | true => exact skimsValue_of_scalar (by simp) (by simp) fun rest _ => rfl
  | false => exact skimsValue_of_scalar (by simp) (by simp) fun rest _ => rfl
  | number written => exact skimsValue_number written
  | string allowed => exact skimsValue_string allowed
  | emptyArray blank => exact skimsValue_of_blank blank .list
  | array _ items => exact skimsValue_of_items .list items
  | emptyObject blank => exact skimsValue_of_blank blank .object
  | object _ members => exact skimsValue_of_items .object members
  | element lead derived trail value => exact skimsItem_element lead derived value trail
  | lastElement _ item => exact skimsItems_last item
  | moreElements _ _ item more => exact skimsItems_more item more
  | member lead allowed gap _ element => exact skimsItem_member lead allowed gap element
  | lastMember _ entry => exact skimsItems_last entry
  | moreMembers _ _ entry more => exact skimsItems_more entry more

theorem value_of_derives {given : List Char} {tree : Tree} (derived : Derives (.value tree) text)
    (stops : Stops rest) (skipped : skipBlank given = text ++ rest) : Skim.value given = .ok rest := by
  have skims : SkimsValue text := skims_of_derives derived
  obtain ⟨steps, fewer, runs⟩ := skims given [] rest stops skipped
  have enough : given.length + 1 = (given.length + 1 - steps) + steps := by
    simp only at fewer
    omega
  rw [Skim.value, enough, runs]
  cases given.length + 1 - steps <;> rfl

end Complete

theorem accepts_iff_written (text : List Char) : accepts text = true ↔ ∃ tree, Written tree text := by
  constructor
  · intro accepted
    unfold accepts at accepted
    split at accepted
    · rename_i rest done
      obtain ⟨gap, tree, used, blank, derived, rfl⟩ := derives_of_value done
      obtain ⟨after, trail, same⟩ := gap_of_skipBlank (List.isEmpty_iff.1 accepted)
      rw [List.append_nil] at same
      exact ⟨tree, same ▸ .element blank derived trail⟩
    · cases accepted
  · rintro ⟨tree, written⟩
    cases written with
    | element lead derived trail =>
      rename_i before text after
      have stops : Stops after := by simpa using stops_append trail.isBlank stops_nil
      have skipped : skipBlank (before ++ (text ++ after)) = text ++ after := by
        rw [skipBlank_blank lead, skipBlank_value derived]
      have ended : skipBlank after = [] := by simpa [skipBlank] using skipBlank_blank trail []
      simp [accepts, value_of_derives derived stops skipped, ended]

end NodeFlow.Json.Skim
