import NodeFlow.Proofs.Json.Grammatical

namespace NodeFlow.Json

section Meanings

def gather {σ : Type} (step : σ → String → Tree → Option σ) : σ → List (Spelling × Tree) → Option σ
  | state, [] => some state
  | state, (name, tree) :: rest => do
    let text ← name.text?
    let next ← step state text tree
    gather step next rest

def Tree.json? : Nat → Tree → Option Json
  | _, .null => some .null
  | _, .bool value => some (.bool value)
  | _, .number numeral => numeral.number?.map .number
  | _, .string spelling => spelling.text?.map .string
  | 0, .array _ => none
  | budget + 1, .array items => (items.mapM (Tree.json? budget)).map .array
  | 0, .object _ => none
  | budget + 1, .object members =>
    (gather (fun done name tree => (Tree.json? budget tree).map fun value => insertMember name value done) []
      members).map .object

end Meanings

open Scan Read
open Skim (Frame)

section Parts

variable {text : List Char}

-- What follows the first item of a bracket: nothing, or a comma and further items.
def Further (part : Part) (last : Prop) (tail : List Char) : Prop :=
  (last ∧ tail = []) ∨ ∃ others, tail = ',' :: others ∧ Derives part others

theorem elements_cases {trees : List Tree} (items : Derives (.elements trees) text) :
    ∃ tree more before value after tail, trees = tree :: more ∧ Blank before ∧ Derives (.value tree) value ∧
      Blank after ∧ Further (.elements more) (more = []) tail ∧ text = before ++ (value ++ (after ++ tail)) := by
  cases items with
  | lastElement item =>
    cases item with
    | element lead value trail => exact ⟨_, [], _, _, _, [], rfl, lead, value, trail, .inl ⟨rfl, rfl⟩, by simp⟩
  | moreElements item more =>
    cases item with
    | element lead value trail =>
      exact ⟨_, _, _, _, _, _, rfl, lead, value, trail, .inr ⟨_, rfl, more⟩, by simp⟩

theorem members_cases {entries : List (Spelling × Tree)} (items : Derives (.members entries) text) :
    ∃ name tree more before between gap value after tail, entries = (name, tree) :: more ∧ Blank before ∧
      name.Allowed ∧ Blank between ∧ Blank gap ∧ Derives (.value tree) value ∧ Blank after ∧
      Further (.members more) (more = []) tail ∧
      text = before ++ '"' :: closing name (between ++ ':' :: (gap ++ (value ++ (after ++ tail)))) := by
  cases items with
  | lastMember entry =>
    cases entry with
    | member lead allowed between item =>
      cases item with
      | element gap value trail =>
        exact ⟨_, _, [], _, _, _, _, _, [], rfl, lead, allowed, between, gap, value, trail, .inl ⟨rfl, rfl⟩,
          by simp [closing, Spelling.quoted]⟩
  | moreMembers entry more =>
    cases entry with
    | member lead allowed between item =>
      cases item with
      | element gap value trail =>
        exact ⟨_, _, _, _, _, _, _, _, _, rfl, lead, allowed, between, gap, value, trail, .inr ⟨_, rfl, more⟩,
          by simp [closing, Spelling.quoted]⟩

def Part.count : Part → Nat
  | .elements trees => trees.length
  | .members entries => entries.length
  | _ => 0

theorem count_le {part : Part} (derived : Derives part text) : part.count ≤ text.length + 1 := by
  induction derived with
  | lastElement _ _ => simp [Part.count]
  | lastMember _ _ => simp [Part.count]
  | moreElements _ _ _ more =>
    simp only [Part.count, List.length_append, List.length_cons] at more ⊢
    omega
  | moreMembers _ _ _ more =>
    simp only [Part.count, List.length_append, List.length_cons] at more ⊢
    omega
  | _ => exact Nat.zero_le _

theorem count_le_of_further {part : Part} {last : Prop} {tail : List Char} (further : Further part last tail)
    (none : last → part.count = 0) : part.count ≤ tail.length := by
  rcases further with ⟨ended, rfl⟩ | ⟨others, rfl, derived⟩
  · exact Nat.le_of_eq (none ended)
  · exact count_le derived

theorem stops_further {part : Part} {last : Prop} {after tail rest : List Char} (frame : Frame) (trail : Blank after)
    (further : Further part last tail) : Stops (after ++ (tail ++ frame.closing :: rest)) := by
  refine stops_append trail.isBlank ?_
  rcases further with ⟨_, rfl⟩ | ⟨others, rfl, _⟩
  · exact stops_cons _ (by cases frame <;> simp [Frame.closing])
  · exact stops_cons _ (by simp)

end Parts

namespace Read

variable {α σ : Type}

-- The reader makes of a value what it means, and fails where it means nothing.
def Means (reader : Reader α) (meaning : Tree → Option α) : Prop := ∀ tree text, Derives (.value tree) text →
  ∀ given rest, Stops rest → skipBlank given = text ++ rest →
    (reader given).toOption = (meaning tree).map fun made => (made, rest)

def FieldMeans (field : FieldReader σ) (step : σ → String → Tree → Option σ) : Prop :=
  ∀ tree text, Derives (.value tree) text → ∀ state name given between rest, Stops rest →
    skipBlank given = ':' :: between → skipBlank between = text ++ rest →
      (field state name given).toOption = (step state name tree).map fun next => (next, rest)

section Items

variable {item : Reader α}

theorem moreItems_closed {given rest : List Char} (m : Char) (bound : List Char)
    (skipped : skipBlank given = ']' :: rest) : moreItems item (m :: bound) given = .ok ([], rest) := by
  rw [moreItems, skipped]
  rfl

theorem moreItems_comma {given next behind : List Char} {d : Char} (m : Char) (bound : List Char)
    (skipped : skipBlank given = ',' :: next) (head : skipBlank next = d :: behind) (opens : Opens d) :
    moreItems item (m :: bound) given = (do
      let (first, rest) ← item (d :: behind)
      let (others, rest) ← moreItems item bound rest
      .ok (first :: others, rest)) := by
  rw [moreItems, skipped]
  simp only [head, if_neg opens.notList]
  rfl

variable {meaning : Tree → Option α} (means : Means item meaning)

include means

theorem first_means {tree : Tree} {more : List Tree} {given value tail rest : List Char}
    (bound : List Char → List Char) (derived : Derives (.value tree) value)
    (skipped : skipBlank given = value ++ tail) (stops : Stops tail)
    (onward : (moreItems item (bound tail) tail).toOption = (more.mapM meaning).map fun made => (made, rest)) :
    (do let (first, rest) ← item given
        let (others, rest) ← moreItems item (bound rest) rest
        .ok (first :: others, rest) : Except Failure (List α × List Char)).toOption =
      ((tree :: more).mapM meaning).map fun made => (made, rest) := by
  rw [toOption_bind, means tree value derived given tail stops skipped, List.mapM_cons]
  cases meaning tree with
  | none => rfl
  | some first =>
    simp only [Option.map_some, Option.bind_some]
    rw [toOption_bind, onward]
    cases more.mapM meaning <;> rfl

theorem moreItems_means (trees : List Tree) {tail after bound : List Char} (rest : List Char) (trail : Blank after)
    (further : Further (.elements trees) (trees = []) tail) (enough : trees.length < bound.length) :
    (moreItems item bound (after ++ (tail ++ ']' :: rest))).toOption =
      (trees.mapM meaning).map fun made => (made, rest) := by
  induction trees generalizing tail after bound with
  | nil =>
    obtain ⟨m, bound, rfl⟩ := List.exists_cons_of_length_pos (Nat.zero_lt_of_lt enough)
    rcases further with ⟨_, rfl⟩ | ⟨others, _, derived⟩
    · rw [List.nil_append, moreItems_closed m bound (skipBlank_mark trail rfl rest)]
      rfl
    · obtain ⟨_, _, _, _, _, _, none, _⟩ := elements_cases derived
      cases none
  | cons tree more ih =>
    obtain ⟨m, bound, rfl⟩ := List.exists_cons_of_length_pos (Nat.zero_lt_of_lt enough)
    rcases further with ⟨none, _⟩ | ⟨others, rfl, derived⟩
    · cases none
    · obtain ⟨_, _, before, value, gap, tail, same, lead, inner, blank, further, rfl⟩ := elements_cases derived
      cases same
      obtain ⟨d, behind, rfl, opens⟩ := value_head inner
      have onward := ih blank further (Nat.lt_of_succ_lt_succ enough)
      have stops : Stops (gap ++ (tail ++ ']' :: rest)) := stops_further .list blank further
      have head : skipBlank (before ++ (d :: behind ++ (gap ++ tail)) ++ ']' :: rest) =
          d :: (behind ++ (gap ++ (tail ++ ']' :: rest))) := by
        simp only [List.append_assoc, List.cons_append]
        exact skipBlank_mark lead opens.visible _
      rw [List.cons_append, moreItems_comma m bound (skipBlank_mark trail rfl _) head opens]
      exact first_means means (fun _ => bound) inner (skipBlank_cons _ opens.visible) stops onward

theorem items_means {trees : List Tree} {text given : List Char} (rest : List Char)
    (derived : Derives (.elements trees) text) (skipped : skipBlank given = skipBlank (text ++ ']' :: rest)) :
    (items item given).toOption = (trees.mapM meaning).map fun made => (made, rest) := by
  obtain ⟨tree, more, before, value, after, tail, rfl, lead, inner, trail, further, rfl⟩ := elements_cases derived
  obtain ⟨d, behind, rfl, opens⟩ := value_head inner
  have few := count_le_of_further further (fun none => by rw [none]; rfl)
  have enough : more.length < (after ++ (tail ++ ']' :: rest)).length := by
    simp only [Part.count, List.length_append, List.length_cons] at few ⊢
    omega
  have onward := moreItems_means means more rest trail further enough
  have stops : Stops (after ++ (tail ++ ']' :: rest)) := stops_further .list trail further
  have head : skipBlank given = d :: (behind ++ (after ++ (tail ++ ']' :: rest))) := by
    rw [skipped]
    simp only [List.append_assoc, List.cons_append]
    exact skipBlank_mark lead opens.visible _
  unfold items
  rw [head]
  simp only [if_neg opens.notList]
  exact first_means means (fun rest => rest) inner (skipBlank_cons _ opens.visible) stops onward

end Items

section Members

variable {field : FieldReader σ}

theorem moreMembers_closed {given rest : List Char} (m : Char) (bound : List Char) (state : σ)
    (skipped : skipBlank given = '}' :: rest) : moreMembers field (m :: bound) state given = .ok (state, rest) := by
  rw [moreMembers, skipped]
  rfl

theorem moreMembers_comma {given next behind : List Char} (m : Char) (bound : List Char) (state : σ)
    (skipped : skipBlank given = ',' :: next) (head : skipBlank next = '"' :: behind) :
    moreMembers field (m :: bound) state given = (do
      let (name, rest) ← stringBody behind
      let (state, rest) ← field state name rest
      moreMembers field bound state rest) := by
  rw [moreMembers, skipped]
  simp only [head, if_true]
  rfl

variable {step : σ → String → Tree → Option σ} (means : FieldMeans field step)

include means

theorem member_means {name : Spelling} {tree : Tree} {more : List (Spelling × Tree)}
    {between gap value tail rest : List Char} (bound : List Char → List Char) (state : σ) (allowed : name.Allowed)
    (spaced : Blank between) (blank : Blank gap) (derived : Derives (.value tree) value) (stops : Stops tail)
    (onward : ∀ next, (moreMembers field (bound tail) next tail).toOption =
      (gather step next more).map fun final => (final, rest)) :
    (do let (text, rest) ← stringBody (closing name (between ++ ':' :: (gap ++ (value ++ tail))))
        let (next, rest) ← field state text rest
        moreMembers field (bound rest) next rest : Except Failure (σ × List Char)).toOption =
      (gather step state ((name, tree) :: more)).map fun final => (final, rest) := by
  rw [toOption_bind, stringBody_of_spelling allowed, gather]
  cases name.text? with
  | none => rfl
  | some text =>
    have colon : skipBlank (between ++ ':' :: (gap ++ (value ++ tail))) = ':' :: (gap ++ (value ++ tail)) :=
      skipBlank_mark spaced rfl _
    have head : skipBlank (gap ++ (value ++ tail)) = value ++ tail := by
      rw [skipBlank_blank blank, skipBlank_value derived]
    simp only [Option.map_some, Option.bind_some, Option.bind_eq_bind]
    rw [toOption_bind, means tree value derived state text _ _ tail stops colon head]
    cases step state text tree with
    | none => rfl
    | some next => exact onward next

theorem moreMembers_means (entries : List (Spelling × Tree)) {tail after bound : List Char} (rest : List Char)
    (state : σ) (trail : Blank after) (further : Further (.members entries) (entries = []) tail)
    (enough : entries.length < bound.length) :
    (moreMembers field bound state (after ++ (tail ++ '}' :: rest))).toOption =
      (gather step state entries).map fun final => (final, rest) := by
  induction entries generalizing tail after bound state with
  | nil =>
    obtain ⟨m, bound, rfl⟩ := List.exists_cons_of_length_pos (Nat.zero_lt_of_lt enough)
    rcases further with ⟨_, rfl⟩ | ⟨others, _, derived⟩
    · rw [List.nil_append, moreMembers_closed m bound state (skipBlank_mark trail rfl rest)]
      rfl
    · obtain ⟨_, _, _, _, _, _, _, _, _, none, _⟩ := members_cases derived
      cases none
  | cons entry more ih =>
    obtain ⟨m, bound, rfl⟩ := List.exists_cons_of_length_pos (Nat.zero_lt_of_lt enough)
    rcases further with ⟨none, _⟩ | ⟨others, rfl, derived⟩
    · cases none
    · obtain ⟨name, tree, _, before, between, gap, value, next, tail, same, lead, allowed, spaced, blank, inner, close,
        further, rfl⟩ := members_cases derived
      cases same
      have onward := fun state => ih state close further (Nat.lt_of_succ_lt_succ enough)
      have stops : Stops (next ++ (tail ++ '}' :: rest)) := stops_further .object close further
      have head : skipBlank (before ++ '"' :: closing name (between ++ ':' :: (gap ++ (value ++ (next ++ tail)))) ++
          '}' :: rest) = '"' :: closing name (between ++ ':' :: (gap ++ (value ++ (next ++ (tail ++ '}' :: rest))))) := by
        simp only [closing, List.append_assoc, List.cons_append]
        exact skipBlank_mark lead rfl _
      rw [List.cons_append, moreMembers_comma m bound state (skipBlank_mark trail rfl _) head]
      exact member_means means (fun _ => bound) state allowed spaced blank inner stops onward

theorem members_means {entries : List (Spelling × Tree)} {text given : List Char} (rest : List Char) (start : σ)
    (derived : Derives (.members entries) text) (skipped : skipBlank given = skipBlank (text ++ '}' :: rest)) :
    (members field start given).toOption = (gather step start entries).map fun final => (final, rest) := by
  obtain ⟨name, tree, more, before, between, gap, value, after, tail, rfl, lead, allowed, spaced, blank, inner, trail,
    further, rfl⟩ := members_cases derived
  have few := count_le_of_further further (fun none => by rw [none]; rfl)
  have enough : more.length < (after ++ (tail ++ '}' :: rest)).length := by
    simp only [Part.count, List.length_append, List.length_cons] at few ⊢
    omega
  have onward := fun state => moreMembers_means means more rest state trail further enough
  have stops : Stops (after ++ (tail ++ '}' :: rest)) := stops_further .object trail further
  have head : skipBlank given =
      '"' :: closing name (between ++ ':' :: (gap ++ (value ++ (after ++ (tail ++ '}' :: rest))))) := by
    rw [skipped]
    simp only [closing, List.append_assoc, List.cons_append]
    exact skipBlank_mark lead rfl _
  unfold members
  rw [head]
  simp only [if_true]
  exact member_means means (fun rest => rest) start allowed spaced blank inner stops onward

end Members

theorem array_means {item : Reader α} {meaning : Tree → Option α} (means : Means item meaning) {trees : List Tree}
    {text : List Char} (derived : Derives (.value (.array trees)) text) (rest : List Char) :
    ∃ tail, text = '[' :: tail ∧
      (items item (tail ++ rest)).toOption = (trees.mapM meaning).map fun made => (made, rest) := by
  cases derived with
  | emptyArray blank =>
    refine ⟨_, rfl, ?_⟩
    rw [items, List.append_assoc, List.singleton_append, skipBlank_mark blank rfl]
    rfl
  | array derived => exact ⟨_, rfl, items_means means rest derived (by simp)⟩

theorem object_means {field : FieldReader σ} {step : σ → String → Tree → Option σ} (means : FieldMeans field step)
    (start : σ) {entries : List (Spelling × Tree)} {text : List Char}
    (derived : Derives (.value (.object entries)) text) (rest : List Char) :
    ∃ tail, text = '{' :: tail ∧
      (members field start (tail ++ rest)).toOption = (gather step start entries).map fun final => (final, rest) := by
  cases derived with
  | emptyObject blank =>
    refine ⟨_, rfl, ?_⟩
    rw [members, List.append_assoc, List.singleton_append, skipBlank_mark blank rfl]
    rfl
  | object derived => exact ⟨_, rfl, members_means means rest start derived (by simp)⟩

theorem keptField_means {value : Reader Json} {meaning : Tree → Option Json} (means : Means value meaning)
    (keep : σ → String → Json → σ) :
    FieldMeans (keptField value keep) fun state name tree => (meaning tree).map (keep state name) := by
  intro tree text derived state name given between rest stops colon skipped
  rw [keptField, toOption_bind, colon_of_skipBlank colon]
  show (value between >>= _).toOption = _
  rw [toOption_bind, means tree text derived between rest stops skipped]
  dsimp only
  cases meaning tree <;> rfl

theorem number_means {numeral : Numeral} {text rest : List Char} (written : WrittenNumeral numeral text)
    (stops : Stops rest) :
    (Scan.number (text ++ rest)).toOption = numeral.number?.map fun read => (read, rest) := by
  rw [Scan.number, numeral_of_written .endInValue written stops]
  dsimp only [bind, Except.bind]
  cases numeral.number? <;> rfl

-- One level of nesting; what is inside has a smaller budget.
theorem value_means_of {budget : Nat} (inner : ∀ fewer, budget = fewer + 1 → Means (value fewer) (Tree.json? fewer)) :
    Means (value budget) (Tree.json? budget) := by
  intro tree text derived given rest stops skipped
  unfold value
  rw [skipped]
  cases tree with
  | null =>
    cases derived
    rw [Tree.json?]
    rfl
  | bool truth =>
    rw [Tree.json?]
    cases derived <;> rfl
  | number numeral =>
    cases derived with
    | number written =>
      obtain ⟨c, tail, rfl, head⟩ := written.head
      have other := fun d => ne_of_numeral (d := d) head
      have read := number_means written stops
      rw [List.cons_append] at read
      simp only [List.cons_append, if_neg (other 'n' (by simp)), if_neg (other 't' (by simp)),
        if_neg (other 'f' (by simp))]
      rw [if_pos (by simpa using head), toOption_bind, read, Tree.json?]
      cases numeral.number? <;> rfl
  | string spelling =>
    cases derived with
    | string allowed =>
      have body : spelling.quoted ++ rest = '"' :: closing spelling rest := by simp [Spelling.quoted, closing]
      rw [body]
      show (stringBody (closing spelling rest) >>= _).toOption = _
      rw [toOption_bind, stringBody_of_spelling allowed, Tree.json?]
      cases spelling.text? <;> rfl
  | array trees =>
    cases budget with
    | zero =>
      rw [Tree.json?]
      cases derived <;> rfl
    | succ fewer =>
      obtain ⟨tail, rfl, read⟩ := array_means (inner fewer rfl) derived rest
      show (items (value fewer) (tail ++ rest) >>= _).toOption = _
      rw [toOption_bind, read, Tree.json?]
      cases trees.mapM (Tree.json? fewer) <;> rfl
  | object entries =>
    cases budget with
    | zero =>
      rw [Tree.json?]
      cases derived <;> rfl
    | succ fewer =>
      have member := keptField_means (inner fewer rfl) fun done name value => insertMember name value done
      obtain ⟨tail, rfl, read⟩ := object_means member [] derived rest
      show (members _ [] (tail ++ rest) >>= _).toOption = _
      rw [toOption_bind, read, Tree.json?]
      cases gather _ [] entries <;> rfl

theorem value_means (budget : Nat) : Means (value budget) (Tree.json? budget) := by
  induction budget with
  | zero => exact value_means_of fun fewer none => absurd none (Nat.zero_ne_add_one fewer)
  | succ budget ih => exact value_means_of fun fewer same => Nat.succ.inj same ▸ ih

-- On a document the reader makes what the tree means, or nothing.
theorem whole_means {reader : Reader α} {meaning : Tree → Option α} (means : Means reader meaning) {tree : Tree}
    {text : List Char} (written : Written tree text) : (whole reader text).toOption = meaning tree := by
  cases written with
  | element lead derived trail =>
    rename_i before text after
    have stops : Stops after := by simpa using stops_append trail.isBlank stops_nil
    have skipped : skipBlank (before ++ (text ++ after)) = text ++ after := by
      rw [skipBlank_blank lead, skipBlank_value derived]
    have ended : skipBlank after = [] := by simpa [skipBlank] using skipBlank_blank trail []
    rw [whole, toOption_bind, means tree text derived _ after stops skipped]
    cases meaning tree with
    | none => rfl
    | some made =>
      simp only [Option.map_some, Option.bind_some, ended]
      rfl

end Read

theorem read?_of_written {tree : Tree} {text : String} (written : Written tree text.toList) :
    read? text = tree.json? depthLimit :=
  whole_means (value_means depthLimit) written

-- The text is a document of the value, within the limits of the reader.
def StandsFor (text : String) (value : Json) : Prop :=
  ∃ tree, Written tree text.toList ∧ tree.json? depthLimit = some value

theorem read?_eq_some_iff (text : String) (value : Json) : read? text = some value ↔ StandsFor text value := by
  constructor
  · intro done
    obtain ⟨tree, written⟩ := written_of_whole (value_grammatical depthLimit) (read_of_read? done)
    exact ⟨tree, written, (read?_of_written written).symm.trans done⟩
  · intro stands
    obtain ⟨tree, written, means⟩ := stands
    rw [read?_of_written written, means]

end NodeFlow.Json
