import NodeFlow.Proofs.Graph.DocumentGrammar
import NodeFlow.Proofs.Json.Meaning

namespace NodeFlow.Json.Tree

def text? : Tree → Option String
  | .string spelling => spelling.text?
  | _ => none

def orNull {α : Type} (meaning : Tree → Option α) : Tree → Option (Option α)
  | .null => some none
  | tree => (meaning tree).map some

theorem orNull_of_ne {α : Type} {tree : Tree} (other : tree ≠ .null) (meaning : Tree → Option α) :
    tree.orNull meaning = (meaning tree).map some := by
  cases tree with
  | null => exact absurd rfl other
  | _ => rfl

def gathered? {σ : Type} (step : σ → String → Tree → Option σ) (start : σ) : Tree → Option σ
  | .object entries => gather step start entries
  | _ => none

end NodeFlow.Json.Tree

namespace NodeFlow.Graph.Document

open Json Json.Scan Json.Read
open Json.Skim (Frame)

variable {α σ : Type}

section Meanings

def once? (seen read : Option α) : Option (Option α) :=
  match seen with
  | some _ => none
  | none => read.map some

def slotStep (own : String) (meaning : Tree → Option α) (seen : Option α) (name : String) (tree : Tree) :
    Option (Option α) :=
  if name = own then once? seen (meaning tree) else some seen

def inputsStep (inputs : Inputs) (name : String) (tree : Tree) : Option Inputs :=
  (tree.json? (depthLimit - 3)).map fun value => inputs.insert name (InputValue.ofJson value)

def inputs? : Tree → Option Inputs := Tree.gathered? inputsStep .empty

def titleStep : Option (Option String) → String → Tree → Option (Option (Option String)) :=
  slotStep "title" (Tree.orNull Tree.text?)

-- Metadata is an object with a title, or the list of the title.
def metadata? : Tree → Option Metadata
  | .object entries => (gather titleStep none entries).map fun title => ⟨title.join⟩
  | .array [] => some ⟨none⟩
  | .array [item] => (Tree.orNull Tree.text? item).map Metadata.mk
  | _ => none

def recordStep (draft : Draft) (name : String) (tree : Tree) : Option Draft :=
  if name = "class_type" then
    (once? draft.classField (Tree.orNull Tree.text? tree)).map fun found => { draft with classField := found }
  else if name = "inputs" then
    (once? draft.inputs (Tree.orNull inputs? tree)).map fun found => { draft with inputs := found }
  else if name = "_meta" then
    (once? draft.metadata (Tree.orNull metadata? tree)).map fun found => { draft with metadata := found }
  else (tree.json? (depthLimit - 2)).map fun value => { draft with extra := insertMember name value draft.extra }

def record? (tree : Tree) : Option Node := (tree.gathered? recordStep .empty).map Draft.node

def nodeStep (nodes : Table Node) (id : String) (tree : Tree) : Option (Table Node) :=
  (record? tree).map (nodes.insert id)

def workflow? (tree : Tree) : Option Graph := (tree.gathered? nodeStep .empty).map Graph.mk

end Meanings

section Heads

structure Heads (c : Char) (tree : Tree) : Prop where
  null : c = 'n' → tree = .null
  text : c = '"' → ∃ spelling, tree = .string spelling
  list : c = '[' → ∃ items, tree = .array items
  object : c = '{' → ∃ entries, tree = .object entries

theorem heads_of_derives {tree : Tree} {c : Char} {tail : List Char} (derived : Derives (.value tree) (c :: tail)) :
    Heads c tree := by
  cases derived with
  | null => exact ⟨fun _ => rfl, by simp, by simp, by simp⟩
  | true => exact ⟨by simp, by simp, by simp, by simp⟩
  | false => exact ⟨by simp, by simp, by simp, by simp⟩
  | number written =>
    obtain ⟨d, _, same, head⟩ := written.head
    cases same
    have other := fun d => ne_of_numeral (d := d) head
    exact ⟨fun same => absurd same (other _ (by simp)), fun same => absurd same (other _ (by simp)),
      fun same => absurd same (other _ (by simp)), fun same => absurd same (other _ (by simp))⟩
  | string _ => exact ⟨by simp, fun _ => ⟨_, rfl⟩, by simp, by simp⟩
  | emptyArray _ => exact ⟨by simp, by simp, fun _ => ⟨_, rfl⟩, by simp⟩
  | array _ => exact ⟨by simp, by simp, fun _ => ⟨_, rfl⟩, by simp⟩
  | emptyObject _ => exact ⟨by simp, by simp, by simp, fun _ => ⟨_, rfl⟩⟩
  | object _ => exact ⟨by simp, by simp, by simp, fun _ => ⟨_, rfl⟩⟩

theorem toOption_mismatch (wanted : Wanted) (c : Char) (rest : List Char) :
    (mismatch wanted c rest : Except Failure α).toOption = none := by
  cases made : (mismatch wanted c rest : Except Failure α) with
  | error failure => rfl
  | ok value => exact absurd made (mismatch_ne_ok wanted c rest value)

end Heads

def MeansAfter (reader : Char → Reader α) (meaning : Tree → Option α) : Prop := ∀ tree c tail,
  Derives (.value tree) (c :: tail) → ∀ rest, Stops rest → tree ≠ .null →
    (reader c (tail ++ rest)).toOption = (meaning tree).map fun made => (made, rest)

theorem optional_means {reader : Char → Reader α} {meaning : Tree → Option α} (means : MeansAfter reader meaning) :
    Means (optional reader) (Tree.orNull meaning) := by
  intro tree text derived given rest stops skipped
  obtain ⟨c, tail, rfl, opens⟩ := value_head derived
  have heads := heads_of_derives derived
  unfold optional
  rw [skipped]
  by_cases null : tree = .null
  · subst null
    cases derived
    rfl
  · have other : c ≠ 'n' := fun same => null (heads.null same)
    simp only [List.cons_append, if_neg other]
    rw [toOption_bind, means tree c tail derived rest stops null, Tree.orNull_of_ne null]
    cases meaning tree <;> rfl

theorem optionalText_means : Means optionalText (Tree.orNull Tree.text?) := by
  refine optional_means fun tree c tail derived rest _ _ => ?_
  have heads := heads_of_derives derived
  by_cases quote : c = '"'
  · obtain ⟨spelling, rfl⟩ := heads.text quote
    cases derived with
    | string allowed =>
      have body : spelling.inside ++ ['"'] ++ rest = closing spelling rest := by simp [closing]
      rw [if_pos rfl, body, stringBody_of_spelling allowed]
      rfl
  · have none : tree.text? = none := by
      cases derived with
      | string _ => exact absurd rfl quote
      | _ => rfl
    rw [if_neg quote, toOption_mismatch, none]
    rfl

theorem once_means {reader : Reader α} {meaning : Tree → Option α} (means : Means reader meaning) (seen : Option α)
    (name : String) {tree : Tree} {text given between rest : List Char} (derived : Derives (.value tree) text)
    (stops : Stops rest) (colon : skipBlank given = ':' :: between) (skipped : skipBlank between = text ++ rest)
    (put : Option α → σ) :
    (do let (found, rest) ← once seen name reader given
        .ok (put (some found), rest) : Except Failure (σ × List Char)).toOption =
      ((once? seen (meaning tree)).map put).map fun next => (next, rest) := by
  rw [toOption_bind]
  cases seen with
  | some found =>
    have refused : (once (some found) name reader given).toOption = none := by
      simp only [once, repeated]
      split <;> rfl
    rw [refused]
    rfl
  | none =>
    have read : (once none name reader given).toOption = (meaning tree).map fun made => (made, rest) := by
      show (Json.Scan.colon given >>= reader).toOption = _
      rw [toOption_bind, colon_of_skipBlank colon]
      exact means tree text derived between rest stops skipped
    rw [read]
    show _ = (((meaning tree).map some).map put).map _
    cases meaning tree <;> rfl

theorem inputsField_means : FieldMeans inputsField inputsStep :=
  keptField_means (value_means (depthLimit - 3)) fun (inputs : Inputs) name value =>
    inputs.insert name (InputValue.ofJson value)

-- An object where one is wanted, and no value where there is another one.
theorem braces_means {field : FieldReader σ} {step : σ → String → Tree → Option σ} (means : FieldMeans field step)
    (wanted : Wanted) (start : σ) {tree : Tree} {c : Char} {tail : List Char}
    (derived : Derives (.value tree) (c :: tail)) (rest : List Char) :
    (if c = '{' then members field start (tail ++ rest) else mismatch wanted c (tail ++ rest)).toOption =
      (tree.gathered? step start).map fun final => (final, rest) := by
  by_cases brace : c = '{'
  · obtain ⟨entries, rfl⟩ := (heads_of_derives derived).object brace
    obtain ⟨inner, same, read⟩ := object_means means start derived rest
    cases same
    rw [if_pos rfl, read]
    rfl
  · have none : tree.gathered? step start = none := by
      cases derived with
      | emptyObject _ => exact absurd rfl brace
      | object _ => exact absurd rfl brace
      | _ => rfl
    rw [if_neg brace, toOption_mismatch, none]
    rfl

theorem optionalInputs_means : Means optionalInputs (Tree.orNull inputs?) :=
  optional_means fun _ _ _ derived rest _ _ => braces_means inputsField_means .mapping .empty derived rest

theorem titleField_means : FieldMeans titleField titleStep := by
  intro tree text derived seen name given between rest stops colon skipped
  unfold titleField titleStep slotStep
  by_cases own : name = "title"
  · rw [if_pos own, if_pos own, once_means optionalText_means seen name derived stops colon skipped fun found => found]
    cases once? seen (Tree.orNull Tree.text? tree) <;> rfl
  · rw [if_neg own, if_neg own, toOption_bind, colon_of_skipBlank colon]
    show (Skim.value between >>= _).toOption = _
    rw [Skim.value_of_derives derived stops skipped]
    rfl

theorem endOfList_closed {given rest : List Char} (skipped : skipBlank given = ']' :: rest) :
    endOfList given = .ok rest := by
  unfold endOfList
  rw [skipped]
  rfl

theorem endOfList_comma {given next : List Char} (skipped : skipBlank given = ',' :: next) :
    (endOfList given).toOption = none := by
  unfold endOfList
  rw [skipped]
  dsimp only
  rw [if_neg (by simp), if_pos rfl]
  split <;> rfl

theorem listedTitle_means {items : List Tree} {tail : List Char}
    (derived : Derives (.value (.array items)) ('[' :: tail)) (rest : List Char) :
    (listedTitle (tail ++ rest)).toOption.map (fun read => (Metadata.mk read.1, read.2)) =
      (metadata? (.array items)).map fun made => (made, rest) := by
  cases derived with
  | emptyArray blank =>
    rw [listedTitle, List.append_assoc, List.singleton_append, skipBlank_mark blank rfl]
    rfl
  | array derived =>
    obtain ⟨tree, more, before, value, after, behind, rfl, lead, inner, trail, further, rfl⟩ := elements_cases derived
    obtain ⟨d, others, rfl, opens⟩ := value_head inner
    have stops : Stops (after ++ (behind ++ ']' :: rest)) := stops_further .list trail further
    have head : skipBlank (before ++ (d :: others ++ (after ++ behind)) ++ [']'] ++ rest) =
        d :: (others ++ (after ++ (behind ++ ']' :: rest))) := by
      simp only [List.append_assoc, List.cons_append, List.nil_append]
      exact skipBlank_mark lead opens.visible _
    have title : (optionalText (d :: (others ++ (after ++ (behind ++ ']' :: rest))))).toOption = _ :=
      optionalText_means tree _ inner _ _ stops (skipBlank_cons _ opens.visible)
    unfold listedTitle
    rw [head]
    simp only [if_neg opens.notList]
    rw [toOption_bind, title]
    rcases further with ⟨rfl, rfl⟩ | ⟨next, rfl, another⟩
    · have ended := endOfList_closed (skipBlank_mark trail rfl rest)
      show _ = ((Tree.orNull Tree.text? tree).map Metadata.mk).map _
      cases Tree.orNull Tree.text? tree with
      | none => rfl
      | some found =>
        show Option.map _ ((endOfList (after ++ ']' :: rest) >>= _).toOption) = _
        rw [ended]
        rfl
    · have refused := endOfList_comma (skipBlank_mark trail rfl (next ++ ']' :: rest))
      obtain ⟨second, third, _, _, _, _, rfl, _⟩ := elements_cases another
      show _ = none
      cases Tree.orNull Tree.text? tree with
      | none => rfl
      | some found =>
        show Option.map _ ((endOfList (after ++ ',' :: (next ++ ']' :: rest)) >>= _).toOption) = _
        rw [toOption_bind, refused]
        rfl

theorem optionalMetadata_means : Means optionalMetadata (Tree.orNull metadata?) := by
  refine optional_means fun tree c tail derived rest _ _ => ?_
  have heads := heads_of_derives derived
  by_cases brace : c = '{'
  · obtain ⟨entries, rfl⟩ := heads.object brace
    obtain ⟨inner, same, read⟩ := object_means titleField_means none derived rest
    cases same
    rw [if_pos rfl, toOption_bind, read]
    show _ = ((gather titleStep none entries).map _).map _
    cases gather titleStep none entries <;> rfl
  · by_cases bracket : c = '['
    · obtain ⟨items, rfl⟩ := heads.list bracket
      subst bracket
      rw [if_neg brace, if_pos rfl, toOption_bind, ← listedTitle_means derived rest]
      cases (listedTitle (tail ++ rest)).toOption <;> rfl
    · have none : metadata? tree = none := by
        cases derived with
        | emptyObject _ => exact absurd rfl brace
        | object _ => exact absurd rfl brace
        | emptyArray _ => exact absurd rfl bracket
        | array _ => exact absurd rfl bracket
        | _ => rfl
      rw [if_neg brace, if_neg bracket, toOption_mismatch, none]
      rfl

theorem recordField_means : FieldMeans recordField recordStep := by
  intro tree text derived draft name given between rest stops colon skipped
  unfold recordField recordStep
  by_cases ofClass : name = "class_type"
  · rw [if_pos ofClass, if_pos ofClass]
    exact once_means optionalText_means draft.classField name derived stops colon skipped
      fun found => { draft with classField := found }
  by_cases ofInputs : name = "inputs"
  · rw [if_neg ofClass, if_pos ofInputs, if_neg ofClass, if_pos ofInputs]
    exact once_means optionalInputs_means draft.inputs name derived stops colon skipped
      fun found => { draft with inputs := found }
  by_cases ofMeta : name = "_meta"
  · rw [if_neg ofClass, if_neg ofInputs, if_pos ofMeta, if_neg ofClass, if_neg ofInputs, if_pos ofMeta]
    exact once_means optionalMetadata_means draft.metadata name derived stops colon skipped
      fun found => { draft with metadata := found }
  · rw [if_neg ofClass, if_neg ofInputs, if_neg ofMeta, if_neg ofClass, if_neg ofInputs, if_neg ofMeta]
    exact keptField_means (value_means (depthLimit - 2)) (fun (draft : Draft) name value =>
      { draft with extra := insertMember name value draft.extra }) tree text derived draft name given between rest
      stops colon skipped

theorem braced_means {field : FieldReader σ} {step : σ → String → Tree → Option σ} (means : FieldMeans field step)
    (wanted : Wanted) (start : σ) : Means (braced wanted field start) (Tree.gathered? step start) := by
  intro tree text derived given rest stops skipped
  obtain ⟨c, tail, rfl, opens⟩ := value_head derived
  unfold braced
  rw [skipped]
  exact braces_means means wanted start derived rest

theorem record_means : Means record record? := by
  intro tree text derived given rest stops skipped
  rw [record, toOption_bind, braced_means recordField_means _ _ tree text derived given rest stops skipped]
  unfold record?
  cases tree.gathered? recordStep .empty <;> rfl

theorem nodeField_means : FieldMeans nodeField nodeStep := by
  intro tree text derived nodes id given between rest stops colon skipped
  rw [nodeField, toOption_bind, colon_of_skipBlank colon]
  show (record between >>= _).toOption = _
  rw [toOption_bind, record_means tree text derived between rest stops skipped]
  unfold nodeStep
  cases record? tree <;> rfl

theorem workflow_means : Means workflow workflow? := by
  intro tree text derived given rest stops skipped
  rw [workflow, toOption_bind, braced_means nodeField_means _ _ tree text derived given rest stops skipped]
  unfold workflow?
  cases tree.gathered? nodeStep .empty <;> rfl

end NodeFlow.Graph.Document
