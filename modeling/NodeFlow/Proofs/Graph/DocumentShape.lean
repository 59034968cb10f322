import NodeFlow.Proofs.Graph.DocumentMeaning
import NodeFlow.Proofs.Json.Limits

namespace NodeFlow.Graph.Document

open Json Json.Read

variable {α σ : Type}

section Shapes

def valuesOf (name : String) (entries : List (Spelling × Tree)) : List Tree :=
  (entries.filter fun entry => entry.1.text? = some name).map Prod.snd

-- A member that may be missing and may be null, and is not repeated.
structure AtMostOne (name : String) (shape : Tree → Prop) (entries : List (Spelling × Tree)) : Prop where
  once : (valuesOf name entries).length ≤ 1
  shaped : ∀ tree ∈ valuesOf name entries, tree = .null ∨ shape tree

def IsText (tree : Tree) : Prop := ∃ spelling, tree = .string spelling

def IsObject (tree : Tree) : Prop := ∃ entries, tree = .object entries

-- A record of a title, or the list of that one field.
inductive IsMetadata : Tree → Prop
  | record {entries : List (Spelling × Tree)} (title : AtMostOne "title" IsText entries) :
      IsMetadata (.object entries)
  | emptyList : IsMetadata (.array [])
  | list {title : Tree} (shaped : title = .null ∨ IsText title) : IsMetadata (.array [title])

inductive IsRecord : Tree → Prop
  | mk {entries : List (Spelling × Tree)} (ofClass : AtMostOne "class_type" IsText entries)
      (ofInputs : AtMostOne "inputs" IsObject entries) (ofMeta : AtMostOne "_meta" IsMetadata entries) :
      IsRecord (.object entries)

-- Every member counts, also one whose id is repeated later.
inductive IsWorkflow : Tree → Prop
  | mk {entries : List (Spelling × Tree)} (records : ∀ entry ∈ entries, IsRecord entry.2) :
      IsWorkflow (.object entries)

end Shapes

section Fields

-- What the member under a name means; nothing if there is none, and no meaning if there are several.
def fieldOf? (name : String) (meaning : Tree → Option α) (entries : List (Spelling × Tree)) : Option (Option α) :=
  match valuesOf name entries with
  | [] => some none
  | [tree] => tree.orNull meaning
  | _ => none

def reserved : List String := ["class_type", "inputs", "_meta"]

def extraStep (extra : List (String × Json)) (name : String) (tree : Tree) : Option (List (String × Json)) :=
  if name ∈ reserved then some extra
  else (tree.json? (depthLimit - 2)).map fun value => insertMember name value extra

def node? : Tree → Option Node
  | .object entries => do
    let classField ← fieldOf? "class_type" Tree.text? entries
    let inputs ← fieldOf? "inputs" inputs? entries
    let metadata ← fieldOf? "_meta" metadata? entries
    let extra ← gather extraStep [] entries
    some ⟨classField, inputs, metadata, extra⟩
  | _ => none

end Fields

section Gathering

theorem gather_cons_iff {step : σ → String → Tree → Option σ} (state final : σ) (spelling : Spelling) (tree : Tree)
    (rest : List (Spelling × Tree)) :
    gather step state ((spelling, tree) :: rest) = some final ↔
      ∃ name next, spelling.text? = some name ∧ step state name tree = some next ∧
        gather step next rest = some final := by
  simp [gather, Option.bind_eq_some_iff]

theorem spelled_of_gather {step : σ → String → Tree → Option σ} {state final : σ} {entries : List (Spelling × Tree)}
    (done : gather step state entries = some final) : ∀ entry ∈ entries, entry.1.text?.isSome := by
  induction entries generalizing state with
  | nil => simp
  | cons entry rest ih =>
    obtain ⟨name, next, spelled, _, done⟩ := (gather_cons_iff _ _ _ _ _).1 done
    intro other member
    rcases List.mem_cons.1 member with rfl | later
    · rw [spelled]
      rfl
    · exact ih done other later

-- A slot sees the members under its own name and passes the other ones over.
theorem gather_slotStep (own : String) (meaning : Tree → Option α) {entries : List (Spelling × Tree)}
    (named : ∀ entry ∈ entries, entry.1.text?.isSome) (seen : Option α) :
    gather (slotStep own meaning) seen entries =
      (valuesOf own entries).foldlM (fun seen tree => once? seen (meaning tree)) seen := by
  induction entries generalizing seen with
  | nil => rfl
  | cons entry rest ih =>
    obtain ⟨spelling, tree⟩ := entry
    obtain ⟨name, spelled⟩ := Option.isSome_iff_exists.1 (named _ List.mem_cons_self)
    have later := fun seen => ih (fun entry member => named entry (List.mem_cons_of_mem _ member)) seen
    rw [gather, spelled]
    show (slotStep own meaning seen name tree).bind (fun next => gather _ next rest) = _
    simp only [later, slotStep]
    by_cases same : name = own
    · have kept : valuesOf own ((spelling, tree) :: rest) = tree :: valuesOf own rest := by
        simp [valuesOf, spelled, same]
      rw [if_pos same, kept, List.foldlM_cons]
      rfl
    · have dropped : valuesOf own ((spelling, tree) :: rest) = valuesOf own rest := by
        simp [valuesOf, spelled, same]
      rw [if_neg same, dropped]
      rfl

theorem fieldOf?_eq (own : String) (meaning : Tree → Option α) {entries : List (Spelling × Tree)}
    (named : ∀ entry ∈ entries, entry.1.text?.isSome) :
    fieldOf? own meaning entries =
      (gather (slotStep own (Tree.orNull meaning)) none entries).map Option.join := by
  rw [gather_slotStep own _ named, fieldOf?]
  rcases valuesOf own entries with _ | ⟨tree, _ | ⟨second, more⟩⟩
  · rfl
  · cases read : tree.orNull meaning <;> simp [once?, read]
  · cases read : tree.orNull meaning <;> simp [once?, read]

end Gathering

section Records

theorem recordStep_iff (draft next : Draft) (name : String) (tree : Tree) :
    recordStep draft name tree = some next ↔
      slotStep "class_type" (Tree.orNull Tree.text?) draft.classField name tree = some next.classField ∧
      slotStep "inputs" (Tree.orNull inputs?) draft.inputs name tree = some next.inputs ∧
      slotStep "_meta" (Tree.orNull metadata?) draft.metadata name tree = some next.metadata ∧
      extraStep draft.extra name tree = some next.extra := by
  obtain ⟨c, i, m, e⟩ := draft
  obtain ⟨c', i', m', e'⟩ := next
  unfold recordStep slotStep extraStep reserved
  by_cases ofClass : name = "class_type"
  · subst ofClass
    cases once? c (Tree.orNull Tree.text? tree) <;> simp [eq_comm]
  by_cases ofInputs : name = "inputs"
  · subst ofInputs
    cases once? i (Tree.orNull inputs? tree) <;> simp [eq_comm]
  by_cases ofMeta : name = "_meta"
  · subst ofMeta
    cases once? m (Tree.orNull metadata? tree) <;> simp [eq_comm]
  · cases tree.json? (depthLimit - 2) <;> simp [ofClass, ofInputs, ofMeta]

theorem gather_recordStep_iff (draft final : Draft) (entries : List (Spelling × Tree)) :
    gather recordStep draft entries = some final ↔
      gather (slotStep "class_type" (Tree.orNull Tree.text?)) draft.classField entries = some final.classField ∧
      gather (slotStep "inputs" (Tree.orNull inputs?)) draft.inputs entries = some final.inputs ∧
      gather (slotStep "_meta" (Tree.orNull metadata?)) draft.metadata entries = some final.metadata ∧
      gather extraStep draft.extra entries = some final.extra := by
  induction entries generalizing draft with
  | nil =>
    obtain ⟨c, i, m, e⟩ := draft
    obtain ⟨c', i', m', e'⟩ := final
    simp [gather]
  | cons entry rest ih =>
    obtain ⟨spelling, tree⟩ := entry
    simp only [gather_cons_iff]
    constructor
    · rintro ⟨name, next, spelled, taken, done⟩
      obtain ⟨c, i, m, e⟩ := (recordStep_iff draft next name tree).1 taken
      obtain ⟨cs, is, ms, es⟩ := (ih next).1 done
      exact ⟨⟨name, _, spelled, c, cs⟩, ⟨name, _, spelled, i, is⟩, ⟨name, _, spelled, m, ms⟩, ⟨name, _, spelled, e, es⟩⟩
    · rintro ⟨⟨name, c, spelled, takenC, doneC⟩, ⟨nameI, i, spelledI, takenI, doneI⟩,
        ⟨nameM, m, spelledM, takenM, doneM⟩, ⟨nameE, e, spelledE, takenE, doneE⟩⟩
      cases spelled.symm.trans spelledI
      cases spelled.symm.trans spelledM
      cases spelled.symm.trans spelledE
      exact ⟨name, ⟨c, i, m, e⟩, spelled, (recordStep_iff _ _ _ _).2 ⟨takenC, takenI, takenM, takenE⟩,
        (ih _).2 ⟨doneC, doneI, doneM, doneE⟩⟩

theorem record?_eq (tree : Tree) : record? tree = node? tree := by
  cases tree with
  | object entries =>
    ext node
    show (gather recordStep .empty entries).map Draft.node = some node ↔ _
    simp only [node?, Option.map_eq_some_iff, gather_recordStep_iff, Option.bind_eq_bind, Option.bind_eq_some_iff]
    constructor
    · rintro ⟨final, ⟨c, i, m, e⟩, rfl⟩
      have named := spelled_of_gather e
      refine ⟨final.classField.join, ?_, final.inputs.join, ?_, final.metadata.join, ?_, final.extra, e, rfl⟩
      · rw [fieldOf?_eq _ _ named]
        exact congrArg (Option.map Option.join) c
      · rw [fieldOf?_eq _ _ named]
        exact congrArg (Option.map Option.join) i
      · rw [fieldOf?_eq _ _ named]
        exact congrArg (Option.map Option.join) m
    · rintro ⟨c, ofClass, i, ofInputs, m, ofMeta, e, ofExtra, same⟩
      have named := spelled_of_gather ofExtra
      rw [fieldOf?_eq _ _ named, Option.map_eq_some_iff] at ofClass ofInputs ofMeta
      obtain ⟨c, ofClass, rfl⟩ := ofClass
      obtain ⟨i, ofInputs, rfl⟩ := ofInputs
      obtain ⟨m, ofMeta, rfl⟩ := ofMeta
      exact ⟨⟨c, i, m, e⟩, ⟨ofClass, ofInputs, ofMeta, ofExtra⟩, Option.some.inj same⟩
  | _ => rfl

end Records

section Accepted

theorem isSome_orNull (meaning : Tree → Option α) (tree : Tree) :
    (tree.orNull meaning).isSome ↔ tree = .null ∨ (meaning tree).isSome := by
  cases tree <;> simp [Tree.orNull]

theorem isSome_fieldOf? {name : String} {meaning : Tree → Option α} {shape : Tree → Prop}
    {entries : List (Spelling × Tree)} (shaped : ∀ tree ∈ valuesOf name entries, ((meaning tree).isSome ↔ shape tree)) :
    (fieldOf? name meaning entries).isSome ↔ AtMostOne name shape entries := by
  unfold fieldOf?
  constructor
  · intro done
    split at done
    · rename_i none
      exact ⟨by simp [none], by simp [none]⟩
    · rename_i tree one
      rw [isSome_orNull, shaped tree (by simp [one])] at done
      exact ⟨by simp [one], by simpa [one] using done⟩
    · cases done
  · rintro ⟨once, fine⟩
    split
    · rfl
    · rename_i tree one
      rw [isSome_orNull, shaped tree (by simp [one])]
      exact fine tree (by simp [one])
    · rename_i several single
      rcases found : valuesOf name entries with _ | ⟨tree, _ | ⟨second, more⟩⟩
      · exact absurd found several
      · exact absurd found (single tree)
      · simp [found] at once

theorem isSome_fieldOf?_of_fits {budget : Nat} {meaning : Tree → Option α} {shape : Tree → Prop}
    (shaped : ∀ tree : Tree, tree.Fits Numeral.InRange budget → ((meaning tree).isSome ↔ shape tree)) (name : String)
    {entries : List (Spelling × Tree)} (fits : ∀ entry ∈ entries, entry.2.Fits Numeral.InRange budget) :
    (fieldOf? name meaning entries).isSome ↔ AtMostOne name shape entries := by
  refine isSome_fieldOf? fun tree found => shaped tree ?_
  obtain ⟨entry, kept, rfl⟩ := List.mem_map.1 found
  exact fits entry (List.mem_filter.1 kept).1

theorem isSome_text? {budget : Nat} (tree : Tree) (fits : tree.Fits Numeral.InRange budget) :
    tree.text?.isSome ↔ IsText tree := by
  cases fits with
  | string paired => simpa [Tree.text?, IsText] using isSome_text?_of_paired paired
  | _ => simp [Tree.text?, IsText]

theorem isSome_inputs? (tree : Tree) (fits : tree.Fits Numeral.InRange (depthLimit - 2)) :
    (inputs? tree).isSome ↔ IsObject tree := by
  cases tree with
  | object entries =>
    have taken : (gather inputsStep .empty entries).isSome := by
      refine isSome_gather fits.named (fun entry member state name => ?_) _
      rw [inputsStep, Option.isSome_map]
      exact json?_of_fits (fits.inner entry member)
    exact ⟨fun _ => ⟨entries, rfl⟩, fun _ => taken⟩
  | _ => simp [inputs?, Tree.gathered?, IsObject]

theorem isSome_metadata? {budget : Nat} (tree : Tree) (fits : tree.Fits Numeral.InRange (budget + 1)) :
    (metadata? tree).isSome ↔ IsMetadata tree := by
  cases tree with
  | object entries =>
    have title := isSome_fieldOf?_of_fits isSome_text? "title" fits.inner
    rw [fieldOf?_eq _ _ fits.named, Option.isSome_map] at title
    rw [metadata?, Option.isSome_map]
    exact title.trans ⟨.record, fun shape => by cases shape; assumption⟩
  | array items =>
    cases fits with
    | array inner =>
      rcases items with _ | ⟨title, _ | ⟨second, more⟩⟩
      · exact ⟨fun _ => .emptyList, fun _ => rfl⟩
      · rw [metadata?, Option.isSome_map, isSome_orNull, isSome_text? title (inner title List.mem_cons_self)]
        exact ⟨.list, fun shape => by cases shape; assumption⟩
      · exact ⟨nofun, nofun⟩
  | _ => exact ⟨nofun, nofun⟩

theorem isSome_node? (tree : Tree) (fits : tree.Fits Numeral.InRange (depthLimit - 1)) :
    (node? tree).isSome ↔ IsRecord tree := by
  cases tree with
  | object entries =>
    have inner : ∀ entry ∈ entries, entry.2.Fits Numeral.InRange (depthLimit - 2) := fits.inner
    have ofClass := isSome_fieldOf?_of_fits isSome_text? "class_type" inner
    have ofInputs := isSome_fieldOf?_of_fits isSome_inputs? "inputs" inner
    have ofMeta := isSome_fieldOf?_of_fits isSome_metadata? "_meta" inner
    have ofExtra : (gather extraStep [] entries).isSome := by
      refine isSome_gather fits.named (fun entry member extra name => ?_) _
      unfold extraStep
      split
      · rfl
      · rw [Option.isSome_map]
        exact json?_of_fits (inner entry member)
    have parts : (node? (.object entries)).isSome ↔ (fieldOf? "class_type" Tree.text? entries).isSome ∧
        (fieldOf? "inputs" inputs? entries).isSome ∧ (fieldOf? "_meta" metadata? entries).isSome := by
      obtain ⟨extra, kept⟩ := Option.isSome_iff_exists.1 ofExtra
      simp only [node?, kept, Option.bind_eq_bind]
      cases fieldOf? "class_type" Tree.text? entries <;> cases fieldOf? "inputs" inputs? entries <;>
        cases fieldOf? "_meta" metadata? entries <;> simp
    rw [parts, ofClass, ofInputs, ofMeta]
    exact ⟨fun ⟨c, i, m⟩ => .mk c i m, fun shape => by cases shape; exact ⟨‹_›, ‹_›, ‹_›⟩⟩
  | _ => exact ⟨nofun, nofun⟩

end Accepted

section Nodes

-- The ids of an object with the nodes of their records, repeated ones too.
inductive Bound : List (Spelling × Tree) → List (String × Node) → Prop
  | nil : Bound [] []
  | cons {spelling : Spelling} {id : String} {tree : Tree} {node : Node} {entries : List (Spelling × Tree)}
      {nodes : List (String × Node)} (spelled : spelling.text? = some id) (meant : node? tree = some node)
      (others : Bound entries nodes) : Bound ((spelling, tree) :: entries) ((id, node) :: nodes)

theorem gather_nodeStep_iff (before after : Table Node) (entries : List (Spelling × Tree)) :
    gather nodeStep before entries = some after ↔
      ∃ nodes, Bound entries nodes ∧ after = nodes.foldl (fun table entry => table.insert entry.1 entry.2) before := by
  induction entries generalizing before with
  | nil =>
    constructor
    · intro done
      exact ⟨[], .nil, (Option.some.inj done).symm⟩
    · rintro ⟨_, ⟨⟩, rfl⟩
      rfl
  | cons entry rest ih =>
    obtain ⟨spelling, tree⟩ := entry
    rw [gather_cons_iff]
    constructor
    · rintro ⟨id, next, spelled, taken, done⟩
      rw [nodeStep, record?_eq, Option.map_eq_some_iff] at taken
      obtain ⟨node, meant, rfl⟩ := taken
      obtain ⟨nodes, others, rfl⟩ := (ih _).1 done
      exact ⟨(id, node) :: nodes, .cons spelled meant others, rfl⟩
    · rintro ⟨_, bound, rfl⟩
      cases bound with
      | cons spelled meant others =>
        refine ⟨_, _, spelled, ?_, (ih _).2 ⟨_, others, rfl⟩⟩
        rw [nodeStep, record?_eq, meant]
        rfl

theorem workflow?_eq_some_iff (tree : Tree) (graph : Graph) :
    workflow? tree = some graph ↔
      ∃ entries nodes, tree = .object entries ∧ Bound entries nodes ∧ graph = ⟨Table.ofList nodes⟩ := by
  cases tree with
  | object entries =>
    show (gather nodeStep .empty entries).map Graph.mk = some graph ↔ _
    simp only [Option.map_eq_some_iff, gather_nodeStep_iff]
    constructor
    · rintro ⟨_, ⟨nodes, bound, rfl⟩, rfl⟩
      exact ⟨entries, nodes, rfl, bound, rfl⟩
    · rintro ⟨_, nodes, same, bound, rfl⟩
      cases same
      exact ⟨_, ⟨nodes, bound, rfl⟩, rfl⟩
  | _ => exact ⟨nofun, nofun⟩

theorem exists_bound {entries : List (Spelling × Tree)} (named : ∀ entry ∈ entries, entry.1.text?.isSome)
    (each : ∀ entry ∈ entries, (node? entry.2).isSome) : ∃ nodes, Bound entries nodes := by
  induction entries with
  | nil => exact ⟨[], .nil⟩
  | cons entry rest ih =>
    obtain ⟨id, spelled⟩ := Option.isSome_iff_exists.1 (named entry List.mem_cons_self)
    obtain ⟨node, meant⟩ := Option.isSome_iff_exists.1 (each entry List.mem_cons_self)
    obtain ⟨nodes, others⟩ := ih (fun entry member => named entry (List.mem_cons_of_mem _ member))
      fun entry member => each entry (List.mem_cons_of_mem _ member)
    exact ⟨(id, node) :: nodes, .cons spelled meant others⟩

theorem isSome_of_bound {entries : List (Spelling × Tree)} {nodes : List (String × Node)}
    (bound : Bound entries nodes) : ∀ entry ∈ entries, (node? entry.2).isSome := by
  induction bound with
  | nil => simp
  | cons _ meant _ ih =>
    intro entry member
    rcases List.mem_cons.1 member with rfl | later
    · rw [meant]
      rfl
    · exact ih entry later

-- Within the limits nothing but the shape decides.
theorem isSome_workflow? {tree : Tree} (fits : tree.Fits Numeral.InRange depthLimit) :
    (workflow? tree).isSome ↔ IsWorkflow tree := by
  simp only [Option.isSome_iff_exists, workflow?_eq_some_iff]
  constructor
  · rintro ⟨_, entries, nodes, rfl, bound, _⟩
    exact .mk fun entry member => (isSome_node? _ (fits.inner entry member)).1 (isSome_of_bound bound entry member)
  · rintro ⟨records⟩
    obtain ⟨nodes, bound⟩ := exists_bound fits.named
      fun entry member => (isSome_node? _ (fits.inner entry member)).2 (records entry member)
    exact ⟨_, _, nodes, rfl, bound, rfl⟩

end Nodes

end NodeFlow.Graph.Document
