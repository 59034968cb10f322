import NodeFlow.Proofs.Graph.NormalForm
import NodeFlow.Proofs.Graph.Reread

namespace NodeFlow

open Json.Read (depthLimit)

namespace Json

def Readable (value : Json) : Prop := ∃ text, read? text = some value

theorem Readable.stored {value : Json} (readable : value.Readable) : value.Stored depthLimit := by
  obtain ⟨text, done⟩ := readable
  exact stored_of_read? done

theorem Stored.readable {value : Json} (stored : value.Stored depthLimit)
    (readBack : ∀ n ∈ value.numbers, n.ReadsBack) : value.Readable :=
  ⟨value.compact, read?_render Style.compact_blank stored readBack⟩

-- In the text of a workflow the literal stands not too deep, and its numbers are read as they are printed.
def ComesBack (literal : Json) : Prop := literal.depth ≤ depthLimit - 3 ∧ ∀ n ∈ literal.numbers, n.ReadsBack

end Json

def InputValue.Readable (value : InputValue) : Prop := ∀ literal, value = .literal literal → literal.Readable

theorem InputValue.Readable.normalized {value : InputValue} (readable : value.Readable) :
    value.normalized.Readable := by
  intro literal same
  cases value with
  | linked link => cases same
  | literal given =>
    have made : InputValue.ofJson given = .literal literal := same
    unfold InputValue.ofJson at made
    split at made
    · cases made
    · cases made
      exact readable literal rfl

-- Edits that bring in nothing but what is handed in with them.
def Edit.Authored : Edit → Prop
  | .add _ inputs _ => ∀ name value, inputs.get? name = some value → value.Readable
  | .modify _ _ value => value.Readable
  | .remove _ | .connect .. => True
  | .clear | .load _ => False

structure Node.Authored (node : Node) : Prop extends node.Tidy where
  readable : ∀ name value, node.input? name = some value → value.Readable
  plain : node.extra = []

namespace Node

variable {node : Node}

theorem Authored.setInput (authored : node.Authored) (name : String) {value : InputValue} (normal : value.Normal)
    (readable : value.Readable) : (node.setInput name value).Authored := by
  refine ⟨authored.toTidy.setInput name normal, ?_, authored.plain⟩
  intro other found look
  rw [input?_setInput] at look
  split at look
  · cases look; exact readable
  · exact authored.readable other found look

theorem Authored.dropLinksTo (authored : node.Authored) (id : String) : (node.dropLinksTo id).Authored := by
  refine ⟨authored.toTidy.dropLinksTo id, ?_, authored.plain⟩
  intro name value look
  rw [input?_dropLinksTo, Option.filter_eq_some_iff] at look
  exact authored.readable name value look.1

theorem authored_new {inputs : Inputs} (readable : ∀ name value, inputs.get? name = some value → value.Readable)
    (classField : Option String) (metadata : Option Metadata) :
    Authored ⟨classField, some (inputs.map fun _ value => value.normalized), metadata, []⟩ := by
  refine ⟨tidy_new classField inputs metadata, ?_, rfl⟩
  intro name value look
  simp only [Node.input?, Option.bind_some, Table.get?_map] at look
  obtain ⟨given, held, rfl⟩ := Option.map_eq_some_iff.1 look
  exact (readable name given held).normalized

end Node

namespace Graph

variable {graph : Graph}

def Authored (graph : Graph) : Prop := ∀ id node, graph.node? id = some node → node.Authored

theorem Authored.apply (authored : graph.Authored) {edit : Edit} (brings : edit.Authored) :
    (graph.apply edit).1.Authored := by
  intro id node found
  have given : ∀ text, edit ≠ .load text := by
    rintro text rfl
    exact brings
  cases graph.leaves_of_apply given found with
  | kept held => exact authored id _ held
  | dropped held => exact (authored id _ held).dropLinksTo _
  | connected held => exact (authored id _ held).setInput _ (InputValue.normal_linked _) nofun
  | modified held => exact (authored id _ held).setInput _ (InputValue.normal_normalized _) brings.normalized
  | added => exact Node.authored_new brings _ _

inductive Built : Graph → Prop
  | new : Built .empty
  | edited {graph : Graph} {edit : Edit} : Built graph → edit.Authored → Built (graph.apply edit).1

theorem Built.authored (built : Built graph) : graph.Authored := by
  induction built with
  | new => exact fun id node found => by cases found
  | edited _ brings ih => exact ih.apply brings

def Holds (graph : Graph) (literal : Json) : Prop :=
  ∃ id node name, graph.node? id = some node ∧ node.input? name = some (.literal literal)

theorem mem_numbers_of_input {node : Node} {n : Number} (member : n ∈ node.toJson.numbers) (plain : node.extra = []) :
    ∃ name value, node.input? name = some value ∧ n ∈ value.toJson.numbers := by
  simp only [Node.toJson, Json.numbers, Json.numbersOfMembers_append, List.mem_append, plain] at member
  rcases member with ((inClass | inInputs) | inMetadata) | inExtra
  · cases field : node.classField <;> simp [field, Json.numbersOfMembers, Json.numbers] at inClass
  · cases field : node.inputs with
    | none => simp [field, Json.numbersOfMembers] at inInputs
    | some table =>
      simp only [field, Json.numbersOfMembers, Node.inputsJson, Json.numbers, List.append_nil] at inInputs
      obtain ⟨_, written, inside⟩ := (Json.mem_numbersOfMembers _ n).1 inInputs
      obtain ⟨⟨name, value⟩, entry, rfl⟩ := List.mem_map.1 written
      have look := (Table.mem_entries_iff table name value).1 entry
      exact ⟨name, value, by simp [Node.input?, field, look], inside⟩
  · cases field : node.metadata with
    | none => simp [field, Json.numbersOfMembers] at inMetadata
    | some metadata =>
      obtain ⟨title⟩ := metadata
      cases title <;> simp [field, Node.metadataJson, Json.numbersOfMembers, Json.numbers] at inMetadata
  · simp [Json.numbersOfMembers] at inExtra

-- A float in the text of a workflow is one of a literal, as links are written with integers.
theorem float_of_holds (authored : graph.Authored) {x : Binary64} (member : Number.float x ∈ graph.toJson.numbers) :
    ∃ literal, graph.Holds literal ∧ Number.float x ∈ literal.numbers := by
  obtain ⟨_, written, inside⟩ := (Json.mem_numbersOfMembers _ _).1 member
  obtain ⟨⟨id, node⟩, entry, rfl⟩ := List.mem_map.1 written
  have found := (graph.mem_entries_iff id node).1 entry
  obtain ⟨name, value, look, inValue⟩ := mem_numbers_of_input inside (authored id node found).plain
  cases value with
  | linked link => simp [InputValue.toJson, Json.numbers, Json.numbersOfItems, Number.ofWord] at inValue
  | literal literal => exact ⟨literal, ⟨id, node, name, found, look⟩, inValue⟩

theorem Authored.loaded (authored : graph.Authored)
    (shallow : ∀ literal, graph.Holds literal → literal.depth ≤ depthLimit - 3) : graph.Loaded := by
  intro id node found
  have one := authored id node found
  refine ⟨one.toTidy, ?_, by rw [one.plain]; exact .nil, by simp [one.plain]⟩
  intro name literal look
  exact ⟨(one.readable name _ look literal rfl).stored.canonical, shallow literal ⟨id, node, name, found, look⟩⟩

theorem Authored.reread (authored : graph.Authored) {again : Graph} (read : parse graph.toText = .ok again) :
    ∀ literal, graph.Holds literal → literal.Kept (again.same graph) := by
  obtain ⟨rest, done, _⟩ := Json.Read.whole_eq_ok ((parse_eq_ok_iff _ _).1 read)
  have yields := Document.workflow_yields 0 Json.Style.indented_blank graph
    (fun id node found => (authored id node found).plain)
    (fun id node found name literal look =>
      ((authored id node found).readable name _ look literal rfl).stored.canonical) [] again rest Json.Scan.stops_nil
  rw [List.append_assoc, Document.workflow_skipBlank Json.Style.indented_blank.space, List.append_nil] at yields
  rintro literal ⟨id, node, name, found, look⟩
  exact (yields (by simpa [toText, Json.indented] using done)).2 id node found name literal look

theorem Authored.round_trip (authored : graph.Authored) (each : ∀ literal, graph.Holds literal → literal.ComesBack) :
    parse graph.toText = .ok graph := by
  refine parse_toText (authored.loaded fun literal held => (each literal held).1) ?_
  intro x member
  obtain ⟨literal, held, inside⟩ := float_of_holds authored member
  exact (each literal held).2 _ inside

-- An equal workflow comes back exactly if all literals come back, and then it is the same one with its
-- nodes in their order. With a literal that stands too deep no workflow comes back at all.
theorem built_round_trip (built : Built graph) :
    ((∃ again, parse graph.toText = .ok again ∧ again.same graph = true) ↔
      ∀ literal, graph.Holds literal → literal.ComesBack) ∧
    ∀ again, parse graph.toText = .ok again →
      (∀ literal, graph.Holds literal → literal.depth ≤ depthLimit - 3) ∧
        (again.same graph = true → again = graph) := by
  have authored := built.authored
  have needed : ∀ again, parse graph.toText = .ok again → again.same graph = true →
      ∀ literal, graph.Holds literal → literal.ComesBack := by
    intro again read equal literal held
    have kept := authored.reread read literal held
    exact ⟨kept.depth_le, kept.readBack equal⟩
  refine ⟨⟨?_, fun each => ⟨graph, authored.round_trip each, graph.same_refl⟩⟩, ?_⟩
  · rintro ⟨again, read, equal⟩
    exact needed again read equal
  · intro again read
    refine ⟨fun literal held => (authored.reread read literal held).depth_le, ?_⟩
    intro equal
    exact Except.ok.inj (read.symm.trans (authored.round_trip (needed again read equal)))

def single (literal : Json) : Graph :=
  (Graph.empty.apply (.add "Blur" (Table.empty.insert "sigma" (.literal literal)) none)).1

theorem single_built {literal : Json} (readable : literal.Readable) : Built (single literal) := by
  refine .edited .new ?_
  intro name value found other same
  rw [Table.get?_insert] at found
  split at found
  · cases found; cases same; exact readable
  · cases found

theorem single_holds_iff {literal : Json} (plain : ¬ literal.LinkShaped) (other : Json) :
    (single literal).Holds other ↔ other = literal := by
  have normal : (InputValue.literal literal).normalized = .literal literal :=
    (InputValue.normal_literal_iff literal).2 plain
  constructor
  · rintro ⟨id, node, name, found, look⟩
    rw [single, apply, node?_add] at found
    split at found
    · cases found
      simp only [Node.input?, Option.bind_some, Table.get?_map, Table.get?_insert] at look
      split at look
      · exact InputValue.literal.inj ((Option.some.inj look).symm.trans normal)
      · cases look
    · cases found
  · rintro rfl
    exact ⟨Graph.empty.nextId, _, "sigma", by rw [single, apply, node?_add, if_pos rfl], by
      simp [Node.input?, Table.get?_map, Table.get?_insert, normal]⟩

theorem single_round_trip : Built (single (.array [.number half])) ∧
    ∃ again, parse (single (.array [.number half])).toText = .ok again ∧
      again.same (single (.array [.number half])) = true := by
  have stored : (Json.array [.number half]).Stored depthLimit :=
    ⟨by simp [Json.Canonical, Json.CanonicalItems], by decide⟩
  have back : ∀ n ∈ (Json.array [.number half]).numbers, n.ReadsBack := by decide +kernel
  have plain : ¬ (Json.array [.number half]).LinkShaped := by
    rintro ⟨_, _, same, _⟩
    cases same
  have built := single_built (stored.readable back)
  refine ⟨built, (built_round_trip built).1.2 ?_⟩
  intro literal held
  rw [(single_holds_iff plain literal).1 held]
  exact ⟨by decide, back⟩

def nested : Nat → Json
  | 0 => .array []
  | levels + 1 => .array [nested levels]

theorem nested_depth (levels : Nat) : (nested levels).depth = levels + 1 := by
  induction levels with
  | zero => rfl
  | succ levels ih => simp [nested, Json.depth, Json.depthOfItems, ih]

theorem nested_canonical (levels : Nat) : (nested levels).Canonical := by
  induction levels with
  | zero => simp [nested, Json.Canonical, Json.CanonicalItems]
  | succ levels ih => simp [nested, Json.Canonical, Json.CanonicalItems, ih]

theorem nested_numbers (levels : Nat) : (nested levels).numbers = [] := by
  induction levels with
  | zero => rfl
  | succ levels ih => simp [nested, Json.numbers, Json.numbersOfItems, ih]

theorem nested_plain (levels : Nat) : ¬ (nested levels).LinkShaped := by
  rintro ⟨_, _, same, _⟩
  cases levels <;> cases same

-- The float that is read from 1e-30. It is printed as 9.999999999999999e-31, which is read as the next one.
def faint : Number := .float ⟨false, 4158027847206421151, by decide⟩

theorem read?_faint : Json.read? "1e-30" = some (.number faint) := by
  have read : (Json.read? "1e-30").bind Json.number? = some faint := by decide +kernel
  obtain ⟨value, done, number⟩ := Option.bind_eq_some_iff.1 read
  cases value with
  | number n => cases number; exact done
  | _ => cases number

theorem faint_readable : (Json.number faint).Readable := ⟨_, read?_faint⟩

theorem buried_or_faint_lost :
    (Built (single (nested 124)) ∧ ∀ again, parse (single (nested 124)).toText ≠ .ok again) ∧
    Built (single (.number faint)) ∧ ∀ again, parse (single (.number faint)).toText = .ok again →
      again.same (single (.number faint)) = false := by
  have stored : (nested 124).Stored depthLimit := ⟨nested_canonical 124, by rw [nested_depth]; decide⟩
  have buried := single_built (stored.readable (by simp [nested_numbers]))
  have lost : ¬ faint.ReadsBack := by decide +kernel
  have pale := single_built faint_readable
  refine ⟨⟨buried, ?_⟩, pale, ?_⟩
  · intro again read
    have kept := buried.authored.reread read _ ((single_holds_iff (nested_plain 124) _).2 rfl)
    have deep := kept.depth_le
    rw [nested_depth] at deep
    exact absurd deep (by decide)
  · intro again read
    have plain : ¬ (Json.number faint).LinkShaped := by
      rintro ⟨_, _, same, _⟩
      cases same
    have kept := pale.authored.reread read _ ((single_holds_iff plain _).2 rfl)
    rw [Bool.eq_false_iff]
    intro equal
    exact lost (kept.readBack equal faint (by simp [Json.numbers]))

end Graph

end NodeFlow
