import NodeFlow.Json.Printer
import NodeFlow.Table

namespace NodeFlow

-- The linked node need not exist.
structure Link where
  source : String
  slot : UInt64
  deriving DecidableEq

inductive InputValue
  | linked (link : Link)
  | literal (value : Json)

namespace InputValue

-- A node id is written as text or as a number that has no sign and no fraction.
def idText? : Json → Option String
  | .string text => some text
  | .number value => value.word?.map fun word => String.ofList (Nat.toDigits 10 word.toNat)
  | _ => none

def linkShape? : Json → Option Link
  | .array [source, slot] => do some ⟨← idText? source, ← slot.word?⟩
  | _ => none

def ofJson (value : Json) : InputValue :=
  match linkShape? value with
  | some link => .linked link
  | none => .literal value

def toJson : InputValue → Json
  | .linked link => .array [.string link.source, .number (.ofWord link.slot)]
  | .literal value => value

def normalized : InputValue → InputValue
  | .linked link => .linked link
  | .literal value => ofJson value

def link? : InputValue → Option Link
  | .linked link => some link
  | .literal _ => none

def literal? : InputValue → Option Json
  | .linked _ => none
  | .literal value => some value

def same : InputValue → InputValue → Bool
  | .linked a, .linked b => a == b
  | .literal a, .literal b => a.same b
  | _, _ => false

theorem linkShape?_toJson (link : Link) : linkShape? (InputValue.linked link).toJson = some link := by
  simp [toJson, linkShape?, idText?, Json.word?, Json.number?, Number.word?_ofWord]

theorem ofJson_toJson_ofJson (value : Json) : ofJson (ofJson value).toJson = ofJson value := by
  unfold ofJson
  cases shape : linkShape? value with
  | some link => simp [linkShape?_toJson]
  | none => simp [toJson, shape]

theorem normalized_normalized (value : InputValue) :
    value.normalized.normalized = value.normalized := by
  cases value with
  | linked link => rfl
  | literal value =>
    show (ofJson value).normalized = ofJson value
    unfold ofJson
    cases shape : linkShape? value with
    | some link => rfl
    | none => simp [normalized, ofJson, shape]

end InputValue

abbrev Inputs := Table InputValue

structure Metadata where
  title : Option String
  deriving DecidableEq

-- The class type and the inputs may be missing, so that a record without them can be reported.
structure Node where
  classField : Option String
  inputs : Option Inputs
  metadata : Option Metadata
  -- Members of the record that have no meaning here, in ascending order of names.
  extra : List (String × Json)

namespace Node

-- An empty class type counts as none.
def classType (node : Node) : Option String := node.classField.filter fun name => !name.isEmpty

def title (node : Node) : Option String := node.metadata.bind Metadata.title

def inputEntries (node : Node) : List (String × InputValue) :=
  (node.inputs.map Table.entries).getD []

def input? (node : Node) (name : String) : Option InputValue :=
  node.inputs.bind fun inputs => inputs.get? name

def links (node : Node) : List (String × Link) :=
  node.inputEntries.filterMap fun (name, value) => value.link?.map fun link => (name, link)

-- Equality does not see the order of inputs; missing and empty inputs differ.
def same (a b : Node) : Bool :=
  a.classField == b.classField &&
  (match a.inputs, b.inputs with
    | none, none => true
    | some a, some b => Table.sameEntries InputValue.same a b
    | _, _ => false) &&
  a.metadata == b.metadata && Json.sameMembers a.extra b.extra

def inputsJson (inputs : Inputs) : Json :=
  .object (inputs.entries.map fun (name, value) => (name, value.toJson))

def metadataJson (metadata : Metadata) : Json :=
  .object (match metadata.title with
    | some title => [("title", .string title)]
    | none => [])

def toJson (node : Node) : Json :=
  let classMember := match node.classField with
    | some name => [("class_type", Json.string name)]
    | none => []
  let inputsMember := match node.inputs with
    | some inputs => [("inputs", inputsJson inputs)]
    | none => []
  let metadataMember := match node.metadata with
    | some metadata => [("_meta", metadataJson metadata)]
    | none => []
  .object (classMember ++ inputsMember ++ metadataMember ++ node.extra)

end Node

structure Graph where
  nodes : Table Node

namespace Graph

def empty : Graph := ⟨.empty⟩

def ids (graph : Graph) : List String := graph.nodes.names

def size (graph : Graph) : Nat := graph.nodes.size

def isEmpty (graph : Graph) : Bool := graph.nodes.isEmpty

def node? (graph : Graph) (id : String) : Option Node := graph.nodes.get? id

def contains (graph : Graph) (id : String) : Bool := graph.nodes.contains id

def same (a b : Graph) : Bool := Table.sameEntries Node.same a.nodes b.nodes

def toJson (graph : Graph) : Json :=
  .object (graph.nodes.entries.map fun (id, node) => (id, node.toJson))

def toText (graph : Graph) : String := graph.toJson.indented

end Graph

end NodeFlow
