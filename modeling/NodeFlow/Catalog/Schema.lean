import NodeFlow.Catalog.Kind
import NodeFlow.Json.Printer
import NodeFlow.Number.Float64
import NodeFlow.Table

namespace NodeFlow

structure InputSpec where
  name : String
  kind : InputKind
  required : Bool
  default : Option Json
  min : Option Float64
  max : Option Float64

structure NodeType where
  name : String
  category : String
  displayName : String
  description : String
  requiredInputs : Table InputSpec
  optionalInputs : Table InputSpec
  outputTypes : List String
  outputNames : List String

-- A document has no form for an infinity.
def boundJson : Float64 → Json
  | .finite x => .number (.float x)
  | _ => .null

def InputSpec.toJson (spec : InputSpec) : Json :=
  let member (name : String) (value : Option Json) : List (String × Json) :=
    match value with
    | some value => [(name, value)]
    | none => []
  .object (
    [("name", .string spec.name), ("kind", spec.kind.toJson), ("required", .bool spec.required)] ++
    member "default" spec.default ++
    member "min" (spec.min.map boundJson) ++
    member "max" (spec.max.map boundJson))

namespace NodeType

-- Required inputs come before optional ones of the same name.
def input? (schema : NodeType) (name : String) : Option InputSpec :=
  match schema.requiredInputs.get? name with
  | some spec => some spec
  | none => schema.optionalInputs.get? name

def outputCount (schema : NodeType) : Nat := schema.outputTypes.length

def outputType? (schema : NodeType) (slot : UInt64) : Option String :=
  schema.outputTypes[slot.toNat]?

def inputsJson (inputs : Table InputSpec) : Json :=
  .object (inputs.entries.map fun (name, spec) => (name, spec.toJson))

def toJson (schema : NodeType) : Json :=
  .object [
    ("classType", .string schema.name),
    ("category", .string schema.category),
    ("displayName", .string schema.displayName),
    ("description", .string schema.description),
    ("requiredInputs", inputsJson schema.requiredInputs),
    ("optionalInputs", inputsJson schema.optionalInputs),
    ("outputTypes", .array (schema.outputTypes.map Json.string)),
    ("outputNames", .array (schema.outputNames.map Json.string))]

end NodeType

end NodeFlow
