import NodeFlow.Json.Basic

namespace NodeFlow

inductive Severity
  | error
  | warning
  deriving DecidableEq

def Severity.name : Severity → String
  | .error => "error"
  | .warning => "warning"

inductive Check
  | emptyWorkflow
  | missingClassType
  | missingInputs
  | linkValidity
  | typeExists
  | requiredInputs
  | slotRange
  | typeCompatibility
  | valueRange
  | enumeratedChoice
  deriving DecidableEq

namespace Check

def name : Check → String
  | .emptyWorkflow => "empty-workflow"
  | .missingClassType => "missing-class-type"
  | .missingInputs => "missing-inputs"
  | .linkValidity => "link-validity"
  | .typeExists => "type-exists"
  | .requiredInputs => "required-inputs"
  | .slotRange => "slot-range"
  | .typeCompatibility => "type-compatibility"
  | .valueRange => "value-range"
  | .enumeratedChoice => "enumerated-choice"

def all : List Check :=
  [.emptyWorkflow, .missingClassType, .missingInputs, .linkValidity, .typeExists, .requiredInputs,
    .slotRange, .typeCompatibility, .valueRange, .enumeratedChoice]

def ofName? (name : String) : Option Check := all.find? fun check => check.name == name

def isStructural : Check → Bool
  | .emptyWorkflow | .missingClassType | .missingInputs | .linkValidity => true
  | _ => false

end Check

structure Issue where
  check : Check
  -- Empty for issues of the whole workflow.
  nodeId : String
  message : String
  severity : Severity
  suggestion : Option String
  deriving DecidableEq

namespace Issue

def error (check : Check) (nodeId message : String) : Issue := ⟨check, nodeId, message, .error, none⟩

def warning (check : Check) (nodeId message : String) : Issue :=
  ⟨check, nodeId, message, .warning, none⟩

def isError (issue : Issue) : Bool := issue.severity == .error

def display (issue : Issue) : String :=
  "[" ++ issue.severity.name ++ ":" ++ issue.check.name ++ "] " ++ issue.message ++
    match issue.suggestion with
    | some name => " (did you mean '" ++ name ++ "'?)"
    | none => ""

def toJson (issue : Issue) : Json :=
  .object (
    [("check", .string issue.check.name), ("nodeId", .string issue.nodeId),
      ("message", .string issue.message), ("severity", .string issue.severity.name)] ++
    match issue.suggestion with
    | some name => [("suggestion", .string name)]
    | none => [])

end Issue

end NodeFlow
