import NodeFlow.Catalog.Snapshot
import NodeFlow.Graph.Basic
import NodeFlow.Validation.Issue

namespace NodeFlow.NodeRules

-- Suggestions that are considered for an unknown class type; the best one is shown.
def suggestionLimit : Nat := 3

def decimal (n : Nat) : String := String.ofList (Nat.toDigits 10 n)

variable (graph : Graph) (snapshot : Snapshot) (id : String)

def called (classType : String) : String := "Node '" ++ id ++ "' (" ++ classType ++ ")"

def inputOf (input : String) : String := "Node '" ++ id ++ "' input '" ++ input ++ "'"

def typeExists (classType : String) : List Issue :=
  if snapshot.knows classType then []
  else
    let issue := Issue.error .typeExists id
      ("Node '" ++ id ++ "' uses unknown type '" ++ classType ++ "'")
    [{ issue with suggestion := (snapshot.suggestSimilar classType suggestionLimit).head? }]

def requiredInputs (node : Node) (schema : NodeType) : List Issue :=
  schema.requiredInputs.names.filterMap fun name =>
    match node.input? name with
    | some _ => none
    | none => some (.error .requiredInputs id
        (called id schema.name ++ " missing required input '" ++ name ++ "'"))

def sourceClass? (link : Link) : Option String := (graph.node? link.source).bind Node.classType

def slotIssue? (input : String) (link : Link) : Option Issue := do
  let source ← sourceClass? graph link
  let schema ← snapshot.type? source
  if schema.outputCount ≤ link.slot.toNat then
    some (.error .slotRange id
      (inputOf id input ++ " uses slot " ++ decimal link.slot.toNat ++ " from node '" ++
        link.source ++ "' (" ++ source ++ "), but it only has " ++ decimal schema.outputCount ++
        " output(s)"))
  else none

def slotRange (node : Node) : List Issue :=
  node.links.filterMap fun (input, link) => slotIssue? graph snapshot id input link

-- A warning only: the host converts between some types.
def compatibilityIssue? (schema : NodeType) (input : String) (link : Link) : Option Issue := do
  let source ← sourceClass? graph link
  let produced ← snapshot.outputType? source link.slot
  let spec ← schema.input? input
  let expected := spec.kind.tag
  if spec.kind.isWildcard || produced == InputKind.wildcardTag || produced == expected then none
  else some (.warning .typeCompatibility id
    (inputOf id input ++ " expects '" ++ expected ++ "' but receives '" ++ produced ++
      "' from node '" ++ link.source ++ "' slot " ++ decimal link.slot.toNat))

def typeCompatibility (node : Node) (schema : NodeType) : List Issue :=
  node.links.filterMap fun (input, link) => compatibilityIssue? graph snapshot id schema input link

def literalInputs (node : Node) (schema : NodeType) : List (InputSpec × Json) :=
  node.inputEntries.filterMap fun (name, value) => do
    let literal ← value.literal?
    some (← schema.input? name, literal)

def rangeIssue (schema : NodeType) (spec : InputSpec) (literal : Json) (which : String)
    (bound : Float64) : Issue :=
  .warning .valueRange id
    (called id schema.name ++ " " ++ spec.name ++ "=" ++ literal.compact ++ ", " ++ which ++ " is " ++
      String.ofList bound.message)

-- Numbers are compared as floats.
def rangeIssues (schema : NodeType) (spec : InputSpec) (literal : Json) : List Issue :=
  match literal.number? with
  | none => []
  | some number =>
    let value := number.toBinary64
    let below := match spec.min with
      | some min => if min.isAbove value then [rangeIssue id schema spec literal "minimum" min] else []
      | none => []
    let above := match spec.max with
      | some max => if max.isBelow value then [rangeIssue id schema spec literal "maximum" max] else []
      | none => []
    below ++ above

def valueRange (node : Node) (schema : NodeType) : List Issue :=
  (literalInputs node schema).flatMap fun (spec, literal) => rangeIssues id schema spec literal

-- An empty list of options allows everything.
def choiceIssue? (schema : NodeType) (spec : InputSpec) (literal : Json) : Option Issue := do
  let options ← spec.kind.options?
  let chosen ← literal.string?
  if options.isEmpty || options.contains chosen then none
  else some (.warning .enumeratedChoice id
    (called id schema.name ++ " " ++ spec.name ++ "='" ++ chosen ++ "' not in allowed values"))

-- Warnings only: options that are files may have come up since.
def enumeratedChoice (node : Node) (schema : NodeType) : List Issue :=
  (literalInputs node schema).filterMap fun (spec, literal) => choiceIssue? id schema spec literal

def issues (node : Node) : List Issue :=
  match node.classType with
  | none => []
  | some classType =>
    match snapshot.type? classType with
    | none => typeExists snapshot id classType ++ slotRange graph snapshot id node
    | some schema =>
      typeExists snapshot id classType ++ requiredInputs id node schema ++
        slotRange graph snapshot id node ++ typeCompatibility graph snapshot id node schema ++
        valueRange id node schema ++ enumeratedChoice id node schema

end NodeFlow.NodeRules
