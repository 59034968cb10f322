import NodeFlow.Catalog.Schema

namespace NodeFlow

inductive PayloadError
  | notAnObject
  | entryNotAnObject (name : String)
  deriving DecidableEq

def PayloadError.detail : PayloadError → String
  | .notAnObject => "payload is not a JSON object"
  | .entryNotAnObject name => "entry '" ++ name ++ "' is not a JSON object"

def PayloadError.message (error : PayloadError) : String :=
  "malformed schema payload: " ++ error.detail

namespace Payload

abbrev Members := List (String × Json)

def member? (members : Members) (name : String) : Option Json := members.lookup name

def unknownTag : String := "UNKNOWN"

-- Values other than texts stand for their own document text.
def optionText : Json → String
  | .string text => text
  | value => value.compact

def outputTag : Json → String
  | .string tag => tag
  | .array _ => InputKind.choiceTag
  | value => value.compact

-- The kind by the first element of an input's declaration; a list of options may stand there or
-- among the constraints.
def kindOf (first : Json) (constraints : Members) : InputKind :=
  match first with
  | .string tag =>
    if tag = InputKind.choiceTag then
      match (member? constraints "options").bind Json.array? with
      | some options => .choice (options.map optionText)
      | none => .reference tag
    else .ofTag tag
  | .array options => .choice (options.map optionText)
  | _ => .reference unknownTag

def boundOf (constraints : Members) (name : String) : Option Float64 :=
  ((member? constraints name).bind Json.number?).map fun number => .finite number.toBinary64

def parseInput (name : String) (declaration : Json) (required : Bool) : InputSpec :=
  match declaration with
  | .array (first :: rest) =>
    let constraints := (rest.head?.bind Json.object?).getD []
    let kind := kindOf first constraints
    let bound (which : String) := if kind.isNumeric then boundOf constraints which else none
    ⟨name, kind, required, member? constraints "default", bound "min", bound "max"⟩
  | _ => ⟨name, .reference unknownTag, required, none, none, none⟩

def textOf? (info : Members) (name : String) : Option String :=
  (member? info name).bind Json.string?

def listOf (info : Members) (name : String) : List Json :=
  ((member? info name).bind Json.array?).getD []

def inputSection (info : Members) (name : String) (required : Bool) : Table InputSpec :=
  let sections := ((member? info "input").bind Json.object?).getD []
  let inputs := ((member? sections name).bind Json.object?).getD []
  .ofList (inputs.map fun (input, declaration) => (input, parseInput input declaration required))

def parseEntry (name : String) (info : Members) : NodeType where
  name := name
  category := (textOf? info "category").getD ""
  displayName := (textOf? info "display_name").getD name
  description := (textOf? info "description").getD ""
  requiredInputs := inputSection info "required" true
  optionalInputs := inputSection info "optional" false
  outputTypes := (listOf info "output").map outputTag
  outputNames := (listOf info "output_name").filterMap Json.string?

-- The first entry that is no object is the one named.
def parseEntries : Members → Table NodeType → Except PayloadError (Table NodeType)
  | [], done => .ok done
  | (name, info) :: rest, done =>
    match info with
    | .object members => parseEntries rest (done.insert name (parseEntry name members))
    | _ => .error (.entryNotAnObject name)

def parse (payload : Json) : Except PayloadError (Table NodeType) :=
  match payload with
  | .object entries => parseEntries entries .empty
  | _ => .error .notAnObject

end Payload

end NodeFlow
