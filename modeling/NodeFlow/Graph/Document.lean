import NodeFlow.Graph.Basic
import NodeFlow.Json.Reader
import NodeFlow.Json.Skim

namespace NodeFlow.Graph

namespace Document

open NodeFlow.Json NodeFlow.Json.Scan NodeFlow.Json.Read

-- Stops at a value that has not the wanted shape. Words, numbers and strings are read, so that their
-- own mistakes come first; a bracket is left unread.
def mismatch {α : Type} (wanted : Wanted) (c : Char) (rest : List Char) : Except Failure α :=
  if c = 'n' then do
    let rest ← word ['u', 'l', 'l'] rest
    .error (.behind (.wrongShape .null wanted) rest)
  else if c = 't' then do
    let rest ← word ['r', 'u', 'e'] rest
    .error (.behind (.wrongShape (.bool true) wanted) rest)
  else if c = 'f' then do
    let rest ← word ['a', 'l', 's', 'e'] rest
    .error (.behind (.wrongShape (.bool false) wanted) rest)
  else if c = '-' || c.isDigit then do
    let (found, rest) ← Scan.number (c :: rest)
    .error (.behind (.wrongShape (.number found) wanted) rest)
  else if c = '"' then do
    let (found, rest) ← stringBody rest
    .error (.behind (.wrongShape (.string found) wanted) rest)
  else if c = '[' then .error (.behind (.wrongShape .list wanted) (c :: rest))
  else if c = '{' then .error (.behind (.wrongShape .object wanted) (c :: rest))
  else .error (.next .valueExpected (c :: rest))

def optional {α : Type} (reader : Char → Reader α) : Reader (Option α) := fun text =>
  match skipBlank text with
  | [] => .error (.next .endInValue [])
  | c :: rest =>
    if c = 'n' then do
      let rest ← word ['u', 'l', 'l'] rest
      .ok (none, rest)
    else do
      let (found, rest) ← reader c rest
      .ok (some found, rest)

def optionalText : Reader (Option String) :=
  optional fun c rest => if c = '"' then stringBody rest else mismatch .text c rest

-- A record is left behind the name that it repeats, and behind its brace if that comes next.
def repeated {α : Type} (name : String) (text : List Char) : Except Failure α :=
  match skipBlank text with
  | '}' :: rest => .error (.behind (.repeatedField name) rest)
  | rest => .error (.behind (.repeatedField name) rest)

def once {α : Type} (seen : Option α) (name : String) (reader : Reader α) : Reader α := fun text =>
  match seen with
  | some _ => repeated name text
  | none => do
    let rest ← colon text
    reader rest

def inputsField : FieldReader Inputs :=
  keptField (Read.value (depthLimit - 3)) fun inputs name value =>
    inputs.insert name (InputValue.ofJson value)

def optionalInputs : Reader (Option Inputs) :=
  optional fun c rest =>
    if c = '{' then members inputsField .empty rest else mismatch .mapping c rest

def titleField : FieldReader (Option (Option String)) := fun seen name text =>
  if name = "title" then do
    let (title, rest) ← once seen name optionalText text
    .ok (some title, rest)
  else do
    let rest ← colon text
    let rest ← Skim.value rest
    .ok (seen, rest)

def endOfList (text : List Char) : Except Failure (List Char) :=
  match skipBlank text with
  | [] => .error (.next .endInList [])
  | c :: rest =>
    if c = ']' then .ok rest
    else if c = ',' then
      match skipBlank rest with
      | ']' :: rest => .error (.next .trailingComma (']' :: rest))
      | rest => .error (.next .trailingText rest)
    else .error (.next .trailingText (c :: rest))

-- Metadata may be written as the list of its title.
def listedTitle (text : List Char) : Except Failure (Option String × List Char) :=
  match skipBlank text with
  | [] => .error (.next .endInList [])
  | c :: rest =>
    if c = ']' then .ok (none, rest)
    else do
      let (title, rest) ← optionalText (c :: rest)
      let rest ← endOfList rest
      .ok (title, rest)

def optionalMetadata : Reader (Option Metadata) :=
  optional fun c rest =>
    if c = '{' then do
      let (title, rest) ← members titleField none rest
      .ok (⟨title.join⟩, rest)
    else if c = '[' then do
      let (title, rest) ← listedTitle rest
      .ok (⟨title⟩, rest)
    else mismatch (.record "NodeMeta") c rest

-- What is read of a record so far; a member that was read as null was read.
structure Draft where
  classField : Option (Option String)
  inputs : Option (Option Inputs)
  metadata : Option (Option Metadata)
  extra : List (String × Json)

def Draft.empty : Draft := ⟨none, none, none, []⟩

def Draft.node (draft : Draft) : Node :=
  ⟨draft.classField.join, draft.inputs.join, draft.metadata.join, draft.extra⟩

def recordField : FieldReader Draft := fun draft name text =>
  if name = "class_type" then do
    let (found, rest) ← once draft.classField name optionalText text
    .ok ({ draft with classField := some found }, rest)
  else if name = "inputs" then do
    let (found, rest) ← once draft.inputs name optionalInputs text
    .ok ({ draft with inputs := some found }, rest)
  else if name = "_meta" then do
    let (found, rest) ← once draft.metadata name optionalMetadata text
    .ok ({ draft with metadata := some found }, rest)
  else
    keptField (Read.value (depthLimit - 2))
      (fun draft name value => { draft with extra := insertMember name value draft.extra })
      draft name text

def braced {σ : Type} (wanted : Wanted) (field : FieldReader σ) (start : σ) : Reader σ := fun text =>
  match skipBlank text with
  | [] => .error (.next .endInValue [])
  | c :: rest => if c = '{' then members field start rest else mismatch wanted c rest

def record : Reader Node := fun text => do
  let (draft, rest) ← braced (.record "NodeInstance") recordField .empty text
  .ok (draft.node, rest)

-- A repeated id keeps its first place and takes its last record.
def nodeField : FieldReader (Table Node) := fun nodes id text => do
  let rest ← colon text
  let (node, rest) ← record rest
  .ok (nodes.insert id node, rest)

def workflow : Reader Graph := fun text => do
  let (nodes, rest) ← braced .mapping nodeField .empty text
  .ok (⟨nodes⟩, rest)

end Document

inductive LoadError
  | malformed (mistake : Json.Mistake)
  | notAWorkflow
  deriving DecidableEq

def LoadError.message : LoadError → String
  | .malformed mistake => "failed to parse workflow JSON: " ++ mistake.message
  | .notAWorkflow => "text is valid JSON but not a mapping of node ids to node records"

def parse (text : String) : Except LoadError Graph :=
  match Json.Read.whole Document.workflow text.toList with
  | .ok graph => .ok graph
  | .error failure =>
    if Json.Skim.accepts text.toList then .error .notAWorkflow
    else .error (.malformed (failure.mistake text.toList))

end NodeFlow.Graph
