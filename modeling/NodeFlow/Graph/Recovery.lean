import NodeFlow.Graph.Document
import NodeFlow.Log.Event
import NodeFlow.Text.Fence

namespace NodeFlow.Graph

def looksLikeWorkflow (value : Json) : Bool :=
  match value with
  | .object members => members.any fun (_, member) =>
    match member with
    | .object fields => fields.any fun (name, _) => name == "class_type"
    | _ => false
  | _ => false

def ofCandidate? (candidate : List Char) : Option Graph :=
  match Json.read? (String.ofList candidate) with
  | some value =>
    if looksLikeWorkflow value then (parse (String.ofList candidate)).toOption else none
  | none => none

def candidates (text : String) : List (List Char) :=
  Text.blocks Text.jsonFence text.toList ++ Text.blocks Text.fence text.toList ++ [text.toList]

def extract? (text : String) : Option Graph := (candidates text).findSome? ofCandidate?

def extractEvent : Option Graph → LogEvent
  | some graph => .extracted graph.size
  | none => .nothingExtracted

def extractedValue? (text : String) : Option Json := (extract? text).map fun graph => graph.toJson.sorted

end NodeFlow.Graph
