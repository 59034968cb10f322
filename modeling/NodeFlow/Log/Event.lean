import NodeFlow.Log.Level
import NodeFlow.Text.Lines

namespace NodeFlow

inductive LogEvent
  | catalogFresh
  | fetching (url : String)
  | refreshed (url : String) (types : Nat)
  | refreshFailed (url error : String)
  | validated (nodes errors warnings : Nat) (checked : Bool)
  | extracted (nodes : Nat)
  | nothingExtracted
  | hostIgnored (host catalog : String)
  deriving DecidableEq

namespace LogEvent

def level : LogEvent → LogLevel
  | .refreshed .. => .info
  | .refreshFailed .. => .warn
  | _ => .debug

def target : LogEvent → String
  | .catalogFresh | .fetching _ | .refreshed .. | .refreshFailed .. => "workflow_check::catalog"
  | .validated .. => "workflow_check::validate"
  | .extracted _ | .nothingExtracted => "workflow_check::graph::extract"
  | .hostIgnored .. => "workflow_check"

def message : LogEvent → String
  | .catalogFresh => "schema catalog is fresh, skipping fetch"
  | .fetching _ => "fetching node schemas"
  | .refreshed .. => "schema catalog refreshed"
  | .refreshFailed .. => "schema catalog refresh failed, keeping previous snapshot"
  | .validated .. => "workflow validated"
  | .extracted _ => "extracted workflow from text"
  | .nothingExtracted => "no workflow found in text"
  | .hostIgnored .. => "using saved catalog, host ignored"

def fields : LogEvent → List (String × String)
  | .catalogFresh | .nothingExtracted => []
  | .fetching url => [("url", url)]
  | .refreshed url types => [("url", url), ("node_types", toString types)]
  | .refreshFailed url error => [("url", url), ("error", error)]
  | .validated nodes errors warnings checked =>
    [("nodes", toString nodes), ("errors", toString errors), ("warnings", toString warnings),
      ("checked_against_catalog", if checked then "true" else "false")]
  | .extracted nodes => [("nodes", toString nodes)]
  | .hostIgnored host catalog => [("host", host), ("catalog", catalog)]

-- The message counts as a field.
def fieldNames (event : LogEvent) : List String := "message" :: event.fields.map Prod.fst

def line (event : LogEvent) : String :=
  event.level.label ++ " " ++ event.target ++ ": " ++ event.message ++
    String.join (event.fields.map fun (key, value) => " " ++ key ++ "=" ++ value)

def text (events : List LogEvent) : String :=
  String.join (events.map fun event => event.line ++ "\n")

def lines (events : List LogEvent) : List String := Text.lines (text events)

end LogEvent

end NodeFlow
