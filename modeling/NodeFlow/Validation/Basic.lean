import NodeFlow.Catalog.Store
import NodeFlow.Graph.Document
import NodeFlow.Validation.NodeRules
import NodeFlow.Validation.Report
import NodeFlow.Validation.Structure

namespace NodeFlow

namespace Graph

def emptyWorkflow : Issue := .error .emptyWorkflow "" "Workflow is empty"

def catalogIssues (graph : Graph) (snapshot : Snapshot) : List Issue :=
  graph.nodes.entries.flatMap fun (id, node) => NodeRules.issues graph snapshot id node

def validate (graph : Graph) (snapshot : Snapshot) : Report where
  issues :=
    if graph.isEmpty then [emptyWorkflow]
    else graph.structuralIssues ++ if snapshot.isLoaded then graph.catalogIssues snapshot else []
  nodeCount := graph.size
  checkedAgainstCatalog := snapshot.isLoaded

-- The validation of an empty workflow is not logged.
def validationEvents (graph : Graph) (report : Report) : List LogEvent :=
  if graph.isEmpty then []
  else [.validated report.nodeCount report.errors.length report.warnings.length
    report.checkedAgainstCatalog]

end Graph

-- A payload that cannot be read leaves the catalog empty.
def Snapshot.ofText (catalog : String) : Snapshot :=
  match Json.read? catalog with
  | some payload =>
    match Snapshot.ofPayload payload with
    | .ok snapshot => snapshot
    | .error _ => .empty
  | none => .empty

def validateTexts (workflow catalog : String) : Except Graph.LoadError (Graph × Report) :=
  match Graph.parse workflow with
  | .ok graph => .ok (graph, graph.validate (Snapshot.ofText catalog))
  | .error error => .error error

end NodeFlow
