import NodeFlow.Graph.Basic
import NodeFlow.Validation.Issue

namespace NodeFlow.Graph

def missingClassType (id : String) : Issue :=
  .error .missingClassType id ("Node '" ++ id ++ "' is missing 'class_type'")

def missingInputs (id : String) : Issue :=
  .error .missingInputs id ("Node '" ++ id ++ "' is missing 'inputs'")

def danglingLink (id input : String) (link : Link) : Issue :=
  .error .linkValidity id
    ("Node '" ++ id ++ "' input '" ++ input ++ "' links to non-existent node '" ++ link.source ++ "'")

def danglingIssues (graph : Graph) (id : String) (node : Node) : List Issue :=
  node.links.filterMap fun (input, link) =>
    if graph.contains link.source then none else some (danglingLink id input link)

def structuralIssuesOf (graph : Graph) (id : String) (node : Node) : List Issue :=
  (if node.classType.isNone then [missingClassType id] else []) ++
    if node.inputs.isNone then [missingInputs id] else graph.danglingIssues id node

def structuralIssues (graph : Graph) : List Issue :=
  graph.nodes.entries.flatMap fun (id, node) => graph.structuralIssuesOf id node

def selfCheck (graph : Graph) : Bool × List Issue :=
  (graph.structuralIssues.isEmpty, graph.structuralIssues)

end NodeFlow.Graph
