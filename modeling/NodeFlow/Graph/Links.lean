import NodeFlow.Graph.Basic

namespace NodeFlow

structure Edge where
  source : String
  slot : UInt64
  target : String
  input : String
  deriving DecidableEq

structure LinkGraph where
  vertices : List String
  edges : List Edge

namespace LinkGraph

-- Targets of the edges out of a vertex, the latest edge first.
def successors (links : LinkGraph) (id : String) : List String :=
  ((links.edges.filter fun edge => edge.source == id).map Edge.target).reverse

def sources (links : LinkGraph) (id : String) : List String :=
  (links.edges.filter fun edge => edge.target == id).map Edge.source

def insertName (name : String) : List String → List String
  | [] => [name]
  | other :: rest =>
    if name = other then other :: rest
    else if Text.Precedes name other then name :: other :: rest
    else other :: insertName name rest

def ascending (names : List String) : List String := names.foldr insertName []

def suppliers (links : LinkGraph) (id : String) : List String :=
  if id ∈ links.vertices then ascending (links.sources id) else []

def consumers (links : LinkGraph) (id : String) : List String :=
  if id ∈ links.vertices then ascending (links.successors id) else []

end LinkGraph

namespace Graph

def edgesInto (graph : Graph) (target : String) (node : Node) : List Edge :=
  node.links.filterMap fun (input, link) =>
    if graph.contains link.source then some ⟨link.source, link.slot, target, input⟩ else none

def linkGraph (graph : Graph) : LinkGraph :=
  ⟨graph.ids, graph.nodes.entries.flatMap fun (id, node) => graph.edgesInto id node⟩

end Graph

end NodeFlow
