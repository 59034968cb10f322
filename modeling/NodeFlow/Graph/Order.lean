import NodeFlow.Graph.Links

namespace NodeFlow.LinkGraph

structure Search where
  seen : List String
  -- Vertices to look at, and vertices whose visit is not finished.
  stack : List String
  finished : List String

-- Looks at the top of the stack: a new vertex stays there under its successors, of which the one of
-- the earliest edge is the next top; a seen one is finished. None if a vertex links to itself.
def visit (links : LinkGraph) (search : Search) : Option Search :=
  match search.stack with
  | [] => some search
  | top :: below =>
    if top ∈ search.seen then
      let finished := if top ∈ search.finished then search.finished else top :: search.finished
      some { search with stack := below, finished }
    else if top ∈ links.successors top then none
    else
      let seen := top :: search.seen
      let pushed := (links.successors top).filter fun next => !seen.contains next
      some { search with seen, stack := pushed.reverse ++ top :: below }

def visitAll (links : LinkGraph) : Nat → Search → Option Search
  | 0, search => if search.stack.isEmpty then some search else none
  | fuel + 1, search =>
    if search.stack.isEmpty then some search
    else match links.visit search with
      | some next => links.visitAll fuel next
      | none => none

-- Every look either marks a vertex or takes away one of the entries pushed for a vertex or an edge.
def fuel (links : LinkGraph) : Nat := 2 * links.vertices.length + links.edges.length + 1

def searchFrom (links : LinkGraph) : List String → Search → Option Search
  | [], search => some search
  | vertex :: rest, search =>
    if vertex ∈ search.seen then links.searchFrom rest search
    else match links.visitAll links.fuel { search with stack := [vertex] } with
      | some next => links.searchFrom rest next
      | none => none

-- The next new vertex of a walk against the edges, as the vertices met with it and what is left on the
-- stack. None if the stack holds no new vertex.
def stepBack (links : LinkGraph) (met : List String) : List String → Option (List String × List String)
  | [] => none
  | top :: below =>
    if top ∈ met then links.stepBack met below
    else
      let met := top :: met
      some (met, (links.sources top).filter (fun source => !met.contains source) ++ below)

-- Walks back from each vertex of an order in turn. With all sources placed before it, a vertex is the
-- only new one of its walk; a second one lies on a cycle.
def walksAlone (links : LinkGraph) (met : List String) : List String → Bool
  | [] => true
  | vertex :: rest =>
    match links.stepBack met [vertex] with
    | none => links.walksAlone met rest
    | some (met, stack) => (links.stepBack met stack).isNone && links.walksAlone met rest

def executionOrder? (links : LinkGraph) : Option (List String) :=
  match links.searchFrom links.vertices ⟨[], [], []⟩ with
  | some search => if links.walksAlone [] search.finished then some search.finished else none
  | none => none

end NodeFlow.LinkGraph
