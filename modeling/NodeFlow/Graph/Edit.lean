import NodeFlow.Graph.Document
import NodeFlow.Graph.FreshId

namespace NodeFlow

-- A node without inputs gets them with its first one.
def Node.setInput (node : Node) (name : String) (value : InputValue) : Node :=
  { node with inputs := some ((node.inputs.getD .empty).insert name value) }

def Node.dropLinksTo (node : Node) (id : String) : Node :=
  { node with inputs := node.inputs.map fun inputs =>
      inputs.filter fun _ value => match value with
        | .linked link => link.source != id
        | .literal _ => true }

namespace Graph

-- The title of a new node is its class type unless one is given.
def add (graph : Graph) (classType : String) (inputs : Inputs) (title : Option String) :
    String × Graph :=
  let id := graph.nextId
  let node : Node :=
    ⟨some classType, some (inputs.map fun _ value => value.normalized),
      some ⟨some (title.getD classType)⟩, []⟩
  (id, ⟨graph.nodes.insert id node⟩)

def remove? (graph : Graph) (id : String) : Option Graph :=
  if graph.contains id then
    some ⟨(graph.nodes.erase id).map fun _ node => node.dropLinksTo id⟩
  else none

def setInput? (graph : Graph) (id name : String) (value : InputValue) : Option Graph :=
  (graph.node? id).map fun node => ⟨graph.nodes.insert id (node.setInput name value)⟩

-- The source of the link need not exist.
def connect? (graph : Graph) (link : Link) (target input : String) : Option Graph :=
  graph.setInput? target input (.linked link)

def modify? (graph : Graph) (id input : String) (value : InputValue) : Option Graph :=
  graph.setInput? id input value.normalized

def idsOfType (graph : Graph) (classType : String) : List String :=
  (graph.nodes.entries.filter fun (_, node) => node.classField == some classType).map Prod.fst

end Graph

inductive Edit
  | clear
  | load (text : String)
  | add (classType : String) (inputs : Inputs) (title : Option String)
  | remove (id : String)
  | connect (link : Link) (target input : String)
  | modify (id input : String) (value : InputValue)

inductive Edit.Outcome
  | done
  | added (id : String)
  | refused
  | unreadable (error : Graph.LoadError)

namespace Graph

def settled (graph : Graph) : Option Graph → Graph × Edit.Outcome
  | some next => (next, .done)
  | none => (graph, .refused)

def apply (graph : Graph) : Edit → Graph × Edit.Outcome
  | .clear => (.empty, .done)
  | .load text =>
    match Graph.parse text with
    | .ok next => (next, .done)
    | .error error => (graph, .unreadable error)
  | .add classType inputs title =>
    let (id, next) := graph.add classType inputs title
    (next, .added id)
  | .remove id => graph.settled (graph.remove? id)
  | .connect link target input => graph.settled (graph.connect? link target input)
  | .modify id input value => graph.settled (graph.modify? id input value)

end Graph

end NodeFlow
