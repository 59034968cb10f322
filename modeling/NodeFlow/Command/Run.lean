import NodeFlow.Address.Client
import NodeFlow.Command.Arguments
import NodeFlow.Command.Folder
import NodeFlow.Graph.Order
import NodeFlow.Graph.Recovery
import NodeFlow.Log.Filter
import NodeFlow.Validation.Basic

namespace NodeFlow.Command

structure Environment where
  file : String → Except FileError String
  stdin : String
  host : Option String
  -- What is answered to a request for a URL, and the client that makes it.
  ask : String → Reply
  client : Client := .web
  logFilter : LogFilter

structure Output where
  code : UInt32
  stdout : String
  stderr : String
  deriving DecidableEq

structure Trouble where
  context : String
  causes : List String

-- Lines of a cause are indented like its first one.
def indentedCause (first other cause : String) : String :=
  "\n" ++ first ++ ("\n" ++ other).intercalate (cause.splitOn "\n")

-- A single cause has no number, and several are counted from zero.
def numberedCauses (number : Nat) : List String → String
  | [] => ""
  | cause :: rest =>
    let label := toString number
    let padding := String.ofList (List.replicate (5 - label.length) ' ')
    indentedCause (padding ++ label ++ ": ") "       " cause ++ numberedCauses (number + 1) rest

def Trouble.render (trouble : Trouble) : String :=
  "Error: " ++ trouble.context ++
    (match trouble.causes with
      | [] => ""
      | [cause] => "\n\nCaused by:" ++ indentedCause "    " "    " cause
      | causes => "\n\nCaused by:" ++ numberedCauses 0 causes) ++ "\n"

def Trouble.output (trouble : Trouble) (messages : String) : Output :=
  ⟨1, "", messages ++ trouble.render⟩

-- A path goes on from a directory to the directory itself.
def staysThere : List Char → Bool
  | [] => true
  | '/' :: '.' :: rest => (rest.isEmpty || rest.head? == some '/') && staysThere rest
  | '/' :: rest => staysThere rest
  | _ => false

def isStandardInput (path : String) : Bool :=
  match path.toList with
  | '-' :: rest => staysThere rest
  | _ => false

-- The standard input is used up by the first reading.
def readInput (env : Environment) (path : String) : Except Trouble (String × Environment) :=
  if isStandardInput path then .ok (env.stdin, { env with stdin := "" })
  else match env.file path with
    | .ok text => .ok (text, env)
    | .error error => .error ⟨"failed to read " ++ path, [error.message]⟩

def loadTrouble (path : String) (error : Graph.LoadError) : Trouble :=
  ⟨"failed to parse workflow file: " ++ path,
    match error with
    | .malformed mistake => [error.message, mistake.message]
    | .notAWorkflow => [error.message]⟩

def loadWorkflow (env : Environment) (path : String) : Except Trouble (Graph × Environment) := do
  let (text, env) ← readInput env path
  match Graph.parse text with
  | .ok graph => .ok (graph, env)
  | .error error => .error (loadTrouble path error)

def storeFor (env : Environment) (host : Option String) : Store :=
  let config := match host with
    | some host => { Store.Config.default with baseUrl := host }
    | none => .default
  .new config env.client

-- A saved payload, which unlike a host's must be right. It is put in place like a fetched one; that the
-- clock is read as 0 has no part in what follows.
def loadCatalog (env : Environment) (store : Store) (path : String) : Except Trouble Store := do
  let (text, _) ← readInput env path
  match Json.read text with
  | .error failure =>
    .error ⟨"failed to parse schema payload: " ++ path, [(failure.mistake text.toList).message]⟩
  | .ok payload =>
    match store.load 0 payload with
    | .ok (_, store) => .ok store
    | .error error => .error ⟨"invalid schema payload: " ++ path, [error.message]⟩

-- A host that gives no node types is reported, and the catalog stays empty. A new store asks its
-- host whatever the clock says.
def askHost (env : Environment) (store : Store) : Store × String :=
  let url := store.config.schemaUrl
  let refreshed := store.refresh 0 (env.ask url)
  let complaint :=
    if refreshed.ok then "" else "could not reach " ++ url ++ "; running structural checks only\n"
  (refreshed.store, env.logFilter.text refreshed.events ++ complaint)

def ignoredHost (env : Environment) (host catalog : Option String) : String :=
  match host, catalog with
  | some host, some catalog => env.logFilter.text [.hostIgnored host catalog]
  | _, _ => ""

def reported (env : Environment) (graph : Graph) (snapshot : Snapshot) (json : Bool)
    (messages : String) : Output :=
  let report := graph.validate snapshot
  ⟨if report.isValid then 0 else 1,
    (if json then report.toJson.indented else report.render) ++ "\n",
    messages ++ env.logFilter.text (graph.validationEvents report)⟩

-- A saved catalog goes before the host, and the host on the command line before the environment's.
def runValidate (env : Environment) (workflow : String) (host catalog : Option String)
    (json : Bool) : Output :=
  match loadWorkflow env workflow with
  | .error trouble => trouble.output ""
  | .ok (graph, env) =>
    let host := host.or env.host
    let messages := ignoredHost env host catalog
    let store := storeFor env host
    match catalog with
    | some path =>
      match loadCatalog env store path with
      | .error trouble => trouble.output messages
      | .ok store => reported env graph store.snapshot json messages
    | none =>
      let (store, complaint) := askHost env store
      reported env graph store.snapshot json (messages ++ complaint)

def runExtract (env : Environment) (input : String) : Output :=
  match readInput env input with
  | .error trouble => trouble.output ""
  | .ok (text, env) =>
    let found := Graph.extract? text
    let messages := env.logFilter.text [Graph.extractEvent found]
    match found with
    | some graph => ⟨0, graph.toText ++ "\n", messages⟩
    | none => Trouble.output ⟨"no workflow found in " ++ input, []⟩ messages

def runOrder (env : Environment) (workflow : String) : Output :=
  match loadWorkflow env workflow with
  | .error trouble => trouble.output ""
  | .ok (graph, _) =>
    match graph.linkGraph.executionOrder? with
    | some ids => ⟨0, String.join (ids.map fun id => id ++ "\n"), ""⟩
    | none => Trouble.output ⟨"workflow links form a cycle", []⟩ ""

def helpText : String :=
  "Validate node-graph workflows against a host's node schema catalog\n\n" ++
  "Usage: workflow-check <COMMAND>\n\nCommands:\n" ++
  "  validate  Validate a workflow file\n" ++
  "  extract   Recover a workflow from free text (e.g. a chat reply)\n" ++
  "  order     Print node ids in dependency order\n" ++
  "  help      Print this message or the help of the given subcommand(s)\n"

def run (env : Environment) : Command → Output
  | .validate workflow host catalog json => runValidate env workflow host catalog json
  | .extract input => runExtract env input
  | .order workflow => runOrder env workflow
  | .version => ⟨0, "workflow-check 0.1.0\n", ""⟩
  | .help => ⟨0, helpText, ""⟩

def main (env : Environment) (arguments : List String) : Output :=
  match parse arguments with
  | .ok command => run env command
  | .error error => ⟨2, "", "error: " ++ error.message ++ "\n"⟩

def files : Command → List String
  | .validate workflow _ catalog _ => workflow :: catalog.toList
  | .extract input => [input]
  | .order workflow => [workflow]
  | .version | .help => []

end NodeFlow.Command
