import NodeFlow.Catalog.Client
import NodeFlow.Catalog.Snapshot
import NodeFlow.Json.Reader
import NodeFlow.Log.Event

namespace NodeFlow

structure Store.Config where
  baseUrl : String
  timeout : Duration
  freshnessWindow : Duration

def Store.Config.default : Store.Config := ⟨"http://127.0.0.1:8188", 10, 300⟩

def Store.Config.schemaUrl (config : Store.Config) : String :=
  String.ofList (config.baseUrl.toList.reverse.dropWhile (· == '/')).reverse ++ "/object_info"

inductive FetchError
  -- In the words of the client.
  | request (words : String)
  | status (code : Nat)
  | payload (error : PayloadError)
  deriving DecidableEq

def FetchError.message : FetchError → String
  | .request words => "schema request failed: " ++ words
  | .status code => "schema endpoint answered with HTTP " ++ toString code
  | .payload error => error.message

def Response.types (response : Response) : Except FetchError (Table NodeType) :=
  if response.status = 200 then
    match response.body.bind Json.read? with
    | some payload =>
      match Payload.parse payload with
      | .ok types => .ok types
      | .error error => .error (.payload error)
    | none => .error (.request "error decoding response body")
  else .error (.status response.status)

def Exchange.types (exchange : Exchange) : Except FetchError (Table NodeType) :=
  match exchange.outcome with
  | .ok response => response.types
  | .error words => .error (.request words)

-- Whether a refresh had the client make a GET, with the requests that came of it.
inductive Asked
  | skipped
  | made (requests : List String)
  deriving DecidableEq

def Asked.toList : Asked → List String
  | .skipped => []
  | .made requests => requests

structure Store where
  config : Store.Config
  client : Client
  snapshot : Snapshot

namespace Store

def new (config : Config) (client : Client) : Store := ⟨config, client, .empty⟩

def install (store : Store) (now : Nat) (types : Table NodeType) : Store :=
  { store with snapshot := ⟨types, some now⟩ }

def isFresh (store : Store) (now : Nat) : Bool :=
  store.snapshot.isFresh store.config.freshnessWindow now

def exchange (store : Store) (reply : Reply) : Exchange :=
  store.client.get store.config.schemaUrl store.config.timeout reply

structure Refreshed where
  store : Store
  ok : Bool
  asked : Asked
  events : List LogEvent

def fetch (store : Store) (now : Nat) (reply : Reply) : Refreshed :=
  let url := store.config.schemaUrl
  let exchange := store.exchange reply
  match exchange.types with
  | .ok types =>
    ⟨store.install now types, true, .made exchange.requests,
      [.fetching url, .refreshed url types.size]⟩
  | .error error =>
    ⟨store, false, .made exchange.requests,
      [.fetching url, .refreshFailed url error.message]⟩

def refresh (store : Store) (now : Nat) (reply : Reply) : Refreshed :=
  if store.isFresh now then ⟨store, true, .skipped, [.catalogFresh]⟩ else store.fetch now reply

def load (store : Store) (now : Nat) (payload : Json) : Except PayloadError (Nat × Store) :=
  (Payload.parse payload).map fun types => (types.size, store.install now types)

end Store

end NodeFlow
