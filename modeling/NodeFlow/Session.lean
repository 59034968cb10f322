import NodeFlow.Address.Client
import NodeFlow.Validation.Basic

namespace NodeFlow

structure Session where
  store : Store
  -- The snapshots handed out so far, the last one first.
  held : List Snapshot

namespace Session

def new (config : Store.Config) (client : Client) : Session := ⟨.new config client, []⟩

def start (config : Store.Config) : Session := new config .web

inductive Step
  | refresh (reply : Reply)
  | forceRefresh (reply : Reply)
  | load (payload : Json)
  | hold
  | ask (query : Snapshot.Query)
  -- Asks the snapshot that was handed out last, or the one after which so many others were.
  | askHeld (query : Snapshot.Query)
  | askEarlier (others : Nat) (query : Snapshot.Query)
  | validate (graph : Graph)

inductive Outcome
  | refreshed (ok : Bool) (asked : Asked)
  | loaded (types : Nat)
  | refused (error : PayloadError)
  | held
  | answered (answer : Snapshot.Answer)
  | nothingHeld
  | validated (report : Report)

def Outcome.installed : Outcome → Bool
  | .refreshed ok asked => ok && asked != .skipped
  | .loaded _ => true
  | _ => false

structure Result where
  session : Session
  outcome : Outcome
  events : List LogEvent

def afterRefresh (session : Session) (came : Store.Refreshed) : Result :=
  ⟨{ session with store := came.store }, .refreshed came.ok came.asked, came.events⟩

def answerHeld (session : Session) (others : Nat) (query : Snapshot.Query) : Outcome :=
  match session.held[others]? with
  | some snapshot => .answered (snapshot.answer query)
  | none => .nothingHeld

def apply (session : Session) (now : Nat) : Step → Result
  | .refresh reply => session.afterRefresh (session.store.refresh now reply)
  | .forceRefresh reply => session.afterRefresh (session.store.fetch now reply)
  | .load payload =>
    match session.store.load now payload with
    | .ok (types, store) => ⟨{ session with store }, .loaded types, []⟩
    | .error error => ⟨session, .refused error, []⟩
  | .hold => ⟨{ session with held := session.store.snapshot :: session.held }, .held, []⟩
  | .ask query => ⟨session, .answered (session.store.snapshot.answer query), []⟩
  | .askHeld query => ⟨session, session.answerHeld 0 query, []⟩
  | .askEarlier others query => ⟨session, session.answerHeld others query, []⟩
  | .validate graph =>
    let report := graph.validate session.store.snapshot
    ⟨session, .validated report, graph.validationEvents report⟩

end Session

end NodeFlow
