import NodeFlow.Catalog.Client
import NodeFlow.Catalog.Payload
import NodeFlow.Similarity.Ranking

namespace NodeFlow

structure Snapshot where
  types : Table NodeType
  -- What the clock said when it was put in place; the first, empty one never was.
  installedAt : Option Nat

namespace Snapshot

def empty : Snapshot := ⟨.empty, none⟩

def ofPayload (payload : Json) : Except PayloadError Snapshot :=
  (Payload.parse payload).map fun types => ⟨types, none⟩

def isStamped (snapshot : Snapshot) : Bool := snapshot.installedAt.isSome

def isFresh (snapshot : Snapshot) (window : Duration) (now : Nat) : Bool :=
  match snapshot.installedAt with
  | some installed => now - installed < window.ticks
  | none => false

def size (snapshot : Snapshot) : Nat := snapshot.types.size

def isLoaded (snapshot : Snapshot) : Bool := !snapshot.types.isEmpty

def knows (snapshot : Snapshot) (name : String) : Bool := snapshot.types.contains name

def type? (snapshot : Snapshot) (name : String) : Option NodeType := snapshot.types.get? name

def outputType? (snapshot : Snapshot) (name : String) (slot : UInt64) : Option String :=
  (snapshot.type? name).bind fun schema => schema.outputType? slot

def inputType? (snapshot : Snapshot) (name input : String) : Option (String × Bool) := do
  let spec ← (← snapshot.type? name).input? input
  some (spec.kind.tag, spec.required)

def suggestSimilar (snapshot : Snapshot) (name : String) (limit : Nat) : List String :=
  Similarity.closeMatches name snapshot.types.names limit Similarity.defaultCutoff

def typeNames (snapshot : Snapshot) : List String :=
  snapshot.types.names.mergeSort fun a b => !decide (Text.Precedes b a)

inductive Query
  | knows (name : String)
  | type (name : String)
  | outputType (name : String) (slot : UInt64)
  | inputType (name input : String)
  | suggest (name : String) (limit : Nat)
  | typeNames
  | size

inductive Answer
  | truth (value : Bool)
  | type (schema : Option NodeType)
  | tag (tag : Option String)
  | input (tag : Option (String × Bool))
  | names (names : List String)
  | size (size : Nat) (empty loaded : Bool)

def answer (snapshot : Snapshot) : Query → Answer
  | .knows name => .truth (snapshot.knows name)
  | .type name => .type (snapshot.type? name)
  | .outputType name slot => .tag (snapshot.outputType? name slot)
  | .inputType name input => .input (snapshot.inputType? name input)
  | .suggest name limit => .names (snapshot.suggestSimilar name limit)
  | .typeNames => .names snapshot.typeNames
  | .size => .size snapshot.size snapshot.types.isEmpty snapshot.isLoaded

end Snapshot

end NodeFlow
