import Mathlib.Data.List.Nodup
import Mathlib.Data.List.TakeWhile
import NodeFlow.Command.Arguments

namespace NodeFlow.Command

def PlainName (name : String) : Prop := ∃ first rest, name.toList = first :: rest ∧ first ≠ '-'

def valueWords (name value : String) (joined : Bool) : List String :=
  if joined then [name ++ "=" ++ value] else [name, value]

inductive Piece
  | file (path : String)
  | catalog (path : String) (joined : Bool)
  | host (address : String) (joined : Bool)
  | json
  deriving DecidableEq

inductive Topic
  | file
  | catalog
  | host
  | json
  deriving DecidableEq

namespace Piece

def words : Piece → List String
  | file path => [path]
  | catalog path joined => valueWords "--catalog" path joined
  | host address joined => valueWords "--host" address joined
  | json => ["--json"]

def topic : Piece → Topic
  | file _ => .file
  | catalog _ _ => .catalog
  | host _ _ => .host
  | json => .json

-- What looks like an option is no value unless it stands behind the equals sign.
def Acceptable : Piece → Prop
  | file path => PlainName path
  | catalog path _ => PlainName path
  | host address joined => joined = true ∨ isOption address = false
  | json => True

def apply (settings : Settings) : Piece → Settings
  | file path => { settings with file := some path }
  | catalog path _ => { settings with catalog := some path }
  | host address _ => { settings with host := some address }
  | json => { settings with json := true }

end Piece

section Words

variable {name value : String}

end Words

section Options

variable {name value word : String} {joined : Bool} {settings next : Settings} {rest : List String}

end Options

namespace Piece

end Piece

def pieces (workflow catalog : String) (joined : Bool) (host : Option (String × Bool)) (json : Bool) : List Piece :=
  .file workflow :: .catalog catalog joined ::
    (host.toList.map fun host => .host host.1 host.2) ++ if json then [.json] else []

section Lines

variable {workflow catalog : String} (joined : Bool) {host : Option (String × Bool)} (json : Bool)

end Lines

end NodeFlow.Command
