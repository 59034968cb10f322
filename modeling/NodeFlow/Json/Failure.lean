import NodeFlow.Json.Printer
import NodeFlow.Text.Visible

namespace NodeFlow.Json

inductive Found
  | null
  | bool (value : Bool)
  | number (value : Number)
  | string (text : String)
  | list
  | object
  deriving DecidableEq

inductive Wanted
  | mapping
  | text
  | record (name : String)
  deriving DecidableEq

inductive Cause
  | endInValue | endInList | endInObject | endInString
  | valueExpected | wordExpected | colonExpected | listCommaExpected | objectCommaExpected
  | nameExpected | trailingComma | trailingText | tooDeep
  | invalidNumber | numberOutOfRange
  | invalidEscape | controlCharacter | loneSurrogate | surrogateCutOff
  | wrongShape (found : Found) (wanted : Wanted)
  | repeatedField (name : String)
  deriving DecidableEq

def Found.describe : Found → String
  | .null => "null"
  | .bool value => "boolean `" ++ (if value then "true" else "false") ++ "`"
  | .number (.integer value fits) =>
    "integer `" ++ String.ofList (Number.integer value fits).render ++ "`"
  | .number (.float x) => "floating point `" ++ String.ofList (Number.float x).render ++ "`"
  | .string text => "string " ++ Text.visible text
  | .list => "sequence"
  | .object => "map"

def Wanted.describe : Wanted → String
  | .mapping => "a map"
  | .text => "a string"
  | .record name => "struct " ++ name

def Cause.message : Cause → String
  | .endInValue => "EOF while parsing a value"
  | .endInList => "EOF while parsing a list"
  | .endInObject => "EOF while parsing an object"
  | .endInString => "EOF while parsing a string"
  | .valueExpected => "expected value"
  | .wordExpected => "expected ident"
  | .colonExpected => "expected `:`"
  | .listCommaExpected => "expected `,` or `]`"
  | .objectCommaExpected => "expected `,` or `\x7d`"
  | .nameExpected => "key must be a string"
  | .trailingComma => "trailing comma"
  | .trailingText => "trailing characters"
  | .tooDeep => "recursion limit exceeded"
  | .invalidNumber => "invalid number"
  | .numberOutOfRange => "number out of range"
  | .invalidEscape => "invalid escape"
  | .controlCharacter => "control character (\\u0000-\\u001F) found while parsing a string"
  | .loneSurrogate => "lone leading surrogate in hex escape"
  | .surrogateCutOff => "unexpected end of hex escape"
  | .wrongShape found wanted => "invalid type: " ++ found.describe ++ ", expected " ++ wanted.describe
  | .repeatedField name => "duplicate field `" ++ name ++ "`"

structure Failure where
  cause : Cause
  rest : List Char
  -- Bytes of the rest that had been looked at.
  ahead : Nat

-- The failure lies in what was read last.
def Failure.behind (cause : Cause) (rest : List Char) : Failure := ⟨cause, rest, 0⟩

def Failure.next (cause : Cause) (rest : List Char) : Failure := ⟨cause, rest, 1⟩

structure Position where
  line : Nat
  column : Nat
  deriving DecidableEq

def byteSize : List Char → Nat
  | [] => 0
  | c :: rest => c.utf8Size + byteSize rest

-- Columns count bytes, and a line feed stands in column 0 of the line that it opens.
def Position.advance (place : Position) : Nat → List Char → Position
  | _, [] => place
  | bytes, c :: rest =>
    if bytes = 0 then place
    else if c = '\n' then Position.advance ⟨place.line + 1, 0⟩ (bytes - 1) rest
    else Position.advance ⟨place.line, place.column + min bytes c.utf8Size⟩ (bytes - c.utf8Size) rest

def Failure.position (failure : Failure) (text : List Char) : Position :=
  Position.advance ⟨1, 0⟩ (byteSize text - byteSize failure.rest + failure.ahead) text

structure Mistake where
  cause : Cause
  place : Position
  deriving DecidableEq

def Failure.mistake (failure : Failure) (text : List Char) : Mistake :=
  ⟨failure.cause, failure.position text⟩

def Mistake.message (mistake : Mistake) : String :=
  mistake.cause.message ++ " at line " ++ toString mistake.place.line ++ " column " ++
    toString mistake.place.column

end NodeFlow.Json
