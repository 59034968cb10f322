import NodeFlow.Json.Scan

namespace NodeFlow.Json

namespace Read

open Scan

def moreItems {α : Type} (item : Reader α) : List Char → Reader (List α)
  | [], _ => .error (.next .endInList [])
  | _ :: bound, text =>
    match skipBlank text with
    | [] => .error (.next .endInList [])
    | c :: rest =>
      if c = ']' then .ok ([], rest)
      else if c = ',' then
        match skipBlank rest with
        | [] => .error (.next .endInValue [])
        | d :: rest =>
          if d = ']' then .error (.next .trailingComma (d :: rest))
          else do
            let (first, rest) ← item (d :: rest)
            let (others, rest) ← moreItems item bound rest
            .ok (first :: others, rest)
      else .error (.next .listCommaExpected (c :: rest))

def items {α : Type} (item : Reader α) : Reader (List α) := fun text =>
  match skipBlank text with
  | [] => .error (.next .endInList [])
  | c :: rest =>
    if c = ']' then .ok ([], rest)
    else do
      let (first, rest) ← item (c :: rest)
      let (others, rest) ← moreItems item rest rest
      .ok (first :: others, rest)

-- Reads what follows a member's name, colon included, into what was read so far.
abbrev FieldReader (σ : Type) := σ → String → Reader σ

def moreMembers {σ : Type} (field : FieldReader σ) : List Char → σ → Reader σ
  | [], _, _ => .error (.next .endInObject [])
  | _ :: bound, state, text =>
    match skipBlank text with
    | [] => .error (.next .endInObject [])
    | c :: rest =>
      if c = '}' then .ok (state, rest)
      else if c = ',' then
        match skipBlank rest with
        | [] => .error (.next .endInValue [])
        | d :: rest =>
          if d = '"' then do
            let (name, rest) ← stringBody rest
            let (state, rest) ← field state name rest
            moreMembers field bound state rest
          else if d = '}' then .error (.next .trailingComma (d :: rest))
          else .error (.next .nameExpected (d :: rest))
      else .error (.next .objectCommaExpected (c :: rest))

def members {σ : Type} (field : FieldReader σ) (start : σ) : Reader σ := fun text =>
  match skipBlank text with
  | [] => .error (.next .endInObject [])
  | c :: rest =>
    if c = '}' then .ok (start, rest)
    else if c = '"' then do
      let (name, rest) ← stringBody rest
      let (state, rest) ← field start name rest
      moreMembers field rest state rest
    else .error (.next .nameExpected (c :: rest))

def keptField {σ : Type} (value : Reader Json) (keep : σ → String → Json → σ) : FieldReader σ :=
  fun state name text => do
    let rest ← colon text
    let (read, rest) ← value rest
    .ok (keep state name read, rest)

def value (budget : Nat) : Reader Json := fun text =>
  match skipBlank text with
  | [] => .error (.next .endInValue [])
  | c :: rest =>
    if c = 'n' then do
      let rest ← word ['u', 'l', 'l'] rest
      .ok (.null, rest)
    else if c = 't' then do
      let rest ← word ['r', 'u', 'e'] rest
      .ok (.bool true, rest)
    else if c = 'f' then do
      let rest ← word ['a', 'l', 's', 'e'] rest
      .ok (.bool false, rest)
    else if c = '-' || c.isDigit then do
      let (read, rest) ← Scan.number (c :: rest)
      .ok (.number read, rest)
    else if c = '"' then do
      let (read, rest) ← stringBody rest
      .ok (.string read, rest)
    else if c = '[' then
      match budget with
      | 0 => .error (.next .tooDeep (c :: rest))
      | budget + 1 => do
        let (read, rest) ← items (value budget) rest
        .ok (.array read, rest)
    else if c = '{' then
      match budget with
      | 0 => .error (.next .tooDeep (c :: rest))
      | budget + 1 => do
        let (read, rest) ←
          members (keptField (value budget) fun done name read => insertMember name read done) [] rest
        .ok (.object read, rest)
    else .error (.next .valueExpected (c :: rest))

def depthLimit : Nat := 127

def whole {α : Type} (reader : Reader α) (text : List Char) : Except Failure α := do
  let (read, rest) ← reader text
  match skipBlank rest with
  | [] => .ok read
  | rest => .error (.next .trailingText rest)

end Read

def read (text : String) : Except Failure Json := Read.whole (Read.value Read.depthLimit) text.toList

def read? (text : String) : Option Json := (read text).toOption

end NodeFlow.Json
