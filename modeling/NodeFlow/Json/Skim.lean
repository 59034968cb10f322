import NodeFlow.Json.Scan

namespace NodeFlow.Json.Skim

open Scan

inductive Frame
  | list
  | object
  deriving DecidableEq

def Frame.closing : Frame → Char
  | .list => ']'
  | .object => '}'

def Frame.endCause : Frame → Cause
  | .list => .endInList
  | .object => .endInObject

def Frame.commaCause : Frame → Cause
  | .list => .listCommaExpected
  | .object => .objectCommaExpected

-- What follows a backslash: the units of a character are not paired.
def escape : List Char → Except Failure (List Char)
  | [] => .error (.behind .endInString [])
  | c :: rest =>
    if c = 'u' then do
      let (_, rest) ← hexUnit rest
      .ok rest
    else if (shortEscape? c).isSome then .ok rest
    else .error (.next .invalidEscape (c :: rest))

def stringFrom : List Char → List Char → Except Failure (List Char)
  | _, [] => .error (.behind .endInString [])
  | [], _ => .error (.behind .endInString [])
  | _ :: bound, c :: rest =>
    if c = '"' then .ok rest
    else if c = '\\' then do
      let rest ← escape rest
      stringFrom bound rest
    else if c.toNat < 0x20 then .error (.behind .controlCharacter (c :: rest))
    else stringFrom bound rest

def entry (frame : Frame) (text : List Char) : Except Failure (List Char) :=
  match frame with
  | .list => .ok text
  | .object =>
    match skipBlank text with
    | [] => .error (.next .endInObject [])
    | c :: rest =>
      if c = '"' then do
        let rest ← stringFrom rest rest
        colon rest
      else .error (.next .nameExpected (c :: rest))

inductive Place
  | value
  | after
  deriving DecidableEq

structure State where
  place : Place
  frames : List Frame
  rest : List Char

def opened (frames : List Frame) (frame : Frame) (text : List Char) : Except Failure State :=
  match skipBlank text with
  | [] => .error (.next frame.endCause [])
  | c :: rest =>
    if c = frame.closing then .ok ⟨.after, frames, rest⟩
    else do
      let rest ← entry frame (c :: rest)
      .ok ⟨.value, frame :: frames, rest⟩

def scalar (c : Char) (rest : List Char) : Except Failure (List Char) :=
  if c = 'n' then word ['u', 'l', 'l'] rest
  else if c = 't' then word ['r', 'u', 'e'] rest
  else if c = 'f' then word ['a', 'l', 's', 'e'] rest
  else if c = '-' || c.isDigit then do
    let (_, rest) ← numeral .invalidNumber (c :: rest)
    .ok rest
  else if c = '"' then stringFrom rest rest
  else .error (.next .valueExpected (c :: rest))

def atValue (frames : List Frame) (text : List Char) : Except Failure State :=
  match skipBlank text with
  | [] => .error (.next .endInValue [])
  | c :: rest =>
    if c = '[' then opened frames .list rest
    else if c = '{' then opened frames .object rest
    else do
      let rest ← scalar c rest
      .ok ⟨.after, frames, rest⟩

def afterValue (frame : Frame) (frames : List Frame) (text : List Char) : Except Failure State :=
  match skipBlank text with
  | [] => .error (.next frame.endCause [])
  | c :: rest =>
    if c = ',' then do
      let rest ← entry frame rest
      .ok ⟨.value, frame :: frames, rest⟩
    else if c = frame.closing then .ok ⟨.after, frames, rest⟩
    else .error (.next frame.commaCause (c :: rest))

-- Each step reads at least one character.
def run : Nat → State → Except Failure (List Char)
  | _, ⟨.after, [], rest⟩ => .ok rest
  | 0, state => .error (.next .endInValue state.rest)
  | fuel + 1, ⟨.value, frames, rest⟩ => do run fuel (← atValue frames rest)
  | fuel + 1, ⟨.after, frame :: frames, rest⟩ => do run fuel (← afterValue frame frames rest)

def value (text : List Char) : Except Failure (List Char) :=
  run (text.length + 1) ⟨.value, [], text⟩

def accepts (text : List Char) : Bool :=
  match value text with
  | .ok rest => (skipBlank rest).isEmpty
  | .error _ => false

end NodeFlow.Json.Skim
