import NodeFlow.Json.Failure
import NodeFlow.Number.Numeral

namespace NodeFlow.Json

abbrev Reader (α : Type) := List Char → Except Failure (α × List Char)

namespace Scan

def isBlank (c : Char) : Bool := c == ' ' || c == '\n' || c == '\t' || c == '\r'

def skipBlank (text : List Char) : List Char := text.dropWhile isBlank

def word : List Char → List Char → Except Failure (List Char)
  | [], rest => .ok rest
  | _ :: _, [] => .error (.behind .endInValue [])
  | letter :: letters, c :: rest =>
    if c = letter then word letters rest else .error (.next .wordExpected (c :: rest))

def colon (text : List Char) : Except Failure (List Char) :=
  match skipBlank text with
  | [] => .error (.next .endInObject [])
  | c :: rest => if c = ':' then .ok rest else .error (.next .colonExpected (c :: rest))

section Numerals

-- What a number that is cut off by the end of the text is called.
variable (cut : Cause)

def leadingDigit : List Char → Except Failure (Char × List Char)
  | [] => .error (.behind cut [])
  | c :: rest => if c.isDigit then .ok (c, rest) else .error (.next .invalidNumber (c :: rest))

def wholePart (text : List Char) : Except Failure (List Char × List Char) := do
  let (lead, rest) ← leadingDigit cut text
  let digits := rest.takeWhile Char.isDigit
  if lead = '0' then
    if digits.isEmpty then .ok ([lead], rest) else .error (.next .invalidNumber rest)
  else
    .ok (lead :: digits, rest.dropWhile Char.isDigit)

def fractionPart (text : List Char) : Except Failure (List Char × List Char) :=
  match text with
  | '.' :: rest =>
    match rest.takeWhile Char.isDigit, rest with
    | [], [] => .error (.next cut [])
    | [], rest => .error (.next .invalidNumber rest)
    | digits, rest => .ok (digits, rest.dropWhile Char.isDigit)
  | text => .ok ([], text)

def exponentPart (text : List Char) :
    Except Failure (Option (Bool × List Char) × List Char) :=
  match text with
  | [] => .ok (none, [])
  | c :: rest =>
    if c = 'e' || c = 'E' then do
      let (negative, unsigned) := match rest with
        | '+' :: rest => (false, rest)
        | '-' :: rest => (true, rest)
        | rest => (false, rest)
      let (lead, rest) ← leadingDigit cut unsigned
      .ok (some (negative, lead :: rest.takeWhile Char.isDigit), rest.dropWhile Char.isDigit)
    else .ok (none, c :: rest)

def unsignedNumeral (negative : Bool) : Reader Numeral := fun text => do
  let (whole, rest) ← wholePart cut text
  let (fraction, rest) ← fractionPart cut rest
  let (exponent, rest) ← exponentPart cut rest
  .ok (⟨negative, whole, fraction, exponent⟩, rest)

def numeral : Reader Numeral
  | '-' :: rest => unsignedNumeral cut true rest
  | text => unsignedNumeral cut false text

end Numerals

-- An exponent that is too large stops the reader at the digit that makes it so.
def number : Reader Number := fun text => do
  let (numeral, rest) ← numeral .endInValue text
  match numeral.number? with
  | some value => .ok (value, rest)
  | none => .error (.behind .numberOutOfRange (numeral.unreadExponent ++ rest))

section Strings

def hexValue? (c : Char) : Option Nat :=
  if c.isDigit then some (c.toNat - '0'.toNat)
  else if 'a' ≤ c && c ≤ 'f' then some (c.toNat - 'a'.toNat + 10)
  else if 'A' ≤ c && c ≤ 'F' then some (c.toNat - 'A'.toNat + 10)
  else none

-- Four bytes are taken before any of them is judged.
def hexUnit (text : List Char) : Except Failure (Nat × List Char) :=
  if byteSize (text.take 4) < 4 then .error (.behind .endInString [])
  else match text with
    | a :: b :: c :: d :: rest =>
      match hexValue? a, hexValue? b, hexValue? c, hexValue? d with
      | some a, some b, some c, some d => .ok (((a * 16 + b) * 16 + c) * 16 + d, rest)
      | _, _, _, _ => .error ⟨.invalidEscape, text, 4⟩
    | _ => .error ⟨.invalidEscape, text, 4⟩

def isHighSurrogate (unit : Nat) : Bool := 0xD800 ≤ unit && unit ≤ 0xDBFF

def isLowSurrogate (unit : Nat) : Bool := 0xDC00 ≤ unit && unit ≤ 0xDFFF

def surrogateMark (mark : Char) : List Char → Except Failure (List Char)
  | [] => .error (.behind .endInString [])
  | c :: rest => if c = mark then .ok rest else .error (.next .surrogateCutOff (c :: rest))

-- A character outside the basic plane is written as a pair of units.
def hexEscape (text : List Char) : Except Failure (Char × List Char) := do
  let (unit, rest) ← hexUnit text
  if isLowSurrogate unit then .error (.behind .loneSurrogate rest)
  else if isHighSurrogate unit then
    let rest ← surrogateMark '\\' rest
    let rest ← surrogateMark 'u' rest
    let (second, rest) ← hexUnit rest
    if isLowSurrogate second then
      .ok (Char.ofNat (0x10000 + (unit - 0xD800) * 0x400 + (second - 0xDC00)), rest)
    else .error (.behind .loneSurrogate rest)
  else .ok (Char.ofNat unit, rest)

def shortEscape? (c : Char) : Option Char :=
  if c = '"' || c = '\\' || c = '/' then some c
  else if c = 'b' then some '\x08'
  else if c = 'f' then some '\x0c'
  else if c = 'n' then some '\n'
  else if c = 'r' then some '\r'
  else if c = 't' then some '\t'
  else none

def escaped : List Char → Except Failure (Char × List Char)
  | [] => .error (.behind .endInString [])
  | c :: rest =>
    if c = 'u' then hexEscape rest
    else match shortEscape? c with
      | some read => .ok (read, rest)
      | none => .error (.next .invalidEscape (c :: rest))

-- The rest of a string whose opening quote is read. The bound is a list as long as the text, and
-- every step reads at least one character; `done` holds the characters read, last one first.
def stringFrom (done : List Char) : List Char → List Char → Except Failure (List Char × List Char)
  | _, [] => .error (.behind .endInString [])
  | [], _ => .error (.behind .endInString [])
  | _ :: bound, c :: rest =>
    if c = '"' then .ok (done.reverse, rest)
    else if c = '\\' then do
      let (read, rest) ← escaped rest
      stringFrom (read :: done) bound rest
    else if c.toNat < 0x20 then .error (.next .controlCharacter (c :: rest))
    else stringFrom (c :: done) bound rest

def stringBody : Reader String := fun text => do
  let (chars, rest) ← stringFrom [] text text
  .ok (String.ofList chars, rest)

end Strings

end Scan

end NodeFlow.Json
