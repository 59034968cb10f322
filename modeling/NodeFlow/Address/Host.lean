namespace NodeFlow

namespace Percent

def hexDigit (n : Nat) : Char := Char.ofNat (if n < 10 then 0x30 + n else 0x37 + n)

def hexValue? (c : Char) : Option Nat :=
  if c.isDigit then some (c.toNat - 0x30)
  else if 'a' ≤ c && c ≤ 'f' then some (c.toNat - 0x57)
  else if 'A' ≤ c && c ≤ 'F' then some (c.toNat - 0x37)
  else none

def encodeByte (byte : UInt8) : List Char :=
  ['%', hexDigit (byte.toNat / 16), hexDigit (byte.toNat % 16)]

def encode (marks text : List Char) : List Char :=
  text.flatMap fun c =>
    if 0x1f < c.toNat && c.toNat < 0x7f && !marks.contains c then [c]
    else (String.utf8EncodeChar c).flatMap encodeByte

-- A percent sign without two digits after it stands for itself.
def decode : List Char → List Char
  | [] => []
  | '%' :: a :: b :: rest =>
    match hexValue? a, hexValue? b with
    | some high, some low => Char.ofNat (16 * high + low) :: decode rest
    | _, _ => '%' :: decode (a :: b :: rest)
  | c :: rest => c :: decode rest

end Percent

inductive Host
  | name (text : String)
  | short (value : Nat)
  | long (pieces : List Nat)
  deriving DecidableEq

namespace Host

def parts (isMark : Char → Bool) : List Char → List (List Char)
  | [] => [[]]
  | c :: rest =>
    if isMark c then [] :: parts isMark rest
    else match parts isMark rest with
      | part :: others => (c :: part) :: others
      | [] => [[c]]

def joined (mark : Char) (texts : List (List Char)) : List Char := [mark].intercalate texts

def valueIn (base : Nat) (digits : List Char) : Option Nat :=
  digits.foldl (fun value c => do
    let digit ← Percent.hexValue? c
    if digit < base then some ((← value) * base + digit) else none) (some 0)

-- Hexadecimal after `0x` and octal after another zero; after `0x` there may be no digits at all.
def number? : List Char → Option Nat
  | [] => none
  | '0' :: 'x' :: digits | '0' :: 'X' :: digits => valueIn 16 digits
  | '0' :: c :: digits => valueIn 8 (c :: digits)
  | digits => valueIn 10 digits

-- Parts between full stops; one stop at the end does not count.
def shortParts (text : List Char) : List (List Char) :=
  let texts := parts (· == '.') text
  if texts.getLast? = some [] then texts.dropLast else texts

def isNumeric (name : List Char) : Bool :=
  match (shortParts name).getLast? with
  | some last => (!last.isEmpty && last.all Char.isDigit) || (number? last).isSome
  | none => false

-- Each number but the last is a byte, and the last one fills the bytes that are left.
def fromNumbers? (place : Nat) : List Nat → Option Nat
  | [] => none
  | [last] => if last < 0x100 * place then some last else none
  | number :: rest => do
    if number < 0x100 then some (number * place + (← fromNumbers? (place / 0x100) rest)) else none

def short? (name : List Char) : Option Host := do
  let numbers ← (shortParts name).mapM number?
  if numbers.length ≤ 4 then (fromNumbers? 0x1000000 numbers).map short else none

def byte? (text : List Char) : Option Nat := do
  let value ← valueIn 10 text
  if text.isEmpty || (1 < text.length && text.head? == some '0') || 0xff < value then none else some value

def piece? (text : List Char) : Option Nat :=
  if !text.isEmpty && text.length ≤ 4 then valueIn 16 text else none

-- Four bytes in full may stand for the last two pieces.
def pieces? (text : List Char) : Option (List Nat) :=
  let texts := parts (· == ':') text
  match (texts.getLast?.map (parts (· == '.'))).getD [] with
  | [a, b, c, d] => do
    let bytes ← [a, b, c, d].mapM byte?
    some ((← texts.dropLast.mapM piece?) ++ [bytes.getD 0 0 * 0x100 + bytes.getD 1 0,
      bytes.getD 2 0 * 0x100 + bytes.getD 3 0])
  | _ => if text.isEmpty then some [] else texts.mapM piece?

def splitAtGap? : List Char → Option (List Char × List Char)
  | ':' :: ':' :: rest => some ([], rest)
  | c :: rest => (splitAtGap? rest).map fun (before, after) => (c :: before, after)
  | [] => none

-- Two colons in a row stand for as many zeros as are missing, at least one.
def long? (text : List Char) : Option Host :=
  match splitAtGap? text with
  | none => do
    let pieces ← pieces? text
    if pieces.length = 8 then some (.long pieces) else none
  | some (before, after) => do
    let first ← pieces? before
    let last ← pieces? after
    if first.length + last.length ≤ 7 && !before.contains '.' then
      some (.long (first ++ List.replicate (8 - first.length - last.length) 0 ++ last))
    else none

def longestGap : Nat → List Nat → Nat × Nat
  | _, [] => (0, 0)
  | place, piece :: rest =>
    let here := ((piece :: rest).takeWhile (· == 0)).length
    let (later, length) := longestGap (place + 1) rest
    if length ≤ here then (place, here) else (later, length)

def pieceTexts (pieces : List Nat) : List Char := joined ':' (pieces.map (Nat.toDigits 16))

def longText (pieces : List Nat) : List Char :=
  let (place, length) := longestGap 0 pieces
  if length < 2 then pieceTexts pieces
  else pieceTexts (pieces.take place) ++ ':' :: ':' :: pieceTexts (pieces.drop (place + length))

def render : Host → String
  | .name text => text
  | .short value => String.ofList (joined '.' ([value / 0x1000000, value / 0x10000 % 0x100,
      value / 0x100 % 0x100, value % 0x100].map (Nat.toDigits 10)))
  | .long pieces => "[" ++ String.ofList (longText pieces) ++ "]"

def refused : List Char := [' ', '#', '/', ':', '<', '>', '?', '@', '[', '\\', ']', '^', '|']

-- Names of other characters, which would have to be mapped to these first, are refused.
def isNamed (c : Char) : Bool := 0x1f < c.toNat && c.toNat < 0x7f && c != '%' && !refused.contains c

def read? (web : Bool) (text : List Char) : Option Host :=
  match text with
  | '[' :: rest => if rest.getLast? = some ']' then long? rest.dropLast else none
  | _ =>
    if web then
      let name := (Percent.decode text).map Char.toLower
      if name.isEmpty || !name.all isNamed then none
      else if isNumeric name then short? name
      else some (.name (String.ofList name))
    else if text.any (fun c => c == '\x00' || refused.contains c) then none
    else some (.name (String.ofList (Percent.encode [] text)))

end Host

end NodeFlow
