import NodeFlow.Graph.Basic

namespace NodeFlow

namespace Decimals

-- One more on as many digits, and whether the count went round.
def bump : List Char → List Char × Bool
  | [] => ([], true)
  | digit :: rest =>
    match bump rest with
    | (rest, false) => (digit :: rest, false)
    | (rest, true) =>
      if digit = '9' then ('0' :: rest, true) else (Char.ofNat (digit.toNat + 1) :: rest, false)

def successor (digits : List Char) : List Char :=
  match bump digits with
  | (digits, false) => digits
  | (digits, true) => '1' :: digits

-- Without leading zeros the longer text is the greater number, and of equally long ones the one
-- that comes later in the order of texts.
def less (a b : List Char) : Bool :=
  a.length < b.length || (a.length == b.length && a < b)

def greatest : List (List Char) → Option (List Char)
  | [] => none
  | digits :: rest =>
    match greatest rest with
    | none => some digits
    | some other => some (if less digits other then other else digits)

end Decimals

namespace Graph

def isNumeric (id : String) : Bool := !id.isEmpty && id.toList.all Char.isDigit

def significantDigits (id : String) : List Char := id.toList.dropWhile (· == '0')

def nextId (graph : Graph) : String :=
  match Decimals.greatest ((graph.ids.filter isNumeric).map significantDigits) with
  | none => "1"
  | some digits => String.ofList (Decimals.successor digits)

end Graph

end NodeFlow
