import NodeFlow.Number.Basic
import NodeFlow.Text.Order

namespace NodeFlow

inductive Json
  | null
  | bool (value : Bool)
  | number (value : Number)
  | string (text : String)
  | array (items : List Json)
  | object (members : List (String × Json))
  deriving Inhabited

namespace Json

def string? : Json → Option String
  | .string text => some text
  | _ => none

def array? : Json → Option (List Json)
  | .array items => some items
  | _ => none

def object? : Json → Option (List (String × Json))
  | .object members => some members
  | _ => none

def number? : Json → Option Number
  | .number value => some value
  | _ => none

def word? (value : Json) : Option UInt64 := value.number?.bind Number.word?

def insertMember (name : String) (value : Json) : List (String × Json) → List (String × Json)
  | [] => [(name, value)]
  | (other, old) :: rest =>
    if name = other then (name, value) :: rest
    else if Text.Precedes name other then (name, value) :: (other, old) :: rest
    else (other, old) :: insertMember name value rest

-- Equality as values: numbers are compared as numbers.
mutual
def same : Json → Json → Bool
  | .null, .null => true
  | .bool a, .bool b => a == b
  | .number a, .number b => a.same b
  | .string a, .string b => a == b
  | .array a, .array b => sameItems a b
  | .object a, .object b => sameMembers a b
  | _, _ => false

def sameItems : List Json → List Json → Bool
  | [], [] => true
  | a :: as, b :: bs => a.same b && sameItems as bs
  | _, _ => false

def sameMembers : List (String × Json) → List (String × Json) → Bool
  | [], [] => true
  | (name, a) :: as, (other, b) :: bs => name == other && a.same b && sameMembers as bs
  | _, _ => false
end

-- The same value with the members of every object in ascending order; of members of one name the
-- last counts.
mutual
def sorted : Json → Json
  | .array items => .array (sortedItems items)
  | .object members => .object (sortMembers [] members)
  | value => value

def sortedItems : List Json → List Json
  | [] => []
  | item :: rest => item.sorted :: sortedItems rest

def sortMembers (done : List (String × Json)) : List (String × Json) → List (String × Json)
  | [] => done
  | (name, value) :: rest => sortMembers (insertMember name value.sorted done) rest
end

def Ascending (members : List (String × Json)) : Prop :=
  (members.map Prod.fst).Pairwise Text.Precedes

mutual
def Canonical : Json → Prop
  | .array items => CanonicalItems items
  | .object members => Ascending members ∧ CanonicalMembers members
  | _ => True

def CanonicalItems : List Json → Prop
  | [] => True
  | item :: rest => item.Canonical ∧ CanonicalItems rest

def CanonicalMembers : List (String × Json) → Prop
  | [] => True
  | (_, value) :: rest => value.Canonical ∧ CanonicalMembers rest
end

end Json

end NodeFlow
