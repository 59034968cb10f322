import NodeFlow.Json.Basic

namespace NodeFlow

inductive InputKind
  | primitive (tag : String)
  -- Values that only other nodes make, such as images.
  | reference (tag : String)
  | wildcard
  | choice (options : List String)
  deriving DecidableEq

namespace InputKind

def wildcardTag : String := "*"

def choiceTag : String := "COMBO"

def primitiveTags : List String := ["INT", "FLOAT", "STRING", "BOOLEAN"]

def ofTag (tag : String) : InputKind :=
  if tag = wildcardTag then .wildcard
  else if tag ∈ primitiveTags then .primitive tag
  else .reference tag

def tag : InputKind → String
  | .primitive tag => tag
  | .reference tag => tag
  | .wildcard => wildcardTag
  | .choice _ => choiceTag

def isNumeric : InputKind → Bool
  | .primitive tag => tag == "INT" || tag == "FLOAT"
  | _ => false

def isWildcard : InputKind → Bool
  | .wildcard => true
  | _ => false

def options? : InputKind → Option (List String)
  | .choice options => some options
  | _ => none

def toJson : InputKind → Json
  | .primitive tag => .object [("kind", .string "primitive"), ("value", .string tag)]
  | .reference tag => .object [("kind", .string "reference"), ("value", .string tag)]
  | .wildcard => .object [("kind", .string "wildcard")]
  | .choice options =>
    .object [("kind", .string "choice"), ("value", .array (options.map Json.string))]

theorem tag_ofTag (tag : String) : (ofTag tag).tag = tag := by
  unfold ofTag
  split
  · rename_i wild; exact wild.symm
  · split <;> rfl

theorem ofTag_tag_ofTag (tag : String) : ofTag (ofTag tag).tag = ofTag tag := by rw [tag_ofTag]

end InputKind

end NodeFlow
