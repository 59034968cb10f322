import NodeFlow.Proofs.Catalog.Kinds
import NodeFlow.Validation.NodeRules

namespace NodeFlow

namespace InputKind

-- An input of the first kind takes what an output of the second kind makes.
inductive Accepts : InputKind → InputKind → Prop
  | everything (made : InputKind) : Accepts .wildcard made
  | anything (kind : InputKind) : Accepts kind .wildcard
  | primitive (tag : String) : Accepts (.primitive tag) (.primitive tag)
  | reference (tag : String) : Accepts (.reference tag) (.reference tag)
  -- An output that is a choice has a tag alone, which does not name the options.
  | choice (options : List String) : Accepts (.choice options) (.reference "COMBO")

end InputKind

namespace Payload

def Constrains (declaration : Json) (name : String) (value : Json) : Prop :=
  ∃ first members rest, declaration = .array (first :: .object members :: rest) ∧ members.lookup name = some value

-- The declaration lists options, in the first place or among the constraints.
inductive Lists : Json → List Json → Prop
  | first (items rest : List Json) : Lists (.array (.array items :: rest)) items
  | constraint {members : Members} {items : List Json} (listed : members.lookup "options" = some (.array items))
      (rest : List Json) : Lists (.array (.string "COMBO" :: .object members :: rest)) items

inductive Offers : Json → String → Prop
  | text (text : String) : Offers (.string text) text
  | other {value : Json} (noText : value.string? = none) : Offers value value.compact

def Bounds (declaration : Json) (kind : InputKind) (name : String) (bound : Float64) : Prop :=
  (kind = .primitive "INT" ∨ kind = .primitive "FLOAT") ∧
    ∃ number, Constrains declaration name (.number number) ∧ bound = .finite number.toBinary64

structure Declared (declaration : Json) (spec : InputSpec) : Prop where
  wildcard : spec.kind = .wildcard ↔ spec.kind.tag = "*"
  primitive : (∃ tag, spec.kind = .primitive tag) ↔ spec.kind.tag ∈ ["INT", "FLOAT", "STRING", "BOOLEAN"]
  tagged : (∀ options, spec.kind ≠ .choice options) → InputKind.ofTag spec.kind.tag = spec.kind
  named : ∀ tag rest, declaration = .array (.string tag :: rest) → spec.kind.tag = tag
  choice : (∃ options, spec.kind = .choice options) ↔ ∃ items, Lists declaration items
  options : ∀ items options, Lists declaration items → spec.kind = .choice options → List.Forall₂ Offers items options
  default : ∀ value, spec.default = some value ↔ Constrains declaration "default" value
  min : ∀ bound, spec.min = some bound ↔ Bounds declaration spec.kind "min" bound
  max : ∀ bound, spec.max = some bound ↔ Bounds declaration spec.kind "max" bound

section Elements

variable {first : Json} {rest : List Json} {constraints : Members}

theorem constrains_iff (name : String) (value : Json) : Constrains (.array (first :: rest)) name value ↔
    member? ((rest.head?.bind Json.object?).getD []) name = some value := by
  constructor
  · intro constrained
    obtain ⟨_, members, _, same, found⟩ := constrained
    cases same
    exact found
  · intro found
    cases rest with
    | nil => cases found
    | cons second rest =>
      cases second with
      | object members => exact ⟨first, members, rest, rfl, found⟩
      | _ => cases found

theorem forall₂_offers (items : List Json) : List.Forall₂ Offers items (items.map optionText) := by
  induction items with
  | nil => exact .nil
  | cons item rest ih =>
    refine .cons ?_ ih
    cases item with
    | string text => exact .text text
    | _ => exact .other rfl

theorem lists_iff (items : List Json) : Lists (.array (first :: rest)) items ↔
    first = .array items ∨ first = .string "COMBO" ∧ Constrains (.array (first :: rest)) "options" (.array items) := by
  constructor
  · intro lists
    cases lists with
    | first => exact .inl rfl
    | constraint listed rest => exact .inr ⟨rfl, _, _, _, rfl, listed⟩
  · intro listed
    rcases listed with rfl | ⟨rfl, _, _, _, same, listed⟩
    · exact .first items rest
    · cases same
      exact .constraint listed _

theorem Lists.unique {declaration : Json} {items others : List Json} (one : Lists declaration items)
    (other : Lists declaration others) : items = others := by
  cases one with
  | first => cases other; rfl
  | constraint listed =>
    cases other with
    | constraint again => cases listed.symm.trans again; rfl

theorem kindOf_eq_choice_iff (options : List String) :
    kindOf first ((rest.head?.bind Json.object?).getD []) = .choice options ↔
      ∃ items, Lists (.array (first :: rest)) items ∧ options = items.map optionText := by
  simp only [lists_iff, constrains_iff]
  generalize (rest.head?.bind Json.object?).getD [] = constraints
  cases first with
  | string tag =>
    by_cases combo : tag = "COMBO"
    · subst combo
      have listed : ∀ items, (member? constraints "options").bind Json.array? = some items ↔
          member? constraints "options" = some (.array items) := by
        intro items
        cases member? constraints "options" with
        | none => simp
        | some value => cases value <;> simp [Json.array?]
      simp only [kindOf, InputKind.choiceTag, if_true, ← listed, reduceCtorEq, false_or, true_and]
      cases (member? constraints "options").bind Json.array? <;> simp [eq_comm]
    · simp [kindOf, InputKind.choiceTag, combo, InputKind.ofTag_ne_choice]
  | array items => simp [kindOf, eq_comm]
  | _ => simp [kindOf]

theorem isNumeric_iff (kind : InputKind) :
    kind.isNumeric = true ↔ kind = .primitive "INT" ∨ kind = .primitive "FLOAT" := by
  cases kind <;> simp [InputKind.isNumeric]

theorem bound_iff (kind : InputKind) (name : String) (bound : Float64) :
    (if kind.isNumeric then boundOf ((rest.head?.bind Json.object?).getD []) name else none) = some bound ↔
      Bounds (.array (first :: rest)) kind name bound := by
  unfold Bounds
  simp only [← isNumeric_iff, constrains_iff]
  cases kind.isNumeric with
  | false => simp
  | true =>
    simp only [if_true, true_and, boundOf, Option.map_eq_some_iff, Option.bind_eq_some_iff]
    constructor
    · intro bounded
      obtain ⟨number, ⟨value, found, isNumber⟩, rfl⟩ := bounded
      cases value with
      | number value =>
        cases isNumber
        exact ⟨number, found, rfl⟩
      | _ => cases isNumber
    · intro bounded
      obtain ⟨number, found, rfl⟩ := bounded
      exact ⟨number, ⟨_, found, rfl⟩, rfl⟩

theorem tag_kindOf_string (tag : String) : (kindOf (.string tag) constraints).tag = tag := by
  unfold kindOf
  dsimp only
  split
  · rename_i combo
    split
    · exact combo.symm
    · rfl
  · exact InputKind.tag_ofTag tag

end Elements

theorem declared_of_pair (name : String) (first : Json) (rest : List Json) (required : Bool) :
    Declared (.array (first :: rest)) (parseInput name (.array (first :: rest)) required) := by
  have normal := normal_parseInput name (.array (first :: rest)) required
  refine ⟨normal.honest, normal.primitive_iff, normal.ofTag_tag, ?_, ?_, ?_, ?_, ?_, ?_⟩
  · intro tag others same
    cases same
    exact tag_kindOf_string tag
  · constructor
    · intro chosen
      obtain ⟨options, chosen⟩ := chosen
      obtain ⟨items, lists, _⟩ := (kindOf_eq_choice_iff options).1 chosen
      exact ⟨items, lists⟩
    · intro listed
      obtain ⟨items, lists⟩ := listed
      exact ⟨_, (kindOf_eq_choice_iff _).2 ⟨items, lists, rfl⟩⟩
  · intro items options lists chosen
    obtain ⟨others, same, rfl⟩ := (kindOf_eq_choice_iff options).1 chosen
    cases lists.unique same
    exact forall₂_offers items
  · exact fun value => (constrains_iff "default" value).symm
  · exact bound_iff _ "min"
  · exact bound_iff _ "max"

theorem declared_of_other {declaration : Json} (shapeless : ∀ first rest, declaration ≠ .array (first :: rest))
    (name : String) (required : Bool) : Declared declaration (parseInput name declaration required) := by
  have read : parseInput name declaration required = ⟨name, .reference unknownTag, required, none, none, none⟩ := by
    unfold parseInput
    split
    · exact absurd rfl (shapeless _ _)
    · rfl
  have free : ∀ name value, ¬ Constrains declaration name value := by
    intro name value constrained
    obtain ⟨first, members, rest, same, _⟩ := constrained
    exact shapeless _ _ same
  have unlisted : ∀ items, ¬ Lists declaration items := by
    intro items lists
    cases lists <;> exact shapeless _ _ rfl
  have unbounded : ∀ kind name bound, ¬ Bounds declaration kind name bound := by
    intro kind name bound bounded
    obtain ⟨_, number, constrained, _⟩ := bounded
    exact free name _ constrained
  have normal : (InputKind.reference unknownTag).Normal := .tagged unknownTag
  rw [read]
  refine ⟨normal.honest, normal.primitive_iff, normal.ofTag_tag, ?_, ?_, ?_, ?_, ?_, ?_⟩
  · exact fun tag rest same => absurd same (shapeless _ _)
  · exact ⟨nofun, fun ⟨items, lists⟩ => absurd lists (unlisted items)⟩
  · exact fun items _ lists => absurd lists (unlisted items)
  · exact fun value => ⟨nofun, fun constrained => absurd constrained (free _ _)⟩
  · exact fun bound => ⟨nofun, fun bounded => absurd bounded (unbounded _ _ _)⟩
  · exact fun bound => ⟨nofun, fun bounded => absurd bounded (unbounded _ _ _)⟩

theorem declared_parseInput (name : String) (declaration : Json) (required : Bool) :
    Declared declaration (parseInput name declaration required) := by
  by_cases pair : ∃ first rest, declaration = .array (first :: rest)
  · obtain ⟨first, rest, rfl⟩ := pair
    exact declared_of_pair name first rest required
  · exact declared_of_other (fun first rest same => pair ⟨first, rest, same⟩) name required

end Payload

namespace InputKind

theorem accepts_self (tag : String) : (ofTag tag).Accepts (ofTag tag) := by
  unfold ofTag
  split
  · exact .everything _
  · split
    · exact .primitive tag
    · exact .reference tag

theorem Normal.accepts_iff {kind : InputKind} (normal : kind.Normal) (produced : String) :
    kind.Accepts (ofTag produced) ↔ kind.tag = "*" ∨ produced = "*" ∨ produced = kind.tag := by
  have tagged := tag_ofTag produced
  constructor
  · intro accepts
    generalize made : ofTag produced = output at accepts tagged
    cases accepts with
    | everything => exact .inl rfl
    | anything => exact .inr (.inl tagged.symm)
    | primitive tag => exact .inr (.inr tagged.symm)
    | reference tag => exact .inr (.inr tagged.symm)
    | choice options => exact .inr (.inr tagged.symm)
  · intro compatible
    rcases compatible with wild | rfl | same
    · rw [normal.honest.2 wild]
      exact .everything _
    · rw [(ofTag_eq_wildcard_iff "*").2 rfl]
      exact .anything kind
    · cases normal with
      | tagged tag =>
        rw [same, tag_ofTag]
        exact accepts_self tag
      | choice options =>
        rw [same]
        exact .choice options

end InputKind

section Compatibility

open NodeRules

variable {graph : Graph} {snapshot : Snapshot} {id input source produced : String} {link : Link} {schema : NodeType}
  {spec : InputSpec}

-- The rule asks for the kind of the wildcard and compares the tags of all others.
theorem compatibilityIssue?_eq_none_iff (fed : sourceClass? graph link = some source)
    (made : snapshot.outputType? source link.slot = some produced) (declared : schema.input? input = some spec) :
    compatibilityIssue? graph snapshot id schema input link = none ↔
      spec.kind = .wildcard ∨ produced = "*" ∨ produced = spec.kind.tag := by
  have wild : spec.kind.isWildcard = decide (spec.kind = .wildcard) := by
    cases spec.kind <;> simp [InputKind.isWildcard]
  simp [compatibilityIssue?, fed, made, declared, InputKind.wildcardTag, wild, or_iff_not_imp_left]

end Compatibility

namespace Payload

-- Every declaration is read into the normal form, and so types may be compared by their tags.
theorem parseInput_declared :
    (∀ name declaration required, Declared declaration (parseInput name declaration required)) ∧
    ∀ payload types stamp, parse payload = .ok types → ∀ type schema input spec, types.get? type = some schema →
      schema.input? input = some spec → (∃ declaration, Declared declaration spec) ∧
      ∀ produced, (spec.kind.Accepts (.ofTag produced) ↔
          spec.kind.tag = "*" ∨ produced = "*" ∨ produced = spec.kind.tag) ∧
        ∀ graph id link source, NodeRules.sourceClass? graph link = some source →
          (Snapshot.mk types stamp).outputType? source link.slot = some produced →
          (NodeRules.compatibilityIssue? graph ⟨types, stamp⟩ id schema input link = none ↔
            spec.kind.Accepts (.ofTag produced)) := by
  refine ⟨declared_parseInput, ?_⟩
  intro payload types stamp read type schema input spec known found
  obtain ⟨declaration, required, rfl⟩ := parsed_parse read known input spec found
  have normal := normal_parseInput input declaration required
  refine ⟨⟨declaration, declared_parseInput input declaration required⟩, fun produced => ?_⟩
  refine ⟨normal.accepts_iff produced, fun graph id link source fed made => ?_⟩
  have honest : _ = InputKind.wildcard ↔ _ = "*" := normal.honest
  rw [compatibilityIssue?_eq_none_iff fed made found, normal.accepts_iff, honest]

def mixerEntry : Members :=
  [("input", .object [("required", .object [
      ("mode", .array [.string "COMBO", .object [("options", .array [.string "soft", .bool true])]]),
      ("size", .array [.string "INT", .object [("max", .string "9"), ("min", .number (.ofNat 1))]])])]),
    ("output", .array [.array [.string "soft"], .string "FLOAT"])]

def mixerPayload : Json := .object [("Mixer", .object mixerEntry)]

def mixing : Graph := ⟨.ofList [("1", ⟨some "Mixer", some .empty, none, []⟩)]⟩

theorem mixerPayload_declared : ∃ types schema mode size, parse mixerPayload = .ok types ∧
    types.get? "Mixer" = some schema ∧ schema.input? "mode" = some mode ∧ schema.input? "size" = some size ∧
    mode.kind = .choice ["soft", "true"] ∧ size.kind = .primitive "INT" ∧ size.min.isSome = true ∧ size.max = none ∧
    mode.kind.Accepts (.ofTag "COMBO") ∧ ¬ size.kind.Accepts (.ofTag "FLOAT") ∧
    NodeRules.compatibilityIssue? mixing ⟨types, none⟩ "2" schema "mode" ⟨"1", 0⟩ = none ∧
    NodeRules.compatibilityIssue? mixing ⟨types, none⟩ "2" schema "size" ⟨"1", 1⟩ ≠ none := by
  obtain ⟨_, compatible⟩ := parseInput_declared
  have choice := compatible mixerPayload (.ofList [("Mixer", parseEntry "Mixer" mixerEntry)]) none rfl "Mixer" _ "mode" _
    rfl rfl
  have number := compatible mixerPayload (.ofList [("Mixer", parseEntry "Mixer" mixerEntry)]) none rfl "Mixer" _ "size" _
    rfl rfl
  have taken := ((choice.2 "COMBO").1).2 (.inr (.inr rfl))
  have refused : ¬ InputKind.Accepts (.primitive "INT") (.ofTag "FLOAT") := fun accepts =>
    absurd ((number.2 "FLOAT").1.1 accepts) (by decide)
  refine ⟨_, _, _, _, rfl, rfl, rfl, rfl, rfl, rfl, rfl, rfl, taken, refused, ?_, ?_⟩
  · exact ((choice.2 "COMBO").2 mixing "2" ⟨"1", 0⟩ "Mixer" rfl rfl).2 taken
  · exact fun silent => refused (((number.2 "FLOAT").2 mixing "2" ⟨"1", 1⟩ "Mixer" rfl rfl).1 silent)

end Payload

end NodeFlow
