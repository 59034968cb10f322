import NodeFlow.Proofs.Catalog.Payloads
import NodeFlow.Proofs.Json.Numerals
import NodeFlow.Proofs.Number.Integers
import NodeFlow.Proofs.Validation.LinkFaults

namespace NodeFlow

section Texts

open Json.Scan (digits_toDigits)

theorem split_at_last {α : Type} {mark : α} {front other back rest : List α} (free : mark ∉ back) (last : mark ∉ rest)
    (same : front ++ mark :: back = other ++ mark :: rest) : front = other ∧ back = rest := by
  rcases List.append_eq_append_iff.1 same with ⟨middle, longer, tail⟩ | ⟨middle, longer, tail⟩
  · cases middle with
    | nil =>
      cases tail
      exact ⟨by rw [longer, List.append_nil], rfl⟩
    | cons first others =>
      cases tail
      exact absurd (List.mem_append_right others List.mem_cons_self) free
  · cases middle with
    | nil =>
      cases tail
      exact ⟨by rw [longer, List.append_nil], rfl⟩
    | cons first others =>
      cases tail
      exact absurd (List.mem_append_right others List.mem_cons_self) last

theorem mark_not_mem_toDigits (n : Nat) : '=' ∉ Nat.toDigits 10 n :=
  fun member => absurd (digits_toDigits n '=' member) (by decide)

namespace FloatLayout

variable {digits : List Char} (free : '=' ∉ digits)

include free

theorem mark_not_mem_placed (layout : FloatLayout) (point : Int) : '=' ∉ layout.placed digits point := by
  have early : '=' ∉ digits.take point.toNat := fun member => free (List.mem_of_mem_take member)
  have late : '=' ∉ digits.drop point.toNat := fun member => free (List.mem_of_mem_drop member)
  unfold placed zeros
  split
  · simp [free]
  split
  · split <;> simp [free]
  · simp [early, late]

theorem mark_not_mem_scientific (exponent : Int) : '=' ∉ scientific digits exponent := by
  have power := mark_not_mem_toDigits exponent.natAbs
  have sign : '=' ≠ (if exponent < 0 then '-' else '+') := by split <;> decide
  unfold scientific
  dsimp only
  split
  · simp [power, sign]
  · rename_i lead
    have apart : '=' ≠ lead := fun same => free (same ▸ List.mem_cons_self)
    simp [power, sign, apart]
  · rename_i lead others _
    have apart : '=' ≠ lead := fun same => free (same ▸ List.mem_cons_self)
    have rest : '=' ∉ others := fun member => free (List.mem_cons_of_mem _ member)
    simp [power, sign, apart, rest]

omit free

theorem mark_not_mem_render (layout : FloatLayout) (x : Binary64) : '=' ∉ layout.render x := by
  have free := mark_not_mem_toDigits (x.shortest layout.tie).digits
  have positional := fun point => mark_not_mem_placed free layout point
  have scaled := fun exponent => mark_not_mem_scientific free exponent
  unfold render
  dsimp only
  split <;> split <;> simp [positional, scaled]

end FloatLayout

theorem Float64.mark_not_mem_message (bound : Float64) : '=' ∉ bound.message := by
  cases bound with
  | finite x => exact FloatLayout.message.mark_not_mem_render x
  | infinite negative => cases negative <;> decide
  | undefined => decide

theorem Number.mark_not_mem_render (value : Number) : '=' ∉ value.render := by
  cases value with
  | integer n fits =>
    have free := mark_not_mem_toDigits n.natAbs
    show '=' ∉ (if n < 0 then ['-'] else []) ++ Nat.toDigits 10 n.natAbs
    split <;> simp [free]
  | float x => exact FloatLayout.document.mark_not_mem_render x

end Texts

def rangeWarning (id type input : String) (number : Number) (which : String) (bound : Float64) : Issue :=
  .warning .valueRange id ("Node '" ++ id ++ "' (" ++ type ++ ")" ++ " " ++ input ++ "=" ++
    (Json.number number).compact ++ ", " ++ which ++ " is " ++ String.ofList bound.message)

def Report.Warns (report : Report) (id type input : String) (number : Number) (which : String) : Prop :=
  ∃ bound, rangeWarning id type input number which bound ∈ report.issues

section Wording

variable {id type input other which what : String} {number found : Number} {bound limit : Float64}

theorem rangeWarning_input (free : '=' ∉ which.toList) (plain : '=' ∉ what.toList)
    (same : rangeWarning id type input number which bound = rangeWarning id type other found what limit) :
    input = other := by
  have texts := congrArg String.toList (congrArg Issue.message same)
  have marked : "=".toList = ['='] := rfl
  simp only [rangeWarning, Issue.warning, Json.compact, Json.render, String.toList_append, String.toList_ofList,
    List.append_assoc, List.append_cancel_left_eq] at texts
  rw [marked, List.singleton_append, List.singleton_append] at texts
  obtain ⟨names, _⟩ := split_at_last
    (by simp [number.mark_not_mem_render, free, bound.mark_not_mem_message])
    (by simp [found.mark_not_mem_render, plain, limit.mark_not_mem_message]) texts
  exact String.toList_inj.1 names

theorem minimum_ne_maximum :
    rangeWarning id type input number "minimum" bound ≠ rangeWarning id type input number "maximum" limit := by
  intro same
  have texts := congrArg String.toList (congrArg Issue.message same)
  simp only [rangeWarning, Issue.warning, String.toList_append, List.append_assoc,
    List.append_cancel_left_eq] at texts
  cases texts

end Wording

section Rules

open NodeRules

variable {graph : Graph} {snapshot : Snapshot} {id : String} {node : Node} {schema : NodeType}

theorem mem_literalInputs_iff (spec : InputSpec) (literal : Json) : (spec, literal) ∈ literalInputs node schema ↔
    ∃ name, node.input? name = some (.literal literal) ∧ schema.input? name = some spec := by
  simp only [literalInputs, List.mem_filterMap, Prod.exists, node.mem_inputEntries_iff]
  constructor
  · intro listed
    obtain ⟨name, value, held, made⟩ := listed
    obtain ⟨other, isLiteral, made⟩ := Option.bind_eq_some_iff.1 made
    obtain ⟨found, declared, made⟩ := Option.bind_eq_some_iff.1 made
    cases made
    cases value with
    | linked link => cases isLiteral
    | literal value =>
      cases isLiteral
      exact ⟨name, held, declared⟩
  · intro given
    obtain ⟨name, held, declared⟩ := given
    exact ⟨name, _, held, by simp [InputValue.literal?, declared]⟩

theorem mem_boundIssue_iff (bound : Option Float64) (beyond : Float64 → Bool)
    (made : Float64 → Issue) (issue : Issue) :
    issue ∈ (match bound with
      | some limit => if beyond limit then [made limit] else []
      | none => []) ↔ ∃ limit, bound = some limit ∧ beyond limit = true ∧ issue = made limit := by
  cases bound with
  | none => simp
  | some limit => by_cases out : beyond limit <;> simp [out]

theorem mem_rangeIssues_iff (spec : InputSpec) (literal : Json) (issue : Issue) :
    issue ∈ rangeIssues id schema spec literal ↔ ∃ number, literal = .number number ∧
      ((∃ min, spec.min = some min ∧ min.isAbove number.toBinary64 = true ∧
          issue = rangeWarning id schema.name spec.name number "minimum" min) ∨
        ∃ max, spec.max = some max ∧ max.isBelow number.toBinary64 = true ∧
          issue = rangeWarning id schema.name spec.name number "maximum" max) := by
  cases literal with
  | number number =>
    have below := mem_boundIssue_iff spec.min (·.isAbove number.toBinary64)
      (rangeWarning id schema.name spec.name number "minimum") issue
    have above := mem_boundIssue_iff spec.max (·.isBelow number.toBinary64)
      (rangeWarning id schema.name spec.name number "maximum") issue
    constructor
    · intro found
      refine ⟨number, rfl, ?_⟩
      exact (List.mem_append.1 found).imp below.1 above.1
    · intro out
      obtain ⟨_, same, out⟩ := out
      cases same
      exact List.mem_append.2 (out.imp below.2 above.2)
  | _ => simp [rangeIssues, Json.number?]

-- Of the rules about a node that has a known type, one alone makes warnings of this check.
theorem mem_valueRange_iff {type : String} (held : graph.node? id = some node) (typed : node.Typed type)
    (known : snapshot.type? type = some schema) {issue : Issue} (owner : issue.nodeId = id)
    (check : issue.check = .valueRange) :
    issue ∈ (graph.validate snapshot).issues ↔ issue ∈ valueRange id node schema := by
  have loaded : snapshot.isLoaded = true := by
    rw [Snapshot.isLoaded, (snapshot.types.isEmpty_eq_false_iff).2 ⟨type, schema, known⟩]
    rfl
  have about : issue ∈ (graph.validate snapshot).issues ↔
      issue ∈ graph.structuralIssuesOf id node ++ NodeRules.issues graph snapshot id node := by
    rw [← graph.issues_about snapshot id node loaded held, List.mem_filter]
    simp [owner]
  have other : ∀ {rule : Check} {issues : List Issue}, Marked id rule issues → rule ≠ .valueRange → issue ∉ issues :=
    fun marked apart found => apart ((marked issue found).2.symm.trans check)
  have structural : issue ∉ graph.structuralIssuesOf id node := by
    intro found
    have kind := (about_structuralIssuesOf graph id node issue found).2
    rw [check] at kind
    cases kind
  rw [about, List.mem_append, NodeRules.issues, (typed_iff node type).1 typed]
  simp only [known, List.mem_append, structural, false_or,
    other (marked_typeExists snapshot id type) (by decide),
    other (uniform_requiredInputs id node schema).marked (by decide),
    other (uniform_slotRange graph snapshot id node).marked (by decide),
    other (uniform_typeCompatibility graph snapshot id node schema).marked (by decide),
    other (uniform_enumeratedChoice id node schema).marked (by decide), or_false]

def NodeType.Named (schema : NodeType) : Prop := ∀ input spec, schema.input? input = some spec → spec.name = input

variable {input : String} {spec : InputSpec} {number : Number}

theorem warns_iff_mem_rangeIssues (held : graph.node? id = some node) (typed : node.Typed schema.name)
    (known : snapshot.type? schema.name = some schema) (named : schema.Named)
    (declared : schema.input? input = some spec) (given : node.input? input = some (.literal (.number number)))
    {which : String} (free : '=' ∉ which.toList) :
    (graph.validate snapshot).Warns id schema.name input number which ↔
      ∃ bound, rangeWarning id schema.name spec.name number which bound ∈
        rangeIssues id schema spec (.number number) := by
  have own := named input spec declared
  refine exists_congr fun bound => ?_
  rw [mem_valueRange_iff held typed known rfl rfl, valueRange, List.mem_flatMap, own]
  constructor
  · intro warned
    obtain ⟨⟨other, literal⟩, listed, made⟩ := warned
    obtain ⟨name, holds, stands⟩ := (mem_literalInputs_iff other literal).1 listed
    have plain : '=' ∉ "minimum".toList ∧ '=' ∉ "maximum".toList := by decide
    obtain ⟨found, _, out⟩ := (mem_rangeIssues_iff _ _ _).1 made
    have same : input = name := by
      rw [← named name other stands]
      rcases out with ⟨min, _, _, same⟩ | ⟨max, _, _, same⟩
      · exact rangeWarning_input free plain.1 same
      · exact rangeWarning_input free plain.2 same
    cases same
    cases declared.symm.trans stands
    cases given.symm.trans holds
    exact made
  · intro made
    exact ⟨_, (mem_literalInputs_iff spec _).2 ⟨input, given, declared⟩, made⟩

theorem warns_iff (held : graph.node? id = some node) (typed : node.Typed schema.name)
    (known : snapshot.type? schema.name = some schema) (named : schema.Named)
    (declared : schema.input? input = some spec) (given : node.input? input = some (.literal (.number number))) :
    ((graph.validate snapshot).Warns id schema.name input number "minimum" ↔
      ∃ min, spec.min = some min ∧ min.isAbove number.toBinary64 = true) ∧
    ((graph.validate snapshot).Warns id schema.name input number "maximum" ↔
      ∃ max, spec.max = some max ∧ max.isBelow number.toBinary64 = true) := by
  rw [warns_iff_mem_rangeIssues held typed known named declared given (by decide),
    warns_iff_mem_rangeIssues held typed known named declared given (by decide)]
  simp only [mem_rangeIssues_iff, Json.number.injEq, exists_eq_left', minimum_ne_maximum, minimum_ne_maximum.symm,
    and_false, exists_false, or_false, false_or]
  constructor
  · constructor
    · intro out
      obtain ⟨_, min, bounded, below, _⟩ := out
      exact ⟨min, bounded, below⟩
    · intro out
      obtain ⟨min, bounded, below⟩ := out
      exact ⟨min, min, bounded, below, rfl⟩
  · constructor
    · intro out
      obtain ⟨_, max, bounded, above, _⟩ := out
      exact ⟨max, bounded, above⟩
    · intro out
      obtain ⟨max, bounded, above⟩ := out
      exact ⟨max, max, bounded, above, rfl⟩

end Rules

namespace Payload

inductive Bounded (constraints : Members) (which : String) : Option Int → Prop
  | free (absent : ∀ value, (which, value) ∉ constraints) : Bounded constraints which none
  | given {bound : Int} {fits : -0x8000000000000000 ≤ bound ∧ bound ≤ 0xffffffffffffffff}
      (set : (which, .number (.integer bound fits)) ∈ constraints) : Bounded constraints which (some bound)

inductive IntegerInput : Json → Option Int → Option Int → Prop
  | plain {rest : List Json} (free : ∀ constraints, rest.head? ≠ some (.object constraints)) :
      IntegerInput (.array (.string "INT" :: rest)) none none
  | constrained {constraints : Members} {rest : List Json} {min max : Option Int}
      (least : Bounded constraints "min" min) (greatest : Bounded constraints "max" max) :
      IntegerInput (.array (.string "INT" :: .object constraints :: rest)) min max

-- The declaration that counts for an input, and whether it requires the input.
inductive Governs (info : Members) (input : String) (declaration : Json) : Bool → Prop
  | required (declared : Declares info "required" input declaration) : Governs info input declaration true
  | optional (free : ∀ other, ¬ Declares info "required" input other)
      (declared : Declares info "optional" input declaration) : Governs info input declaration false

def DeclaresInteger (payload : Json) (type input : String) (min max : Option Int) : Prop :=
  ∃ entries info declaration required, payload = .object entries ∧ (type, .object info) ∈ entries ∧
    Governs info input declaration required ∧ IntegerInput declaration min max

section Declarations

open Binary64 (nearest)

variable {info constraints : Members} {input : String} {declaration : Json} {required : Bool}

theorem boundOf_of_bounded (canonical : (Json.object constraints).Canonical) {which : String} {bound : Option Int}
    (bounded : Bounded constraints which bound) : boundOf constraints which = bound.map (.finite <| nearest ·) := by
  unfold boundOf
  cases bounded with
  | free absent =>
    cases found : member? constraints which with
    | none => rfl
    | some value => exact absurd ((member?_eq_some_iff canonical value).1 found) (absent value)
  | given set =>
    rw [(member?_eq_some_iff canonical _).2 set]
    rfl

theorem bounds_of_integerInput (canonical : declaration.Canonical) {min max : Option Int}
    (integer : IntegerInput declaration min max) :
    (parseInput input declaration required).min = min.map (.finite <| nearest ·) ∧
      (parseInput input declaration required).max = max.map (.finite <| nearest ·) := by
  cases integer with
  | @plain rest free =>
    have none : (rest.head?.bind Json.object?).getD [] = [] := by
      cases found : rest.head? with
      | none => rfl
      | some value =>
        cases value with
        | object constraints => exact absurd found (free constraints)
        | _ => rfl
    simp only [parseInput, none]
    exact ⟨rfl, rfl⟩
  | @constrained constraints rest min max least greatest =>
    have inner : (Json.object constraints).Canonical :=
      (Json.canonicalItems_iff _).1 canonical _ (List.mem_cons_of_mem _ List.mem_cons_self)
    exact ⟨boundOf_of_bounded inner least, boundOf_of_bounded inner greatest⟩

theorem canonical_of_declares (canonical : (Json.object info).Canonical) {part : String}
    (declared : Declares info part input declaration) : declaration.Canonical := by
  have inner := canonical_partOf (canonical_partOf canonical "input") part
  exact (Json.canonicalMembers_iff _).1 inner.2 _ ((declares_iff canonical part input declaration).1 declared)

theorem canonical_of_governs (canonical : (Json.object info).Canonical)
    (governs : Governs info input declaration required) : declaration.Canonical := by
  cases governs with
  | required declared => exact canonical_of_declares canonical declared
  | optional _ declared => exact canonical_of_declares canonical declared

variable {name : String} {schema : NodeType}

theorem Describes.input?_of_governs (describes : Describes name info schema)
    (governs : Governs info input declaration required) :
    schema.input? input = some (parseInput input declaration required) := by
  unfold NodeType.input?
  cases governs with
  | required declared => rw [describes.required.specs input declaration declared]
  | optional free declared =>
    rw [describes.required.get?_eq_none free]
    exact describes.optional.specs input declaration declared

theorem Describes.named_inputs (describes : Describes name info schema) : schema.Named := by
  intro input spec declared
  unfold NodeType.input? at declared
  split at declared
  · rename_i found
    cases declared
    exact (describes.required.marked input _ found).1
  · exact (describes.optional.marked input spec declared).1

end Declarations

-- The contract of a type that a payload declares, as far as one of its integer inputs goes.
theorem type?_of_declaresInteger {payload : Json} {snapshot : Snapshot} {type input : String} {min max : Option Int}
    (canonical : payload.Canonical) (read : parse payload = .ok snapshot.types)
    (declared : DeclaresInteger payload type input min max) :
    ∃ schema spec, snapshot.type? type = some schema ∧ schema.name = type ∧ schema.Named ∧
      schema.input? input = some spec ∧ spec.min = min.map (.finite <| Binary64.nearest ·) ∧
      spec.max = max.map (.finite <| Binary64.nearest ·) := by
  obtain ⟨entries, info, declaration, required, same, member, governs, integer⟩ := declared
  cases same
  obtain ⟨_, same, objects⟩ := (exists_parse_iff canonical).1 ⟨_, read⟩
  cases same
  obtain ⟨types, again, _, each⟩ := parse_of_objects canonical.1 objects
  have found := each type info member
  rw [← Except.ok.inj (read.symm.trans again)] at found
  have inner := (Json.canonicalMembers_iff entries).1 canonical.2 _ member
  have describes := describes_parseEntry inner type
  obtain ⟨least, greatest⟩ := bounds_of_integerInput (canonical_of_governs inner governs) integer
  exact ⟨_, _, found, rfl, describes.named_inputs, describes.input?_of_governs governs, least, greatest⟩

end Payload

section Bounds

open Binary64 (nearest nearest_lt_iff near_of_nearest_eq wordLimit wholeLimit coarsest)

theorem natAbs_lt_wordLimit {n : Int} (fits : -0x8000000000000000 ≤ n ∧ n ≤ 0xffffffffffffffff) :
    n.natAbs < wordLimit := by
  unfold wordLimit
  omega

theorem Payload.IntegerInput.fits {declaration : Json} {min max : Option Int}
    (integer : IntegerInput declaration min max) {bound : Int} (among : min = some bound ∨ max = some bound) :
    -0x8000000000000000 ≤ bound ∧ bound ≤ 0xffffffffffffffff := by
  cases integer with
  | plain => simp at among
  | constrained least greatest =>
    rcases among with same | same
    · cases same
      cases least with
      | @given _ fits _ => exact fits
    · cases same
      cases greatest with
      | @given _ fits _ => exact fits

-- Of an integer input an integer is warned if it lies beyond a bound and has another float than the bound. No bound
-- below the limit of exact floats is missed, and no value that is further from its bound than the gaps span.
theorem integer_bounds {payload : Json} {graph : Graph} {snapshot : Snapshot} {node : Node} {id type input : String}
    {min max : Option Int} {n : Int} {fits : -0x8000000000000000 ≤ n ∧ n ≤ 0xffffffffffffffff}
    (canonical : payload.Canonical) (read : Payload.parse payload = .ok snapshot.types)
    (declared : Payload.DeclaresInteger payload type input min max)
    (held : graph.node? id = some node) (typed : node.Typed type)
    (given : node.input? input = some (.literal (.number (.integer n fits)))) :
    ((graph.validate snapshot).Warns id type input (.integer n fits) "minimum" ↔
      ∃ least, min = some least ∧ n < least ∧ nearest n ≠ nearest least) ∧
    ((graph.validate snapshot).Warns id type input (.integer n fits) "maximum" ↔
      ∃ greatest, max = some greatest ∧ greatest < n ∧ nearest n ≠ nearest greatest) ∧
    ∀ bound, min = some bound ∨ max = some bound → n ≠ bound → nearest n = nearest bound →
      wholeLimit ≤ n.natAbs ∧ wholeLimit ≤ bound.natAbs ∧ (n - bound).natAbs ≤ coarsest := by
  have word := natAbs_lt_wordLimit fits
  have bounds : ∀ {bound}, min = some bound ∨ max = some bound → bound.natAbs < wordLimit := by
    intro bound among
    obtain ⟨_, _, _, _, _, _, _, integer⟩ := declared
    exact natAbs_lt_wordLimit (integer.fits among)
  obtain ⟨schema, spec, known, own, named, stands, least, greatest⟩ :=
    Payload.type?_of_declaresInteger canonical read declared
  cases own
  obtain ⟨below, above⟩ := warns_iff held typed known named stands given
  refine ⟨below.trans ?_, above.trans ?_, fun bound among apart same => ?_⟩
  · rw [least]
    simp only [Option.map_eq_some_iff, exists_exists_and_eq_and, Float64.isAbove, decide_eq_true_eq]
    exact exists_congr fun bound => and_congr_right fun set => nearest_lt_iff word (bounds (.inl set))
  · rw [greatest]
    simp only [Option.map_eq_some_iff, exists_exists_and_eq_and, Float64.isBelow, decide_eq_true_eq]
    refine exists_congr fun bound => and_congr_right fun set => ?_
    exact (nearest_lt_iff (bounds (.inr set)) word).trans (and_congr_right fun _ => ne_comm)
  · exact near_of_nearest_eq word (bounds among) same apart

-- A sampler whose seeds end at the limit of exact floats.
def seedDeclaration : Json :=
  .array [.string "INT", .object [("max", .number (.integer 0x20000000000000 (by decide))),
    ("min", .number (.integer 0 (by decide)))]]

def seedPayload : Json :=
  .object [("Sampler", .object [("input", .object [("required", .object [("seed", seedDeclaration)])])])]

def seedHost : Snapshot := ⟨(Payload.parse seedPayload).toOption.getD .empty, none⟩

def seeded (seed : Number) : Node := ⟨some "Sampler", some (.ofList [("seed", .literal (.number seed))]), none, []⟩

def sampled (seed : Number) : Graph := ⟨.ofList [("1", seeded seed)]⟩

def seedBefore : Number := .integer (-1) (by decide)

def seedBehind : Number := .integer 0x20000000000001 (by decide)

theorem seedPayload_declares : Payload.DeclaresInteger seedPayload "Sampler" "seed" (some 0) (some 0x20000000000000) :=
  ⟨_, _, seedDeclaration, true, rfl, List.mem_cons_self,
    .required ⟨_, _, List.mem_cons_self, List.mem_cons_self, List.mem_cons_self⟩,
    .constrained (.given (List.mem_cons_of_mem _ List.mem_cons_self)) (.given List.mem_cons_self)⟩

theorem seedBefore_warned : seedPayload.Canonical ∧ Payload.parse seedPayload = .ok seedHost.types ∧
    ((sampled seedBefore).validate seedHost).Warns "1" "Sampler" "seed" seedBefore "minimum" ∧
    ¬ ((sampled seedBefore).validate seedHost).Warns "1" "Sampler" "seed" seedBefore "maximum" := by
  have canonical : seedPayload.Canonical := by
    simp only [seedPayload, seedDeclaration, Json.Canonical, Json.CanonicalMembers, Json.CanonicalItems, Json.Ascending]
    decide
  have read : Payload.parse seedPayload = .ok seedHost.types := rfl
  have held : (sampled seedBefore).node? "1" = some (seeded seedBefore) := rfl
  have given : (seeded seedBefore).input? "seed" = some (.literal (.number seedBefore)) := rfl
  obtain ⟨below, above, _⟩ := integer_bounds canonical read seedPayload_declares held ⟨rfl, by simp⟩ given
  refine ⟨canonical, read, below.2 ⟨0, rfl, by decide, by decide +kernel⟩, fun warned => ?_⟩
  obtain ⟨greatest, set, lt, _⟩ := above.1 warned
  cases set
  exact absurd lt (by decide)

-- The seed behind the last one has its float: it is too great, and nothing is said of it.
theorem seedBehind_missed : Payload.DeclaresInteger seedPayload "Sampler" "seed" (some 0) (some 0x20000000000000) ∧
    Payload.parse seedPayload = .ok seedHost.types ∧ (0x20000000000000 : Int) < 0x20000000000001 ∧
    (seeded seedBehind).input? "seed" = some (.literal (.number (.integer 0x20000000000001 (by decide)))) ∧
    ((sampled seedBehind).validate seedHost).issues = [] ∧
    ¬ ((sampled seedBehind).validate seedHost).Warns "1" "Sampler" "seed" seedBehind "maximum" := by
  have silent : ((sampled seedBehind).validate seedHost).issues = [] := by decide +kernel
  refine ⟨seedPayload_declares, rfl, by decide, rfl, silent, fun warned => ?_⟩
  obtain ⟨bound, found⟩ := warned
  rw [silent] at found
  cases found

end Bounds

end NodeFlow
