import NodeFlow.Proofs.Catalog.Kinds
import NodeFlow.Proofs.Validation.Parts

namespace NodeFlow

-- An optional declaration counts where there is no required one.
inductive NodeType.Declares (schema : NodeType) (input : String) (spec : InputSpec) : Prop
  | required (here : schema.requiredInputs.get? input = some spec)
  | optional (free : schema.requiredInputs.get? input = none)
      (here : schema.optionalInputs.get? input = some spec)

theorem NodeType.input?_eq_some_iff (schema : NodeType) (input : String) (spec : InputSpec) :
    schema.input? input = some spec ↔ schema.Declares input spec := by
  unfold NodeType.input?
  cases required : schema.requiredInputs.get? input with
  | some other =>
    constructor
    · intro same
      exact .required (required.trans same)
    · rintro (here | ⟨free, _⟩)
      · exact required.symm.trans here
      · cases required.symm.trans free
  | none =>
    constructor
    · exact .optional required
    · rintro (here | ⟨_, here⟩)
      · cases required.symm.trans here
      · exact here

structure Node.Typed (node : Node) (name : String) : Prop where
  written : node.classField = some name
  nonempty : name ≠ ""

structure Link.Resolves (link : Link) (graph : Graph) (snapshot : Snapshot) (source : Node) (name : String)
    (schema : NodeType) : Prop where
  present : graph.node? link.source = some source
  typed : source.Typed name
  known : snapshot.type? name = some schema

section Rules

open NodeRules

variable (graph : Graph) (snapshot : Snapshot) (id : String) (node : Node)

inductive LinkFault (input : String) (link : Link) : Issue → Prop
  | dangling (absent : graph.node? link.source = none) :
      LinkFault input link (.error .linkValidity id
        ("Node '" ++ id ++ "' input '" ++ input ++ "' links to non-existent node '" ++ link.source ++ "'"))
  | pastSlots {own name : String} {source : Node} {schema : NodeType} (typed : node.Typed own)
      (resolves : link.Resolves graph snapshot source name schema)
      (past : schema.outputTypes.length ≤ link.slot.toNat) :
      LinkFault input link (.error .slotRange id
        ("Node '" ++ id ++ "' input '" ++ input ++ "'" ++ " uses slot " ++ decimal link.slot.toNat ++
          " from node '" ++ link.source ++ "' (" ++ name ++ "), but it only has " ++
          decimal schema.outputTypes.length ++ " output(s)"))
  | mistyped {own name produced : String} {source : Node} {contract schema : NodeType} {spec : InputSpec}
      (typed : node.Typed own) (known : snapshot.type? own = some contract)
      (declared : contract.Declares input spec) (resolves : link.Resolves graph snapshot source name schema)
      (makes : schema.outputTypes[link.slot.toNat]? = some produced) (strict : spec.kind ≠ .wildcard)
      (definite : produced ≠ "*") (differs : produced ≠ spec.kind.tag) :
      LinkFault input link (.warning .typeCompatibility id
        ("Node '" ++ id ++ "' input '" ++ input ++ "'" ++ " expects '" ++ spec.kind.tag ++
          "' but receives '" ++ produced ++ "' from node '" ++ link.source ++ "' slot " ++
          decimal link.slot.toNat))

theorem typed_iff (name : String) : node.Typed name ↔ node.classType = some name := by
  rw [node.classType_eq_some_iff]
  exact ⟨fun typed => ⟨typed.written, typed.nonempty⟩, fun parts => ⟨parts.1, parts.2⟩⟩

theorem sourceClass?_eq_some_iff (link : Link) (name : String) : sourceClass? graph link = some name ↔
    ∃ source, graph.node? link.source = some source ∧ source.Typed name := by
  simp only [sourceClass?, Option.bind_eq_some_iff, typed_iff]

-- The three rules on one link, as functions that say nothing or one thing.
def dangling? (entry : String × Link) : Option Issue :=
  if graph.contains entry.2.source then none else some (Graph.danglingLink id entry.1 entry.2)

def pastSlots? (entry : String × Link) : Option Issue :=
  node.classType.bind fun _ => slotIssue? graph snapshot id entry.1 entry.2

def mistyped? (entry : String × Link) : Option Issue :=
  (node.classType.bind snapshot.type?).bind fun contract =>
    compatibilityIssue? graph snapshot id contract entry.1 entry.2

def linkVerdict (entry : String × Link) : Option Issue :=
  ((dangling? graph id entry).or (pastSlots? graph snapshot id node entry)).or
    (mistyped? graph snapshot id node entry)

variable {graph snapshot id node} {input : String} {link : Link} {issue : Issue}

theorem dangling?_eq_some (made : dangling? graph id (input, link) = some issue) :
    graph.node? link.source = none ∧ issue = Graph.danglingLink id input link := by
  unfold dangling? at made
  split at made
  · cases made
  · rename_i absent
    exact ⟨Option.not_isSome_iff_eq_none.1 absent, (Option.some.inj made).symm⟩

theorem dangling?_of_absent (absent : graph.node? link.source = none) :
    dangling? graph id (input, link) = some (Graph.danglingLink id input link) := by
  simp [dangling?, Graph.contains, Table.contains, show graph.nodes.get? link.source = none from absent]

theorem dangling?_of_present {source : Node} (present : graph.node? link.source = some source) :
    dangling? graph id (input, link) = none := by
  simp [dangling?, (graph.contains_iff link.source).2 ⟨source, present⟩]

theorem pastSlots?_eq_some (made : pastSlots? graph snapshot id node (input, link) = some issue) :
    (∃ source name schema, link.Resolves graph snapshot source name schema ∧
      schema.outputTypes.length ≤ link.slot.toNat) ∧
    LinkFault graph snapshot id node input link issue := by
  obtain ⟨own, called, made⟩ := Option.bind_eq_some_iff.1 made
  obtain ⟨name, type, made⟩ := Option.bind_eq_some_iff.1 made
  obtain ⟨schema, known, made⟩ := Option.bind_eq_some_iff.1 made
  obtain ⟨source, present, typed⟩ := (sourceClass?_eq_some_iff graph link name).1 type
  split at made
  · rename_i past
    cases Option.some.inj made
    exact ⟨⟨source, name, schema, ⟨present, typed, known⟩, past⟩,
      .pastSlots ((typed_iff node own).2 called) ⟨present, typed, known⟩ past⟩
  · cases made

theorem mistyped?_eq_some (made : mistyped? graph snapshot id node (input, link) = some issue) :
    (∃ source name schema, link.Resolves graph snapshot source name schema ∧
      link.slot.toNat < schema.outputTypes.length) ∧
    LinkFault graph snapshot id node input link issue := by
  obtain ⟨contract, own?, made⟩ := Option.bind_eq_some_iff.1 made
  obtain ⟨own, called, declaredType⟩ := Option.bind_eq_some_iff.1 own?
  obtain ⟨name, type, made⟩ := Option.bind_eq_some_iff.1 made
  obtain ⟨produced, makes, made⟩ := Option.bind_eq_some_iff.1 made
  obtain ⟨schema, known, makes⟩ := Option.bind_eq_some_iff.1 makes
  obtain ⟨spec, declared, made⟩ := Option.bind_eq_some_iff.1 made
  obtain ⟨source, present, typed⟩ := (sourceClass?_eq_some_iff graph link name).1 type
  obtain ⟨inRange, _⟩ := List.getElem?_eq_some_iff.1 makes
  dsimp only at made
  split at made
  · cases made
  · rename_i apart
    cases Option.some.inj made
    simp only [Bool.or_eq_true, beq_iff_eq, not_or] at apart
    obtain ⟨⟨strict, definite⟩, differs⟩ := apart
    have strict : spec.kind ≠ .wildcard := fun wild => strict (by rw [wild]; rfl)
    exact ⟨⟨source, name, schema, ⟨present, typed, known⟩, inRange⟩,
      .mistyped ((typed_iff node own).2 called) declaredType ((contract.input?_eq_some_iff input spec).1 declared)
        ⟨present, typed, known⟩ makes strict definite differs⟩

theorem pastSlots?_of_past {own name : String} {source : Node} {schema : NodeType} (typed : node.Typed own)
    (resolves : link.Resolves graph snapshot source name schema)
    (past : schema.outputTypes.length ≤ link.slot.toNat) :
    pastSlots? graph snapshot id node (input, link) = some (.error .slotRange id
      (inputOf id input ++ " uses slot " ++ decimal link.slot.toNat ++ " from node '" ++
        link.source ++ "' (" ++ name ++ "), but it only has " ++ decimal schema.outputTypes.length ++
        " output(s)")) := by
  have type := (sourceClass?_eq_some_iff graph link name).2 ⟨source, resolves.present, resolves.typed⟩
  simp [pastSlots?, slotIssue?, (typed_iff node own).1 typed, type, resolves.known, NodeType.outputCount, past]

theorem mistyped?_of_differs {own name produced : String} {source : Node} {contract schema : NodeType}
    {spec : InputSpec} (typed : node.Typed own) (known : snapshot.type? own = some contract)
    (declared : contract.Declares input spec) (resolves : link.Resolves graph snapshot source name schema)
    (makes : schema.outputTypes[link.slot.toNat]? = some produced) (strict : spec.kind ≠ .wildcard)
    (definite : produced ≠ "*") (differs : produced ≠ spec.kind.tag) :
    mistyped? graph snapshot id node (input, link) = some (.warning .typeCompatibility id
      (inputOf id input ++ " expects '" ++ spec.kind.tag ++ "' but receives '" ++ produced ++
        "' from node '" ++ link.source ++ "' slot " ++ decimal link.slot.toNat)) := by
  have type := (sourceClass?_eq_some_iff graph link name).2 ⟨source, resolves.present, resolves.typed⟩
  have made : snapshot.outputType? name link.slot = some produced := by
    simp [Snapshot.outputType?, resolves.known, NodeType.outputType?, makes]
  have plain : spec.kind.isWildcard = false := by
    cases kind : spec.kind <;> simp_all [InputKind.isWildcard]
  simp [mistyped?, compatibilityIssue?, (typed_iff node own).1 typed, known, type, made,
    (contract.input?_eq_some_iff input spec).2 declared, plain, differs, InputKind.wildcardTag, definite]

theorem Link.Resolves.unique {first second : Node} {one other : String} {left right : NodeType}
    (a : link.Resolves graph snapshot first one left) (b : link.Resolves graph snapshot second other right) :
    left = right := by
  cases a.present.symm.trans b.present
  cases a.typed.written.symm.trans b.typed.written
  cases a.known.symm.trans b.known
  rfl

theorem dangling?_or_pastSlots? (entry : String × Link) :
    dangling? graph id entry = none ∨ pastSlots? graph snapshot id node entry = none := by
  cases made : pastSlots? graph snapshot id node entry with
  | none => exact .inr rfl
  | some issue =>
    obtain ⟨⟨_, _, _, resolves, _⟩, _⟩ := pastSlots?_eq_some made
    exact .inl (dangling?_of_present resolves.present)

theorem earlier_eq_none_of_mistyped? (made : mistyped? graph snapshot id node (input, link) = some issue) :
    (dangling? graph id (input, link)).or (pastSlots? graph snapshot id node (input, link)) = none := by
  obtain ⟨⟨_, _, _, resolves, inRange⟩, _⟩ := mistyped?_eq_some made
  rw [Option.or_eq_none_iff]
  refine ⟨dangling?_of_present resolves.present, ?_⟩
  cases late : pastSlots? graph snapshot id node (input, link) with
  | none => rfl
  | some other =>
    obtain ⟨⟨_, _, _, again, past⟩, _⟩ := pastSlots?_eq_some late
    rw [again.unique resolves] at past
    exact absurd inRange (Nat.not_lt.2 past)

theorem earlier_or_mistyped? (entry : String × Link) :
    (dangling? graph id entry).or (pastSlots? graph snapshot id node entry) = none ∨
      mistyped? graph snapshot id node entry = none := by
  cases made : mistyped? graph snapshot id node entry with
  | none => exact .inr rfl
  | some issue => exact .inl (earlier_eq_none_of_mistyped? made)

theorem linkVerdict_eq_some_iff : linkVerdict graph snapshot id node (input, link) = some issue ↔
    LinkFault graph snapshot id node input link issue := by
  unfold linkVerdict
  constructor
  · intro made
    rcases Option.or_eq_some_iff.1 made with made | ⟨_, made⟩
    · rcases Option.or_eq_some_iff.1 made with made | ⟨_, made⟩
      · obtain ⟨absent, rfl⟩ := dangling?_eq_some made
        exact .dangling absent
      · exact (pastSlots?_eq_some made).2
    · exact (mistyped?_eq_some made).2
  · intro fault
    cases fault with
    | dangling absent => rw [dangling?_of_absent absent]; rfl
    | pastSlots typed resolves past =>
      rw [dangling?_of_present resolves.present, pastSlots?_of_past typed resolves past]; rfl
    | mistyped typed known declared resolves makes strict definite differs =>
      have made : mistyped? graph snapshot id node (input, link) = _ :=
        mistyped?_of_differs typed known declared resolves makes strict definite differs
      rw [earlier_eq_none_of_mistyped? made, made]; rfl

end Rules

section Reports

open NodeRules

-- Two rules of which at most one speaks of an item say together what the two in turn would say.
theorem filterMap_append_perm {α β : Type} (f g : α → Option β) (exclusive : ∀ a, f a = none ∨ g a = none)
    (items : List α) :
    (items.filterMap f ++ items.filterMap g).Perm (items.filterMap fun a => (f a).or (g a)) := by
  induction items with
  | nil => exact .nil
  | cons a rest ih =>
    rcases exclusive a with silent | silent
    · cases made : g a with
      | none => simpa [silent, made] using ih
      | some b => simpa [silent, made] using List.perm_middle.trans (ih.cons b)
    · cases made : f a with
      | none => simpa [silent, made] using ih
      | some b => simpa [silent, made] using ih.cons b

def Check.isAboutLinks : Check → Bool
  | .linkValidity | .slotRange | .typeCompatibility => true
  | _ => false

def linkIssues (issues : List Issue) : List Issue := issues.filter fun issue => issue.check.isAboutLinks

theorem linkIssues_append (first second : List Issue) :
    linkIssues (first ++ second) = linkIssues first ++ linkIssues second := List.filter_append ..

theorem linkIssues_of_marked {id : String} {check : Check} {issues : List Issue}
    (marked : Marked id check issues) (about : check.isAboutLinks = true) : linkIssues issues = issues :=
  marked.filter_of_keep Check.isAboutLinks about

theorem linkIssues_of_marked_else {id : String} {check : Check} {issues : List Issue}
    (marked : Marked id check issues) (other : check.isAboutLinks = false) : linkIssues issues = [] :=
  marked.filter_of_drop Check.isAboutLinks other

variable (graph : Graph) (snapshot : Snapshot) (id : String) (node : Node)

theorem linkIssues_structural :
    linkIssues (graph.structuralIssuesOf id node) = node.links.filterMap (dangling? graph id) := by
  unfold Graph.structuralIssuesOf
  rw [linkIssues_append, linkIssues_of_marked_else (uniform_missingClassType id node).marked rfl, List.nil_append]
  cases inputs : node.inputs with
  | none =>
    have unlinked : node.links = [] := by simp [Node.links, Node.inputEntries, inputs]
    rw [unlinked]
    rfl
  | some table => exact linkIssues_of_marked (uniform_danglingIssues graph id node).marked rfl

theorem linkIssues_catalog : linkIssues (NodeRules.issues graph snapshot id node) =
    node.links.filterMap (pastSlots? graph snapshot id node) ++
      node.links.filterMap (mistyped? graph snapshot id node) := by
  unfold NodeRules.issues pastSlots? mistyped?
  cases called : node.classType with
  | none => simp [linkIssues]
  | some own =>
    have unknown := linkIssues_of_marked_else (marked_typeExists snapshot id own) rfl
    have slots := linkIssues_of_marked (uniform_slotRange graph snapshot id node).marked rfl
    cases declared : snapshot.type? own with
    | none =>
      have silent : node.links.filterMap (fun _ => (none : Option Issue)) = [] :=
        List.filterMap_eq_nil_iff.2 fun _ _ => rfl
      simp [linkIssues_append, unknown, slots, declared, silent]
      rfl
    | some contract =>
      have required := linkIssues_of_marked_else (uniform_requiredInputs id node contract).marked rfl
      have types := linkIssues_of_marked (uniform_typeCompatibility graph snapshot id node contract).marked rfl
      have ranges := linkIssues_of_marked_else (uniform_valueRange id node contract).marked rfl
      have choices := linkIssues_of_marked_else (uniform_enumeratedChoice id node contract).marked rfl
      simp [linkIssues_append, unknown, slots, declared, required, types, ranges, choices]
      rfl

theorem linkIssues_validate (loaded : snapshot.isLoaded = true) (found : graph.node? id = some node) :
    (linkIssues ((graph.validate snapshot).issues.filter fun issue => issue.nodeId == id)).Perm
      (node.links.filterMap (linkVerdict graph snapshot id node)) := by
  rw [graph.issues_about snapshot id node loaded found, linkIssues_append, linkIssues_structural,
    linkIssues_catalog, ← List.append_assoc]
  have first := filterMap_append_perm (dangling? graph id) (pastSlots? graph snapshot id node)
    dangling?_or_pastSlots? node.links
  exact (first.append_right _).trans (filterMap_append_perm _ _ earlier_or_mistyped? node.links)

end Reports

namespace Graph

-- Whatever is missing or known, each link of a node gives at most one issue of the three checks, by its
-- own fault; a node without a class type is only asked whether its sources exist. Where the node types
-- come from a payload, the wildcard is what has the wildcard's tag.
theorem validate_links (graph : Graph) (snapshot : Snapshot) (id : String) (node : Node)
    (loaded : snapshot.isLoaded = true) (found : graph.node? id = some node) :
    (∃ verdict : String × Link → Option Issue,
      (∀ input link issue, verdict (input, link) = some issue ↔
        LinkFault graph snapshot id node input link issue) ∧
      (linkIssues ((graph.validate snapshot).issues.filter fun issue => issue.nodeId == id)).Perm
        (node.links.filterMap verdict)) ∧
    ∀ payload, Payload.parse payload = .ok snapshot.types → ∀ name schema input spec,
      snapshot.type? name = some schema → schema.Declares input spec →
        (spec.kind = .wildcard ↔ spec.kind.tag = "*") := by
  refine ⟨⟨linkVerdict graph snapshot id node, fun _ _ _ => linkVerdict_eq_some_iff,
    linkIssues_validate graph snapshot id node loaded found⟩, ?_⟩
  intro payload read name schema input spec known declared
  exact Payload.honest_parse read known input spec ((schema.input?_eq_some_iff input spec).2 declared)

def tangledNode : Node :=
  ⟨some "Blend", some (.ofList [("base", .linked ⟨"9", 0⟩), ("mask", .linked ⟨"2", 1⟩),
    ("top", .linked ⟨"2", 0⟩)]), none, []⟩

def tangled : Graph := ⟨.ofList [("1", tangledNode), ("2", ⟨some "Count", some .empty, none, []⟩)]⟩

def blendPayload : Json :=
  .object [
    ("Blend", .object [("input", .object [("required", .object [("top", .array [.string "IMAGE"]),
      ("note", .array [.string "*"])])])]),
    ("Count", .object [("output", .array [.string "INT"])])]

def blendType : NodeType :=
  ⟨"Blend", "", "Blend", "",
    .ofList [("top", ⟨"top", .reference "IMAGE", true, none, none, none⟩),
      ("note", ⟨"note", .wildcard, true, none, none, none⟩)], .empty, [], []⟩

def countType : NodeType := ⟨"Count", "", "Count", "", .empty, .empty, ["INT"], []⟩

def blendHost : Snapshot := ⟨.ofList [("Blend", blendType), ("Count", countType)], none⟩

theorem tangled_links :
    ((linkIssues ((tangled.validate blendHost).issues.filter fun issue => issue.nodeId == "1")).map
      Issue.check).Perm [.linkValidity, .slotRange, .typeCompatibility] ∧
    Payload.parse blendPayload = .ok blendHost.types ∧
    (InputKind.reference "IMAGE" = .wildcard ↔ "IMAGE" = "*") ∧ (InputKind.wildcard = .wildcard ↔ "*" = "*") := by
  obtain ⟨⟨verdict, exact, all⟩, wild⟩ := validate_links tangled blendHost "1" tangledNode rfl rfl
  have typed : tangledNode.Typed "Blend" := ⟨rfl, by simp⟩
  have counts : Node.Typed ⟨some "Count", some .empty, none, []⟩ "Count" := ⟨rfl, by simp⟩
  have base := (exact "base" ⟨"9", 0⟩ _).2 (.dangling rfl)
  have mask := (exact "mask" ⟨"2", 1⟩ _).2 (.pastSlots typed ⟨rfl, counts, rfl⟩ (Nat.le_refl 1))
  have top := (exact "top" ⟨"2", 0⟩ _).2 (.mistyped typed rfl (.required rfl) ⟨rfl, counts, rfl⟩ rfl
    (by simp) (by simp) (by simp [InputKind.tag]))
  have links : tangledNode.links = [("base", ⟨"9", 0⟩), ("mask", ⟨"2", 1⟩), ("top", ⟨"2", 0⟩)] := rfl
  have read : Payload.parse blendPayload = .ok blendHost.types := rfl
  refine ⟨?_, read, wild blendPayload read "Blend" blendType "top" _ rfl (.required rfl),
    wild blendPayload read "Blend" blendType "note" _ rfl (.required rfl)⟩
  simpa [links, base, mask, top, Issue.error, Issue.warning] using all.map Issue.check

-- A contract that was not read from a payload: its input refers to values of a type called like the wildcard.
def starredType : NodeType :=
  ⟨"Blend", "", "Blend", "", .ofList [("top", ⟨"top", .reference "*", true, none, none, none⟩)], .empty, [], []⟩

def starredHost : Snapshot := ⟨.ofList [("Blend", starredType), ("Count", countType)], none⟩

def topped : Graph :=
  ⟨.ofList [("1", ⟨some "Blend", some (.ofList [("top", .linked ⟨"2", 0⟩)]), none, []⟩),
    ("2", ⟨some "Count", some .empty, none, []⟩)]⟩

def untyped : Graph := ⟨.ofList [("1", ⟨none, some (.ofList [("top", .linked ⟨"9", 0⟩)]), none, []⟩)]⟩

-- The tag of the input is the wildcard's and yet it is warned of, and a link is also looked at where its node has no
-- class type.
theorem starred_and_untyped_told :
    (starredHost.inputType? "Blend" "top" = some ("*", true) ∧
      linkIssues (topped.validate starredHost).issues = [.warning .typeCompatibility "1"
        "Node '1' input 'top' expects '*' but receives 'INT' from node '2' slot 0"]) ∧
    linkIssues (untyped.validate starredHost).issues =
      [.error .linkValidity "1" "Node '1' input 'top' links to non-existent node '9'"] := by
  refine ⟨⟨rfl, ?_⟩, ?_⟩ <;> decide +kernel

end Graph

end NodeFlow
