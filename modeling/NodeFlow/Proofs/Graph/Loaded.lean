import NodeFlow.Graph.Document
import NodeFlow.Proofs.Graph.Lookup
import NodeFlow.Proofs.Json.Stored

namespace NodeFlow

open Json (Stored)

def reservedNames : List String := ["class_type", "inputs", "_meta"]

def InputValue.Normal (value : InputValue) : Prop := value.normalized = value

theorem InputValue.ofJson_normal (value : Json) : (InputValue.ofJson value).Normal :=
  InputValue.normalized_normalized (.literal value)

structure Node.Tidy (node : Node) : Prop where
  normal : ∀ name value, node.input? name = some value → value.Normal
  unreserved : ∀ member ∈ node.extra, member.1 ∉ reservedNames

-- Bounds on nesting: a literal stands three brackets deep in a document, an extra member two.
structure Node.Loaded (node : Node) : Prop extends node.Tidy where
  literals : ∀ name literal, node.input? name = some (.literal literal) →
    literal.Stored (Json.Read.depthLimit - 3)
  ascending : Json.Ascending node.extra
  extras : ∀ member ∈ node.extra, member.2.Stored (Json.Read.depthLimit - 2)

def Graph.Tidy (graph : Graph) : Prop := ∀ id node, graph.node? id = some node → node.Tidy

def Graph.Loaded (graph : Graph) : Prop := ∀ id node, graph.node? id = some node → node.Loaded

theorem Table.forall_insert {α : Type} {P : α → Prop} (table : Table α) (name : String) (value : α)
    (each : ∀ other old, table.get? other = some old → P old) (new : P value) :
    ∀ other found, (table.insert name value).get? other = some found → P found := by
  intro other found look
  rw [Table.get?_insert] at look
  split at look
  · cases look; exact new
  · exact each other found look

namespace Graph.Document

open Json.Read Json.Scan

variable {α : Type}

theorem mismatch_ne_ok (wanted : Json.Wanted) (c : Char) (rest : List Char) (made : α) :
    mismatch wanted c rest ≠ .ok made := by
  intro done
  unfold mismatch at done
  -- A word, number or string is read before it is found to be of the wrong shape.
  iterate 5
    split at done
    · obtain ⟨_, _, done⟩ := (bind_eq_ok_iff _ _ _).1 done
      cases done
  repeat' split at done
  all_goals cases done

theorem optional_eq_ok {reader : Char → Json.Reader α} {text rest : List Char} {found : Option α}
    (done : optional reader text = .ok (found, rest)) :
    found = none ∨ ∃ c before value, reader c before = .ok (value, rest) ∧ found = some value := by
  unfold optional at done
  split at done
  · cases done
  · split at done
    · obtain ⟨_, _, done⟩ := (bind_eq_ok_iff _ _ _).1 done
      cases done
      exact .inl rfl
    · obtain ⟨⟨value, after⟩, one, done⟩ := (bind_eq_ok_iff _ _ _).1 done
      cases done
      exact .inr ⟨_, _, value, one, rfl⟩

theorem once_eq_ok {seen : Option α} {name : String} {reader : Json.Reader α} {text rest : List Char}
    {read : α} (done : once seen name reader text = .ok (read, rest)) :
    seen = none ∧ ∃ before, reader before = .ok (read, rest) := by
  unfold once at done
  split at done
  · unfold repeated at done
    split at done <;> cases done
  · obtain ⟨before, _, done⟩ := (bind_eq_ok_iff _ _ _).1 done
    exact ⟨rfl, before, done⟩

theorem braced_eq_ok {σ : Type} {wanted : Json.Wanted} {field : FieldReader σ} {start final : σ}
    {text rest : List Char} (done : braced wanted field start text = .ok (final, rest)) :
    ∃ inner, members field start inner = .ok (final, rest) := by
  unfold braced at done
  split at done
  · cases done
  · split at done
    · exact ⟨_, done⟩
    · exact absurd done (mismatch_ne_ok _ _ _ _)

def InputRead (value : InputValue) : Prop :=
  value.Normal ∧ ∀ literal, value = .literal literal → literal.Stored (depthLimit - 3)

theorem ofJson_read (value : Json) (stored : value.Stored (depthLimit - 3)) :
    InputRead (.ofJson value) := by
  refine ⟨InputValue.ofJson_normal value, ?_⟩
  intro literal same
  unfold InputValue.ofJson at same
  split at same
  · cases same
  · cases same; exact stored

def InputsRead (inputs : Inputs) : Prop := ∀ name value, inputs.get? name = some value → InputRead value

theorem inputsField_keeps : Keeps inputsField InputsRead := by
  intro inputs name text next rest start done
  obtain ⟨read, before, one, rfl⟩ := keptField_eq_ok done
  exact Table.forall_insert inputs name _ start (ofJson_read read (value_stored _ _ _ _ one))

theorem optionalInputs_read {text rest : List Char} {found : Option Inputs}
    (done : optionalInputs text = .ok (found, rest)) : ∀ inputs, found = some inputs → InputsRead inputs := by
  rcases optional_eq_ok done with rfl | ⟨c, before, inputs, one, rfl⟩
  · intro inputs none; cases none
  · intro other same
    cases same
    split at one
    · have none : InputsRead .empty := fun name value found => by cases found
      exact members_keeps inputsField_keeps _ _ _ _ none one
    · exact absurd one (mismatch_ne_ok _ _ _ _)

theorem recordField_keeps : Keeps recordField fun draft => draft.node.Loaded := by
  intro draft name text next rest start done
  unfold recordField at done
  split at done
  · obtain ⟨⟨found, after⟩, _, done⟩ := (bind_eq_ok_iff _ _ _).1 done
    cases done
    exact ⟨⟨start.normal, start.unreserved⟩, start.literals, start.ascending, start.extras⟩
  · split at done
    · obtain ⟨⟨found, after⟩, one, done⟩ := (bind_eq_ok_iff _ _ _).1 done
      cases done
      obtain ⟨_, before, one⟩ := once_eq_ok one
      have read : ∀ name value, (Draft.node { draft with inputs := some found }).input? name = some value →
          InputRead value := by
        intro name value look
        obtain ⟨inputs, same, look⟩ := Option.bind_eq_some_iff.1 look
        exact optionalInputs_read one inputs same name value look
      exact ⟨⟨fun name value look => (read name value look).1, start.unreserved⟩,
        fun name literal look => (read name _ look).2 literal rfl, start.ascending, start.extras⟩
    · split at done
      · obtain ⟨⟨found, after⟩, _, done⟩ := (bind_eq_ok_iff _ _ _).1 done
        cases done
        exact ⟨⟨start.normal, start.unreserved⟩, start.literals, start.ascending, start.extras⟩
      · rename_i notClass notInputs notMeta
        obtain ⟨read, before, one, rfl⟩ := keptField_eq_ok done
        have member := Json.mem_insertMember name read draft.extra
        refine ⟨⟨start.normal, ?_⟩, start.literals, Json.insertMember_ascending name read _ start.ascending, ?_⟩
        · intro entry found
          rcases member entry found with rfl | old
          · simp [reservedNames, notClass, notInputs, notMeta]
          · exact start.unreserved entry old
        · intro entry found
          rcases member entry found with rfl | old
          · exact value_stored _ _ _ _ one
          · exact start.extras entry old

theorem record_loaded {text rest : List Char} {node : Node} (done : record text = .ok (node, rest)) :
    node.Loaded := by
  obtain ⟨⟨draft, after⟩, one, done⟩ := (bind_eq_ok_iff _ _ _).1 done
  cases done
  obtain ⟨inner, one⟩ := braced_eq_ok one
  have empty : (Draft.node .empty).Loaded := by
    refine ⟨⟨?_, ?_⟩, ?_, List.Pairwise.nil, ?_⟩
    · intro _ _ look; cases look
    · intro _ member; cases member
    · intro _ _ look; cases look
    · intro _ member; cases member
  exact members_keeps recordField_keeps _ _ _ _ empty one

theorem nodeField_keeps : Keeps nodeField fun nodes => (Graph.mk nodes).Loaded := by
  intro nodes id text next rest start done
  obtain ⟨before, _, done⟩ := (bind_eq_ok_iff _ _ _).1 done
  obtain ⟨⟨node, after⟩, one, done⟩ := (bind_eq_ok_iff _ _ _).1 done
  cases done
  exact Table.forall_insert nodes id node start (record_loaded one)

theorem workflow_loaded {text rest : List Char} {graph : Graph}
    (done : workflow text = .ok (graph, rest)) : graph.Loaded := by
  obtain ⟨⟨nodes, after⟩, one, done⟩ := (bind_eq_ok_iff _ _ _).1 done
  cases done
  obtain ⟨inner, one⟩ := braced_eq_ok one
  have none : (Graph.mk .empty).Loaded := fun id node look => by cases look
  exact members_keeps nodeField_keeps _ _ _ _ none one

end Graph.Document

theorem Graph.parse_eq_ok_iff (text : String) (graph : Graph) :
    Graph.parse text = .ok graph ↔ Json.Read.whole Graph.Document.workflow text.toList = .ok graph := by
  unfold Graph.parse
  cases Json.Read.whole Graph.Document.workflow text.toList with
  | ok read => simp
  | error failure => dsimp only; split <;> simp

theorem Graph.parse_loaded {text : String} {graph : Graph} (read : Graph.parse text = .ok graph) :
    graph.Loaded := by
  obtain ⟨rest, done, _⟩ := Json.Read.whole_eq_ok ((Graph.parse_eq_ok_iff text graph).1 read)
  exact Graph.Document.workflow_loaded done

theorem Graph.Loaded.tidy {graph : Graph} (loaded : graph.Loaded) : graph.Tidy :=
  fun id node found => (loaded id node found).toTidy

end NodeFlow
