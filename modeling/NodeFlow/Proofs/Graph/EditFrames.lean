import NodeFlow.Proofs.Graph.Edits

namespace NodeFlow

namespace Table

variable {α : Type}

-- An entry is put in: a known name keeps its place and takes the value, and a new one comes last.
inductive Put (name : String) (value : α) : List (String × α) → List (String × α) → Prop
  | replaced (front : List (String × α)) (old : α) (back : List (String × α)) :
    Put name value (front ++ (name, old) :: back) (front ++ (name, value) :: back)
  | appended (entries : List (String × α)) (absent : name ∉ NodeFlow.names entries) :
    Put name value entries (entries ++ [(name, value)])

theorem insertEntry_append (name : String) (value old : α) (front back : List (String × α))
    (absent : ∀ entry ∈ front, entry.1 ≠ name) :
    insertEntry name value (front ++ (name, old) :: back) = front ++ (name, value) :: back := by
  induction front with
  | nil => simp [insertEntry]
  | cons entry rest ih =>
    obtain ⟨apart, later⟩ := List.forall_mem_cons.1 absent
    simp [insertEntry, apart, ih later]

theorem insert_of_get? (table : Table α) {name : String} {old : α} (found : table.get? name = some old) (value : α) :
    ∃ front back, table.entries = front ++ (name, old) :: back ∧
      (table.insert name value).entries = front ++ (name, value) :: back := by
  obtain ⟨front, back, split, absent⟩ := List.lookup_eq_some_iff.1 found
  refine ⟨front, back, split, ?_⟩
  show insertEntry name value table.entries = _
  rw [split]
  exact insertEntry_append name value old front back fun entry member same => by simpa [same] using absent entry member

theorem put_insert (table : Table α) (name : String) (value : α) :
    Put name value table.entries (table.insert name value).entries := by
  cases found : table.get? name with
  | some old =>
    obtain ⟨front, back, before, after⟩ := table.insert_of_get? found value
    rw [before, after]
    exact .replaced front old back
  | none =>
    have absent := (table.get?_eq_none_iff name).1 found
    rw [table.insert_of_not_mem name value absent]
    exact .appended _ absent

theorem filter_eq_of_get? (table : Table α) {name : String} {value : α} (found : table.get? name = some value) :
    (table.entries.filter fun entry => entry.1 == name) = [(name, value)] := by
  obtain ⟨entries, distinct⟩ := table
  obtain ⟨front, back, rfl, before⟩ := List.lookup_eq_some_iff.1 found
  rw [NodeFlow.names, List.map_append, List.map_cons] at distinct
  have behind := (List.nodup_cons.1 (List.nodup_append.1 distinct).2.1).1
  have noneBefore : (front.filter fun entry => entry.1 == name) = [] :=
    List.filter_eq_nil_iff.2 fun entry member same => by simpa [beq_iff_eq.1 same] using before entry member
  have noneBehind : (back.filter fun entry => entry.1 == name) = [] :=
    List.filter_eq_nil_iff.2 fun entry member same => behind (List.mem_map.2 ⟨entry, member, beq_iff_eq.1 same⟩)
  simp [noneBefore, noneBehind]

end Table

-- One input of a node is set. The other fields are those of before, and the input stands there once.
structure Node.InputSet (old new : Node) (name : String) (value : InputValue) : Prop where
  classField : new.classField = old.classField
  metadata : new.metadata = old.metadata
  extra : new.extra = old.extra
  held : new.inputs.isSome = true
  put : Table.Put name value old.inputEntries new.inputEntries
  once : (new.inputEntries.filter fun entry => entry.1 == name) = [(name, value)]

theorem Node.inputSet_setInput (node : Node) (name : String) (value : InputValue) :
    node.InputSet (node.setInput name value) name value := by
  have entries : node.inputEntries = (node.inputs.getD .empty).entries := by
    unfold inputEntries
    cases node.inputs <;> rfl
  refine ⟨rfl, rfl, rfl, rfl, ?_, ?_⟩
  · rw [entries]
    exact Table.put_insert _ name value
  · exact Table.filter_eq_of_get? _ ((Table.get?_insert _ name name value).trans (if_pos rfl))

namespace Edit

def Outcome.Failed : Outcome → Prop
  | .refused | .unreadable _ => True
  | .done | .added _ => False

-- The node is missing that the edit is about, or the text is not that of a workflow.
inductive Impossible (graph : Graph) : Edit → Prop
  | load {text : String} {error : Graph.LoadError} (unreadable : Graph.parse text = .error error) :
    Impossible graph (.load text)
  | remove {id : String} (absent : id ∉ graph.ids) : Impossible graph (.remove id)
  | connect {link : Link} {target input : String} (absent : target ∉ graph.ids) :
    Impossible graph (.connect link target input)
  | modify {id input : String} {value : InputValue} (absent : id ∉ graph.ids) :
    Impossible graph (.modify id input value)

end Edit

namespace Graph

variable (graph : Graph)

structure InputSet (before after : Graph) (id name : String) (value : InputValue) : Prop where
  inPlace : ∃ front old new back, before.nodes.entries = front ++ (id, old) :: back ∧
    after.nodes.entries = front ++ (id, new) :: back ∧ old.InputSet new name value

theorem settled_failed (next : Option Graph) :
    ((graph.settled next).2.Failed ↔ next = none) ∧ (next = none → (graph.settled next).1 = graph) := by
  cases next <;> simp [settled, Edit.Outcome.Failed]

theorem setInput?_eq_none_iff (id name : String) (value : InputValue) :
    graph.setInput? id name value = none ↔ id ∉ graph.ids := by
  rw [setInput?, Option.map_eq_none_iff]
  exact graph.nodes.get?_eq_none_iff id

theorem remove?_eq_none_iff (id : String) : graph.remove? id = none ↔ id ∉ graph.ids := by
  rw [← graph.contains_iff_mem_ids, remove?]
  cases graph.contains id <;> simp

theorem inputSet_of_setInput {id name : String} {value : InputValue}
    (done : (graph.settled (graph.setInput? id name value)).2 = .done) :
    graph.InputSet (graph.settled (graph.setInput? id name value)).1 id name value := by
  cases set : graph.setInput? id name value with
  | none =>
    rw [set] at done
    cases done
  | some next =>
    obtain ⟨node, found, rfl⟩ := (graph.setInput?_eq_some_iff id name value next).1 set
    obtain ⟨front, back, before, after⟩ := graph.nodes.insert_of_get? found (node.setInput name value)
    exact ⟨front, node, _, back, before, after, node.inputSet_setInput name value⟩

theorem apply_failed (edit : Edit) (failed : (graph.apply edit).2.Failed) : (graph.apply edit).1 = graph := by
  have refused : ∀ next, (graph.settled next).2.Failed → (graph.settled next).1 = graph := fun next failed =>
    (graph.settled_failed next).2 ((graph.settled_failed next).1.1 failed)
  cases edit with
  | clear => cases failed
  | load text =>
    unfold apply at failed ⊢
    dsimp only at failed ⊢
    split at failed
    · cases failed
    · rfl
  | add classType inputs title => cases failed
  | remove id => exact refused _ failed
  | connect link target input => exact refused _ failed
  | modify id input value => exact refused _ failed

theorem failed_iff_impossible (edit : Edit) : (graph.apply edit).2.Failed ↔ edit.Impossible graph := by
  cases edit with
  | clear => exact ⟨nofun, nofun⟩
  | add classType inputs title => exact ⟨nofun, nofun⟩
  | load text =>
    unfold apply
    dsimp only
    cases read : Graph.parse text with
    | ok next =>
      refine ⟨nofun, fun impossible => ?_⟩
      cases impossible with
      | load unreadable => cases read.symm.trans unreadable
    | error error => exact ⟨fun _ => .load read, fun _ => trivial⟩
  | remove id =>
    rw [apply, (graph.settled_failed _).1, remove?_eq_none_iff]
    refine ⟨.remove, fun impossible => ?_⟩
    cases impossible with
    | remove absent => exact absent
  | connect link target input =>
    rw [apply, (graph.settled_failed _).1, connect?, setInput?_eq_none_iff]
    refine ⟨.connect, fun impossible => ?_⟩
    cases impossible with
    | connect absent => exact absent
  | modify id input value =>
    rw [apply, (graph.settled_failed _).1, modify?, setInput?_eq_none_iff]
    refine ⟨.modify, fun impossible => ?_⟩
    cases impossible with
    | modify absent => exact absent

-- For every workflow, be it one that edits can make or not.
theorem apply_frame (edit : Edit) :
    ((graph.apply edit).2.Failed → (graph.apply edit).1 = graph) ∧
    ((graph.apply edit).2.Failed ↔ edit.Impossible graph) ∧
    (∀ link target input, edit = .connect link target input → (graph.apply edit).2 = .done →
      graph.InputSet (graph.apply edit).1 target input (.linked link)) ∧
    ∀ id input value, edit = .modify id input value → (graph.apply edit).2 = .done →
      graph.InputSet (graph.apply edit).1 id input value.normalized := by
  refine ⟨graph.apply_failed edit, graph.failed_iff_impossible edit, ?_, ?_⟩
  · intro link target input same done
    cases same
    exact graph.inputSet_of_setInput done
  · intro id input value same done
    cases same
    exact graph.inputSet_of_setInput done

end Graph

end NodeFlow
