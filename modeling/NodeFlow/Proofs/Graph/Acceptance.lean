import NodeFlow.Proofs.Graph.DocumentShape
import NodeFlow.Proofs.Graph.Loaded
import NodeFlow.Proofs.Json.Skimming
import NodeFlow.Proofs.Tables

namespace NodeFlow.Graph

open Json Document

-- What is read is a document, so the untyped look at the text is right about every refused one.
theorem parse_eq_malformed_iff (text : String) :
    (∃ mistake, parse text = .error (.malformed mistake)) ↔ ¬ ∃ tree, Written tree text.toList := by
  rw [← Skim.accepts_iff_written]
  unfold parse
  cases done : Read.whole workflow text.toList with
  | ok graph =>
    have accepted := (Skim.accepts_iff_written _).2 (written_of_workflow done)
    simp [accepted]
  | error failure => cases Skim.accepts text.toList <;> simp

theorem parse_eq_ok_iff_means {text : String} {tree : Tree} (written : Written tree text.toList) (graph : Graph) :
    parse text = .ok graph ↔ workflow? tree = some graph := by
  rw [parse_eq_ok_iff, ← Read.whole_means workflow_means written]
  cases Read.whole workflow text.toList <;> simp [Except.toOption]

theorem parse_eq_notAWorkflow_iff {text : String} {tree : Tree} (written : Written tree text.toList) :
    parse text = .error .notAWorkflow ↔ ¬ ∃ graph, parse text = .ok graph := by
  have wellFormed := mt (parse_eq_malformed_iff text).1 (not_not_intro ⟨tree, written⟩)
  cases done : parse text with
  | ok graph => simp
  | error failure =>
    cases failure with
    | malformed mistake => exact absurd ⟨mistake, done⟩ wellFormed
    | notAWorkflow => simp

-- A text is malformed exactly if it is no document. A document within the limits of the reader is a
-- workflow exactly if it has that shape, and then each id is bound to its last record.
theorem parse_exact (text : String) :
    ((∃ mistake, parse text = .error (.malformed mistake)) ↔ ¬ ∃ tree, Written tree text.toList) ∧
    ∀ tree, Written tree text.toList →
      (tree.Fits Numeral.InRange 127 →
        ((∃ graph, parse text = .ok graph) ↔ IsWorkflow tree) ∧
        (parse text = .error .notAWorkflow ↔ ¬ IsWorkflow tree)) ∧
      ∀ graph, parse text = .ok graph → ∃ entries nodes, tree = .object entries ∧ Bound entries nodes ∧
        graph.ids = (names nodes).eraseDups ∧ ∀ id, graph.node? id = nodes.reverse.lookup id := by
  refine ⟨parse_eq_malformed_iff text, fun tree written => ⟨fun fits => ?_, fun graph done => ?_⟩⟩
  · have shaped : (∃ graph, parse text = .ok graph) ↔ IsWorkflow tree := by
      simp only [parse_eq_ok_iff_means written, ← Option.isSome_iff_exists]
      exact isSome_workflow? fits
    exact ⟨shaped, (parse_eq_notAWorkflow_iff written).trans (not_congr shaped)⟩
  · obtain ⟨entries, nodes, same, bound, rfl⟩ :=
      (workflow?_eq_some_iff _ _).1 ((parse_eq_ok_iff_means written graph).1 done)
    exact ⟨entries, nodes, same, bound, Table.names_ofList nodes, Table.get?_ofList nodes⟩

section Overridden

def overridden : String := "\x7b\"1\":null,\"1\":\x7b\x7d\x7d"

def overriddenTree : Tree := .object [(.plain "1", .null), (.plain "1", .object [])]

theorem written_overridden : Written overriddenTree overridden.toList := by
  have first := Derives.bareMember "1" rfl .null
  have second := Derives.bareMember "1" rfl (.emptyObject (show Blank [] by simp [Blank]))
  exact .bareElement (.object (.moreMembers first (.lastMember second)))

theorem fits_overridden : overriddenTree.Fits Numeral.InRange 127 := by
  refine .object (by simp [Spelling.paired_plain]) ?_
  intro entry member
  simp only [List.mem_cons, List.not_mem_nil, or_false] at member
  rcases member with rfl | rfl
  · exact .null
  · exact .object (by simp) (by simp)

theorem not_isWorkflow_overridden : ¬ IsWorkflow overriddenTree := by
  rintro ⟨records⟩
  cases records _ List.mem_cons_self

theorem overridden_refused : Written overriddenTree overridden.toList ∧ overriddenTree.Fits Numeral.InRange 127 ∧
    parse overridden = .error .notAWorkflow := by
  have answers := ((parse_exact overridden).2 overriddenTree written_overridden).1 fits_overridden
  exact ⟨written_overridden, fits_overridden, answers.2.2 not_isWorkflow_overridden⟩

end Overridden

section TooClose

-- A number below the greatest finite one, which the steps of its evaluation lead beyond.
def outmost : String := "\x7b\"1\":\x7b\"inputs\":\x7b\"x\":1797693134862315700e290\x7d\x7d\x7d"

def outmostNumeral : Numeral := ⟨false, "1797693134862315700".toList, [], some (false, ['2', '9', '0'])⟩

def outmostTree : Tree :=
  .object [(.plain "1", .object [(.plain "inputs", .object [(.plain "x", .number outmostNumeral)])])]

theorem written_outmost : Written outmostTree outmost.toList := by
  have whole : Scan.Whole "1797693134862315700".toList := by
    refine ⟨'1', "797693134862315700".toList, by decide +kernel, List.all_eq_true.1 (by decide +kernel), by simp⟩
  have number := writtenNumeral_scaled whole (show ['2', '9', '0'] ≠ [] by simp) (by simp [Scan.Digits])
  have inputs := Derives.object (.lastMember (.bareMember "x" rfl (.number number)))
  have fields := Derives.object (.lastMember (.bareMember "inputs" rfl inputs))
  exact .bareElement (.object (.lastMember (.bareMember "1" rfl fields)))

theorem isWorkflow_outmostTree : IsWorkflow outmostTree := by
  refine .mk fun entry member => ?_
  cases List.mem_singleton.1 member
  refine .mk ?_ ?_ ?_
  · constructor <;> simp [valuesOf, Spelling.text?_plain]
  · constructor <;> simp [valuesOf, Spelling.text?_plain, Document.IsObject]
  · constructor <;> simp [valuesOf, Spelling.text?_plain]

theorem fits_outmostTree : outmostTree.Fits (Numeral.AtMost · Numeral.greatest) 127 := by
  have one {budget : Nat} (name : String) {tree : Tree} (fits : tree.Fits (Numeral.AtMost · Numeral.greatest) budget) :
      (Tree.object [(.plain name, tree)]).Fits (Numeral.AtMost · Numeral.greatest) (budget + 1) :=
    .object (by simp [Spelling.paired_plain]) (by simpa using fits)
  have below : outmostNumeral.AtMost Numeral.greatest := by
    unfold Numeral.AtMost
    decide +kernel
  exact one "1" (one "inputs" (one "x" (.number below)))

theorem outmost_refused : Written outmostTree outmost.toList ∧
    outmostTree.Fits (Numeral.AtMost · Numeral.greatest) 127 ∧ IsWorkflow outmostTree ∧
    parse outmost = .error .notAWorkflow := by
  refine ⟨written_outmost, fits_outmostTree, isWorkflow_outmostTree, ?_⟩
  have unread : (parse outmost).toOption.isNone = true := by decide +kernel
  refine (parse_eq_notAWorkflow_iff written_outmost).2 fun loads => ?_
  obtain ⟨graph, loaded⟩ := loads
  rw [loaded] at unread
  cases unread

end TooClose

end NodeFlow.Graph
