import NodeFlow.Proofs.Graph.Recovery
import NodeFlow.Proofs.Text.Pattern

namespace NodeFlow

namespace Graph

-- Whatever fences stand before the marked block, and whatever stands behind it.
theorem extract?_of_marked {document before gap trail : String} {value : Json} {graph : Graph}
    (stands : Json.StandsFor document value) (holds : value.HoldsRecord) (parsed : parse document = .ok graph)
    (opens : document.toList.head? = some '{') (closes : document.toList.getLast? = some '}')
    (unfenced : ¬ Text.fence <:+: document.toList) (first : ¬ Text.jsonFence <:+: before.toList)
    (blankGap : ∀ c ∈ gap.toList, Text.isBlank c = true) (blankTrail : ∀ c ∈ trail.toList, Text.isBlank c = true)
    (after : String) :
    (∃ others, Text.Captures (Text.fenced Text.jsonFence)
      (before ++ "```json" ++ gap ++ document ++ trail ++ "```" ++ after).toList (document.toList :: others)) ∧
    extract? (before ++ "```json" ++ gap ++ document ++ trail ++ "```" ++ after) = some graph := by
  have text : (before ++ "```json" ++ gap ++ document ++ trail ++ "```" ++ after).toList = before.toList ++
      (Text.jsonFence ++ (gap.toList ++ (document.toList ++ (trail.toList ++ (Text.fence ++ after.toList))))) := by
    simp only [String.toList_append, List.append_assoc]
    rfl
  generalize before ++ "```json" ++ gap ++ document ++ trail ++ "```" ++ after = whole at text ⊢
  have found := Text.firstBlock_marked first blankGap opens (by decide) closes (by decide) (by decide) unfenced blankTrail
    after.toList
  rw [← text] at found
  obtain ⟨others, blocks⟩ := Text.blocks_of_firstBlock found
  refine ⟨⟨others, blocks ▸ Text.captures_blocks Text.jsonFence whole.toList⟩, ?_⟩
  have taken : ofCandidate? document.toList = some graph := by
    rw [ofCandidate?_eq_some_iff, String.ofList_toList]
    exact ⟨⟨value, (Json.read?_eq_some_iff _ _).2 stands, holds⟩, parsed⟩
  rw [extract?, candidates, blocks]
  simp [taken]

def chatter : String := "See ``` this ``` or ``` that: `"

def blurred : String := "\x7b\"1\":\x7b\"class_type\":\"Blur\"\x7d\x7d"

def blurredValue : Json := (Json.read? blurred).getD .null

def blurredGraph : Graph := (parse blurred).toOption.getD .empty

def moreChatter : String := " ```json \x7b\"2\":\x7b\"class_type\":\"Note\"\x7d\x7d ``` and ```"

theorem blurred_extracted : Json.StandsFor blurred blurredValue ∧ blurredValue.HoldsRecord ∧
    parse blurred = .ok blurredGraph ∧ blurredGraph.size = 1 ∧
    extract? (chatter ++ "```json" ++ "\n\u2003" ++ blurred ++ "\t\n" ++ "```" ++ moreChatter) = some blurredGraph := by
  have stands : Json.StandsFor blurred blurredValue := stands_of_reads (by decide +kernel)
  have holds : blurredValue.HoldsRecord := (looksLikeWorkflow_iff _).1 (by decide +kernel)
  have parsed : parse blurred = .ok blurredGraph := parse_of_loads (by decide +kernel)
  have unfenced : ¬ Text.fence <:+: blurred.toList := (Text.splitAtMark_eq_none_iff _ _).1 (by decide +kernel)
  have first : ¬ Text.jsonFence <:+: chatter.toList := (Text.splitAtMark_eq_none_iff _ _).1 (by decide +kernel)
  have blankGap : ∀ c ∈ "\n\u2003".toList, Text.isBlank c = true := List.all_eq_true.1 rfl
  have blankTrail : ∀ c ∈ "\t\n".toList, Text.isBlank c = true := List.all_eq_true.1 rfl
  exact ⟨stands, holds, parsed, by decide +kernel, (extract?_of_marked stands holds parsed (by decide +kernel)
    (by decide +kernel) unfenced first blankGap blankTrail moreChatter).2⟩

theorem marked_remarked_missed :
    (Json.Written remarkedTree remarked.toList ∧ remarkedTree.HoldsRecord ∧ ∃ graph, parse remarked = .ok graph) ∧
    (remarked.toList.head? = some '{' ∧ remarked.toList.getLast? = some '}' ∧ ¬ Text.fence <:+: remarked.toList) ∧
    extract? ("" ++ "```json" ++ "" ++ remarked ++ "" ++ "```" ++ "") = none := by
  refine ⟨⟨written_remarked, holds_remarkedTree, _, parse_of_loads (by decide +kernel)⟩, ?_, ?_⟩
  · exact ⟨by decide +kernel, by decide +kernel, (Text.splitAtMark_eq_none_iff _ _).1 (by decide +kernel)⟩
  · exact Option.isNone_iff_eq_none.1 (by decide +kernel)

end Graph

end NodeFlow
