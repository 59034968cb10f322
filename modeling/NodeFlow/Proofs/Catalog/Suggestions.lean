import NodeFlow.Catalog.Snapshot
import NodeFlow.Proofs.Similarity.Ranking

namespace NodeFlow

open Similarity

namespace Snapshot

theorem knows_iff (snapshot : Snapshot) (name : String) : snapshot.knows name = true ↔ name ∈ snapshot.types.names :=
  Table.contains_iff snapshot.types name

theorem suggestSimilar_of_perm {snapshot other : Snapshot} (perm : other.types.names.Perm snapshot.types.names)
    (name : String) (limit : Nat) : other.suggestSimilar name limit = snapshot.suggestSimilar name limit :=
  closeMatches_of_perm perm limit defaultCutoff

-- The greatest of the known names by score against a name, and of equal scores the one that comes last as a name.
structure Nearest (snapshot : Snapshot) (name best : String) : Prop where
  known : snapshot.knows best = true
  greatest : ∀ other, snapshot.knows other = true → Outranks (scored name best) (scored name other)

theorem Nearest.unique {snapshot : Snapshot} {name one two : String} (first : snapshot.Nearest name one)
    (second : snapshot.Nearest name two) : one = two :=
  (first.greatest two second.known).antisymm (second.greatest one first.known)

theorem suggestSimilar_head (snapshot : Snapshot) (name : String) {limit : Nat} (positive : 0 < limit) :
    ((snapshot.suggestSimilar name limit).head? = none ↔
      ∀ type, snapshot.knows type = true → ¬ defaultCutoff ≤ exactScore name type) ∧
    ∀ best, (snapshot.suggestSimilar name limit).head? = some best → snapshot.Nearest name best := by
  obtain ⟨ranked, ranking, taken⟩ := closeMatches_ranking name snapshot.types.names defaultCutoff
  have head : (snapshot.suggestSimilar name limit).head? = ranked.head? := by
    rw [suggestSimilar, taken, List.head?_take, if_neg (Nat.ne_of_gt positive)]
  have near : ∀ type, (type ∈ ranked ↔ snapshot.knows type = true ∧ defaultCutoff ≤ exactScore name type) := by
    intro type
    rw [ranking.perm.mem_iff, List.mem_filter, knows_iff]
    exact and_congr_right fun _ => decide_eq_true_iff
  rw [head]
  constructor
  · rw [List.head?_eq_none_iff, List.eq_nil_iff_forall_not_mem]
    simp only [near, not_and]
  · intro best first
    obtain ⟨rest, rfl⟩ := List.head?_eq_some_iff.1 first
    have known := ((near best).1 List.mem_cons_self).1
    exact ⟨known, fun other held => ranking.head_outranks ((snapshot.knows_iff other).1 held)⟩

end Snapshot

namespace Similarity

-- Candidates may be given in any order, and with repeats; fewer results are the first of more results. So the
-- names that a snapshot suggests do not depend on the order in which it holds them.
theorem closeMatches_order_free (query : String) (candidates : List String) (cutoff : Float64) :
    (∀ others : List String, others.Perm candidates → ∀ limit,
      closeMatches query others limit cutoff = closeMatches query candidates limit cutoff) ∧
    (∀ limit larger, limit ≤ larger → closeMatches query candidates limit cutoff =
      (closeMatches query candidates larger cutoff).take
        (min limit (closeMatches query candidates larger cutoff).length)) ∧
    ∀ snapshot other : Snapshot, other.types.names.Perm snapshot.types.names → ∀ name limit,
      other.suggestSimilar name limit = snapshot.suggestSimilar name limit := by
  refine ⟨fun others perm limit => closeMatches_of_perm perm limit cutoff, ?_,
    fun snapshot other perm name limit => Snapshot.suggestSimilar_of_perm perm name limit⟩
  intro limit larger le
  rw [← List.take_eq_take_min, take_closeMatches query candidates cutoff le]

def shuffled : List String := ["abc", "abd", "abc"]

def blurTypes : List (String × NodeType) :=
  ["Blur", "Blurs"].map fun name => (name, ⟨name, "", name, "", .empty, .empty, [], []⟩)

theorem shuffled_matches :
    ["abc", "abc", "abd"].Perm shuffled ∧
    closeMatches "ab" ["abc", "abc", "abd"] 2 defaultCutoff = closeMatches "ab" shuffled 2 defaultCutoff ∧
    closeMatches "ab" shuffled 1 defaultCutoff = (closeMatches "ab" shuffled 2 defaultCutoff).take
      (min 1 (closeMatches "ab" shuffled 2 defaultCutoff).length) ∧
    Snapshot.suggestSimilar ⟨.ofList blurTypes.reverse, none⟩ "Blurr" 3 =
      Snapshot.suggestSimilar ⟨.ofList blurTypes, none⟩ "Blurr" 3 := by
  obtain ⟨permuted, shorter, held⟩ := closeMatches_order_free "ab" shuffled defaultCutoff
  have perm : ["abc", "abc", "abd"].Perm shuffled := by decide
  exact ⟨perm, permuted _ perm 2, shorter 1 2 (by decide), held _ _ (by decide) "Blurr" 3⟩

end Similarity

end NodeFlow
