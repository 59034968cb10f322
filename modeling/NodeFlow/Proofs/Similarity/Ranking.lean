import NodeFlow.Proofs.Similarity.Counting
import NodeFlow.Similarity.Ranking

namespace NodeFlow

namespace Binary64

theorem log2_one_shiftLeft (n : Nat) : (1 <<< n).log2 = n := by rw [Nat.one_shiftLeft, Nat.log2_two_pow]

theorem ofRatio_isSome {num den : Nat} (le : num ≤ den) : ∃ x, ofRatio num den = some x := by
  have quotient : num * unitsPerOne / den ≤ unitsPerOne := by
    rcases Nat.eq_zero_or_pos den with zero | positive
    · simp [zero]
    · exact Nat.div_le_of_le_mul (Nat.mul_le_mul_right _ le)
  have logs := log2_mono quotient
  have top : unitsPerOne.log2 = 1074 := log2_one_shiftLeft 1074
  rw [top] at logs
  have rank : rankOf (num * unitsPerOne) den < rankLimit := by
    have low := significand_le (num * unitsPerOne) den
    have shift : (num * unitsPerOne / den).log2 - 52 ≤ 1022 := by omega
    have scale := Nat.mul_le_mul_right binade shift
    have room : 1022 * binade + 2 * binade < rankLimit := by decide
    unfold rankOf
    dsimp only
    omega
  exact ⟨⟨false, _, rank⟩, by simp [ofRatio, nearestUnits, rank]⟩

theorem lt_iff_key (x y : Binary64) : x < y ↔ x.key < y.key := Iff.rfl

theorem same_iff_key (x y : Binary64) : x.same y = true ↔ x.key = y.key := by simp [same]

end Binary64

namespace Similarity

section Scores

theorem score_mono {few many total : Nat} (le : few ≤ many) (within : 2 * many ≤ total) :
    score few total ≤ score many total := by
  unfold score
  split
  · exact Binary64.not_lt.1 (Binary64.lt_irrefl one)
  · have small : 2 * few ≤ total := by omega
    obtain ⟨x, hx⟩ := Binary64.ofRatio_isSome small
    obtain ⟨y, hy⟩ := Binary64.ofRatio_isSome within
    rw [hx, hy, Option.getD_some, Option.getD_some]
    exact Binary64.nearestUnits_mono total (Nat.mul_le_mul_right _ (Nat.mul_le_mul_left 2 le)) hx hy

def exactScore (query name : String) : Binary64 :=
  score (matchingChars name.toList query.toList) (query.toList.length + name.toList.length)

theorem scoreAbove?_eq (query name : String) (cutoff : Float64) :
    scoreAbove? query.toList cutoff name =
      if cutoff.isReachedBy (exactScore query name) then some (exactScore query name) else none := by
  have matching := matchingChars_le_sharedChars name.toList query.toList
  obtain ⟨shared, other⟩ := sharedChars_le query.toList name.toList
  have fromShared : exactScore query name ≤
      score (sharedChars query.toList name.toList) (query.toList.length + name.toList.length) :=
    score_mono matching (by omega)
  have fromLength : exactScore query name ≤
      score (min query.toList.length name.toList.length) (query.toList.length + name.toList.length) :=
    score_mono (by omega) (by omega)
  unfold scoreAbove?
  dsimp only
  split
  · rename_i above
    simp [Float64.not_isReachedBy fromLength above]
  · split
    · rename_i above
      simp [Float64.not_isReachedBy fromShared above]
    · rfl

end Scores

section Rankings

def scored (query name : String) : Binary64 × String := (exactScore query name, name)

def closeScores (query : String) (candidates : List String) (cutoff : Float64) : List (Binary64 × String) :=
  (candidates.map (scored query)).filter fun found => cutoff.isReachedBy found.1

-- The same search without the cheap bounds: all scores, those that reach the cutoff, sorted.
def plainMatches (query : String) (candidates : List String) (limit : Nat) (cutoff : Float64) : List String :=
  (((closeScores query candidates cutoff).mergeSort ranksBefore).take limit).map Prod.snd

theorem closeMatches_eq_plainMatches (query : String) (candidates : List String) (limit : Nat) (cutoff : Float64) :
    closeMatches query candidates limit cutoff = plainMatches query candidates limit cutoff := by
  have close : (candidates.filterMap fun name =>
      (scoreAbove? query.toList cutoff name).map fun exact => (exact, name)) = closeScores query candidates cutoff := by
    unfold closeScores
    induction candidates with
    | nil => rfl
    | cons name rest ih =>
      rw [List.filterMap_cons, scoreAbove?_eq, List.map_cons, List.filter_cons, ih]
      cases reached : cutoff.isReachedBy (exactScore query name) <;> simp [scored, reached]
  unfold closeMatches plainMatches
  rw [close]

-- The greater score comes first, and of equal scores the later name.
def Outranks (a b : Binary64 × String) : Prop :=
  b.1 < a.1 ∨ a.1.same b.1 = true ∧ ¬ Text.Precedes a.2 b.2

theorem ranksBefore_iff (a b : Binary64 × String) : ranksBefore a b = true ↔ Outranks a b := by
  simp [ranksBefore, Outranks]

theorem outranks_iff (a b : Binary64 × String) :
    Outranks a b ↔ b.1.key < a.1.key ∨ a.1.key = b.1.key ∧ ¬ Text.Precedes a.2 b.2 := by
  rw [Outranks, Binary64.lt_iff_key, Binary64.same_iff_key]

theorem Outranks.trans {a b c : Binary64 × String} (first : Outranks a b) (second : Outranks b c) : Outranks a c := by
  rw [outranks_iff] at *
  rcases first with less | ⟨equal, names⟩
  · left
    rcases second with below | ⟨same, _⟩ <;> omega
  · rcases second with below | ⟨same, later⟩
    · left; omega
    · refine .inr ⟨by omega, fun precedes => ?_⟩
      by_cases known : b.2 = c.2
      · exact names (known ▸ precedes)
      · exact names (precedes.trans (Text.precedes_of_not known later))

theorem outranks_total (a b : Binary64 × String) : Outranks a b ∨ Outranks b a := by
  rw [outranks_iff, outranks_iff]
  by_cases forward : Text.Precedes a.2 b.2
  · have backward : ¬ Text.Precedes b.2 a.2 := fun back => Text.precedes_irrefl _ (forward.trans back)
    simp only [forward, backward, not_true, not_false_iff, and_false, and_true, or_false]
    omega
  · simp only [forward, not_false_iff, and_true]
    omega

theorem outranks_refl (a : Binary64 × String) : Outranks a a := (outranks_total a a).elim id id

theorem Outranks.antisymm {a b : Binary64 × String} (first : Outranks a b) (second : Outranks b a) : a.2 = b.2 := by
  rw [outranks_iff] at first second
  have forward : ¬ Text.Precedes a.2 b.2 := by
    rcases first with less | ⟨_, names⟩
    · rcases second with below | ⟨same, _⟩ <;> omega
    · exact names
  have backward : ¬ Text.Precedes b.2 a.2 := by
    rcases second with less | ⟨_, names⟩
    · rcases first with below | ⟨same, _⟩ <;> omega
    · exact names
  by_cases same : a.2 = b.2
  · exact same
  · exact absurd (Text.precedes_of_not same forward) backward

-- The candidates that reach the cutoff, each as often as it was given, in the order of results.
structure Ranking (query : String) (candidates : List String) (cutoff : Float64) (ranked : List String) : Prop where
  perm : ranked.Perm (candidates.filter fun name => cutoff.isReachedBy (exactScore query name))
  sorted : ranked.Pairwise fun a b => Outranks (scored query a) (scored query b)

theorem Ranking.unique {query : String} {candidates ranked other : List String} {cutoff : Float64}
    (one : Ranking query candidates cutoff ranked) (two : Ranking query candidates cutoff other) : other = ranked :=
  (two.perm.trans one.perm.symm).eq_of_pairwise (fun _ _ _ _ first second => first.antisymm second) two.sorted one.sorted

-- The search without bounds sorts names together with their scores, and each name's score is its own.
theorem plainMatches_ranking (query : String) (candidates : List String) (cutoff : Float64) :
    ∃ ranked, Ranking query candidates cutoff ranked ∧
      ∀ limit, plainMatches query candidates limit cutoff = ranked.take limit := by
  refine ⟨((closeScores query candidates cutoff).mergeSort ranksBefore).map Prod.snd, ⟨?_, ?_⟩, ?_⟩
  · have names : (closeScores query candidates cutoff).map Prod.snd =
        candidates.filter fun name => cutoff.isReachedBy (exactScore query name) := by
      simp only [closeScores, scored, List.filter_map, List.map_map, Function.comp_def, List.map_id']
    rw [← names]
    exact (List.mergeSort_perm _ ranksBefore).map _
  · have own : ∀ found ∈ (closeScores query candidates cutoff).mergeSort ranksBefore, found = scored query found.2 := by
      intro found member
      obtain ⟨name, _, rfl⟩ := List.mem_map.1 (List.mem_filter.1 ((List.mergeSort_perm _ _).mem_iff.1 member)).1
      rfl
    have sorted := List.pairwise_mergeSort
      (fun a b c first second => (ranksBefore_iff a c).2
        (((ranksBefore_iff a b).1 first).trans ((ranksBefore_iff b c).1 second)))
      (fun a b => by rw [Bool.or_eq_true, ranksBefore_iff, ranksBefore_iff]; exact outranks_total a b)
      (closeScores query candidates cutoff)
    rw [List.pairwise_map]
    refine sorted.imp_of_mem fun {a b} inA inB before => ?_
    rw [← own a inA, ← own b inB]
    exact (ranksBefore_iff a b).1 before
  · intro limit
    exact List.map_take

theorem closeMatches_ranking (query : String) (candidates : List String) (cutoff : Float64) :
    ∃ ranked, Ranking query candidates cutoff ranked ∧
      ∀ limit, closeMatches query candidates limit cutoff = ranked.take limit := by
  obtain ⟨ranked, ranking, taken⟩ := plainMatches_ranking query candidates cutoff
  exact ⟨ranked, ranking, fun limit => (closeMatches_eq_plainMatches query candidates limit cutoff).trans (taken limit)⟩

theorem Ranking.of_perm {query : String} {candidates others ranked : List String} {cutoff : Float64}
    (perm : others.Perm candidates) (ranking : Ranking query candidates cutoff ranked) :
    Ranking query others cutoff ranked :=
  ⟨ranking.perm.trans (perm.symm.filter _), ranking.sorted⟩

theorem closeMatches_of_perm {query : String} {candidates others : List String} (perm : others.Perm candidates)
    (limit : Nat) (cutoff : Float64) :
    closeMatches query others limit cutoff = closeMatches query candidates limit cutoff := by
  obtain ⟨ranked, ranking, taken⟩ := closeMatches_ranking query candidates cutoff
  obtain ⟨other, rival, otherTaken⟩ := closeMatches_ranking query others cutoff
  rw [taken, otherTaken, (ranking.of_perm perm).unique rival]

theorem take_closeMatches (query : String) (candidates : List String) (cutoff : Float64) {limit larger : Nat}
    (le : limit ≤ larger) : (closeMatches query candidates larger cutoff).take limit =
      closeMatches query candidates limit cutoff := by
  obtain ⟨ranked, _, taken⟩ := closeMatches_ranking query candidates cutoff
  rw [taken, taken, List.take_take, Nat.min_eq_left le]

-- The first of a ranking outranks every candidate, also those that do not reach the cutoff.
theorem Ranking.head_outranks {query best : String} {candidates rest : List String} {cutoff : Float64}
    (ranking : Ranking query candidates cutoff (best :: rest)) {name : String} (member : name ∈ candidates) :
    Outranks (scored query best) (scored query name) := by
  have present : best ∈ candidates.filter fun name => cutoff.isReachedBy (exactScore query name) :=
    ranking.perm.mem_iff.1 List.mem_cons_self
  cases reached : cutoff.isReachedBy (exactScore query name) with
  | false => exact .inl (Float64.lt_of_isReachedBy (List.mem_filter.1 present).2 reached)
  | true =>
    rcases List.mem_cons.1 (ranking.perm.mem_iff.2 (List.mem_filter.2 ⟨member, reached⟩)) with rfl | later
    · exact outranks_refl _
    · exact (List.pairwise_cons.1 ranking.sorted).1 name later

end Rankings

-- For every cutoff and every list of candidates, with repeats or not.
theorem closeMatches_exact (query : String) (candidates : List String) (cutoff : Float64) :
    (∀ limit, closeMatches query candidates limit cutoff = plainMatches query candidates limit cutoff) ∧
    (∃ ranked, Ranking query candidates cutoff ranked ∧
      (∀ other, Ranking query candidates cutoff other → other = ranked) ∧
      ∀ limit, closeMatches query candidates limit cutoff = ranked.take limit) ∧
    ∀ name : String, matchingChars name.toList query.toList ≤ sharedChars query.toList name.toList ∧
      sharedChars query.toList name.toList ≤ min name.toList.length query.toList.length := by
  have plain := fun limit => closeMatches_eq_plainMatches query candidates limit cutoff
  refine ⟨plain, ?_, ?_⟩
  · obtain ⟨ranked, ranking, taken⟩ := plainMatches_ranking query candidates cutoff
    exact ⟨ranked, ranking, fun other rival => ranking.unique rival, fun limit => (plain limit).trans (taken limit)⟩
  · intro name
    obtain ⟨inQuery, inName⟩ := sharedChars_le query.toList name.toList
    exact ⟨matchingChars_le_sharedChars _ _, Nat.le_min.2 ⟨inName, inQuery⟩⟩

end Similarity

end NodeFlow
