import NodeFlow.Number.Float64
import NodeFlow.Similarity.Blocks
import NodeFlow.Text.Order

namespace NodeFlow.Similarity

def one : Binary64 := (Binary64.ofNat 1).getD .zero

-- Twice the common characters by all characters; two empty names are the same.
def score (common total : Nat) : Binary64 :=
  if total = 0 then one else (Binary64.ofRatio (2 * common) total).getD .zero

-- Not symmetric, since the choice among equally long blocks is not.
def ratio (a b : String) : Binary64 :=
  let a := a.toList
  let b := b.toList
  score (matchingChars a b) (a.length + b.length)

def defaultCutoff : Binary64 := (Binary64.ofRatio 6 10).getD .zero

-- The two cheap bounds are never below the score, so they drop only what the score would drop.
def scoreAbove? (query : List Char) (cutoff : Float64) (name : String) : Option Binary64 :=
  let chars := name.toList
  let total := query.length + chars.length
  if cutoff.isAbove (score (min query.length chars.length) total) then none
  else if cutoff.isAbove (score (sharedChars query chars) total) then none
  else
    let exact := score (matchingChars chars query) total
    if cutoff.isReachedBy exact then some exact else none

def ranksBefore (a b : Binary64 × String) : Bool :=
  b.1 < a.1 || (a.1.same b.1 && !decide (Text.Precedes a.2 b.2))

def closeMatches (query : String) (candidates : List String) (limit : Nat) (cutoff : Float64) :
    List String :=
  let scored := candidates.filterMap fun name =>
    (scoreAbove? query.toList cutoff name).map fun exact => (exact, name)
  ((scored.mergeSort ranksBefore).take limit).map Prod.snd

end NodeFlow.Similarity
