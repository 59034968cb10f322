namespace NodeFlow.Similarity

structure Window where
  left : Nat
  leftEnd : Nat
  right : Nat
  rightEnd : Nat
  deriving DecidableEq

structure Block where
  left : Nat
  right : Nat
  size : Nat
  deriving DecidableEq

def slice (chars : List Char) (first past : Nat) : List Char :=
  (chars.drop first).take (past - first)

-- Lengths of the common runs that end at `x` and at each character of the other sequence, from those
-- that end one character earlier in the first one.
def nextRow (x : Char) (diagonal : Nat) : List Char → List Nat → List Nat
  | y :: ys, above :: row => (if x = y then diagonal + 1 else 0) :: nextRow x above ys row
  | _, _ => []

-- Only a longer run takes the place of the best one, so the earliest of the longest runs is kept.
def improve (i : Nat) : Nat → List Nat → Block → Block
  | _, [], best => best
  | j, run :: row, best =>
    improve i (j + 1) row (if best.size < run then ⟨i + 1 - run, j + 1 - run, run⟩ else best)

def scanRows (ys : List Char) (right : Nat) : Nat → List Char → List Nat → Block → Block
  | _, [], _, best => best
  | i, x :: xs, row, best =>
    let row := nextRow x 0 ys row
    scanRows ys right (i + 1) xs row (improve i right row best)

def longestBlock (a b : List Char) (window : Window) : Block :=
  let ys := slice b window.right window.rightEnd
  scanRows ys window.right window.left (slice a window.left window.leftEnd)
    (List.replicate ys.length 0) ⟨window.left, window.right, 0⟩

-- The windows on both sides of a block, as far as both of their ranges hold something; the later one
-- comes first.
def sides (window : Window) (block : Block) : List Window :=
  let before : Window := ⟨window.left, block.left, window.right, block.right⟩
  let after : Window :=
    ⟨block.left + block.size, window.leftEnd, block.right + block.size, window.rightEnd⟩
  (if after.left < after.leftEnd && after.right < after.rightEnd then [after] else []) ++
    (if before.left < before.leftEnd && before.right < before.rightEnd then [before] else [])

def countFrom (a b : List Char) : Nat → List Window → Nat
  | 0, _ => 0
  | _ + 1, [] => 0
  | fuel + 1, window :: pending =>
    let block := longestBlock a b window
    if block.size = 0 then countFrom a b fuel pending
    else block.size + countFrom a b fuel (sides window block ++ pending)

-- A window is replaced by at most two, which are shorter by at least one character together.
def matchingChars (a b : List Char) : Nat :=
  countFrom a b (2 * a.length + 1) [⟨0, a.length, 0, b.length⟩]

def sharedChars (available : List Char) : List Char → Nat
  | [] => 0
  | c :: rest =>
    if c ∈ available then sharedChars (available.erase c) rest + 1 else sharedChars available rest

end NodeFlow.Similarity
