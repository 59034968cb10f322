import NodeFlow.Text.Blank

namespace NodeFlow.Text

def splitAtMark (mark : List Char) : List Char → Option (List Char × List Char)
  | [] => if mark.isEmpty then some ([], []) else none
  | c :: rest =>
    if mark.isPrefixOf (c :: rest) then some ([], (c :: rest).drop mark.length)
    else (splitAtMark mark rest).map fun (before, after) => (c :: before, after)

def fence : List Char := ['\x60', '\x60', '\x60']

def jsonFence : List Char := fence ++ ['j', 's', 'o', 'n']

def firstBlock (opening : List Char) (text : List Char) : Option (List Char × List Char) := do
  let (_, inside) ← splitAtMark opening text
  let (body, rest) ← splitAtMark fence (inside.dropWhile isBlank)
  some (dropBlankEnd body, rest)

-- Every block takes up some of the text, so the text's length bounds their number.
def blocksFrom (opening : List Char) : Nat → List Char → List (List Char)
  | 0, _ => []
  | fuel + 1, text =>
    match firstBlock opening text with
    | some (body, rest) => body :: blocksFrom opening fuel rest
    | none => []

def blocks (opening : List Char) (text : List Char) : List (List Char) :=
  blocksFrom opening text.length text

end NodeFlow.Text
