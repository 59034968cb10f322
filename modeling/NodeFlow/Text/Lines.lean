namespace NodeFlow.Text

def withoutReturn (line : String) : String :=
  match line.toList.reverse with
  | '\r' :: rest => String.ofList rest.reverse
  | _ => line

-- What follows the last line feed is a line only if it is not empty, and has no end to be cut off.
def lines (text : String) : List String :=
  let parts := text.splitOn "\n"
  parts.dropLast.map withoutReturn ++ (parts.getLast?.toList.filter fun part => !part.isEmpty)

end NodeFlow.Text
