namespace NodeFlow.Text

def isBlank (c : Char) : Bool :=
  let code := c.toNat
  (9 ≤ code && code ≤ 13) || code == 0x20 || code == 0x85 || code == 0xa0 || code == 0x1680 ||
    (0x2000 ≤ code && code ≤ 0x200a) || code == 0x2028 || code == 0x2029 || code == 0x202f ||
    code == 0x205f || code == 0x3000

def dropBlankEnd (text : List Char) : List Char :=
  (text.reverse.dropWhile isBlank).reverse

def trimmed (text : List Char) : List Char := dropBlankEnd (text.dropWhile isBlank)

end NodeFlow.Text
