import NodeFlow.Text.Hidden

namespace NodeFlow.Text

def visibleChar (c : Char) : List Char :=
  if c = '\x00' then ['\\', '0']
  else if c = '\t' then ['\\', 't']
  else if c = '\n' then ['\\', 'n']
  else if c = '\r' then ['\\', 'r']
  else if c = '"' then ['\\', '"']
  else if c = '\\' then ['\\', '\\']
  else if hidden c then '\\' :: 'u' :: '{' :: Nat.toDigits 16 c.toNat ++ ['}']
  else [c]

def visible (text : String) : String :=
  String.ofList ('"' :: text.toList.flatMap visibleChar ++ ['"'])

end NodeFlow.Text
