import NodeFlow.Json.Basic

namespace NodeFlow.Json

def hexDigit (n : Nat) : Char := Nat.digitChar n

def escape (c : Char) : List Char :=
  if c = '"' then ['\\', '"']
  else if c = '\\' then ['\\', '\\']
  else if c = '\x08' then ['\\', 'b']
  else if c = '\x0c' then ['\\', 'f']
  else if c = '\n' then ['\\', 'n']
  else if c = '\r' then ['\\', 'r']
  else if c = '\t' then ['\\', 't']
  else if c.toNat < 0x20 then ['\\', 'u', '0', '0', hexDigit (c.toNat / 16), hexDigit (c.toNat % 16)]
  else [c]

def quote (text : String) : List Char := '"' :: text.toList.flatMap escape ++ ['"']

-- What follows a colon, and what stands before an item and a closing bracket of a level.
structure Style where
  space : List Char
  newline : Nat → List Char

def Style.compact : Style := ⟨[], fun _ => []⟩

def Style.indented : Style := ⟨[' '], fun level => '\n' :: List.replicate (2 * level) ' '⟩

variable (style : Style)

mutual
def render (level : Nat) : Json → List Char
  | .null => ['n', 'u', 'l', 'l']
  | .bool true => ['t', 'r', 'u', 'e']
  | .bool false => ['f', 'a', 'l', 's', 'e']
  | .number value => value.render
  | .string text => quote text
  | .array [] => ['[', ']']
  | .array (item :: rest) =>
    '[' :: style.newline (level + 1) ++ item.render (level + 1) ++
      renderItems (level + 1) rest ++ style.newline level ++ [']']
  | .object [] => ['{', '}']
  | .object ((name, value) :: rest) =>
    '{' :: style.newline (level + 1) ++ quote name ++ ':' :: style.space ++
      value.render (level + 1) ++ renderMembers (level + 1) rest ++ style.newline level ++ ['}']

def renderItems (level : Nat) : List Json → List Char
  | [] => []
  | item :: rest => ',' :: style.newline level ++ item.render level ++ renderItems level rest

def renderMembers (level : Nat) : List (String × Json) → List Char
  | [] => []
  | (name, value) :: rest =>
    ',' :: style.newline level ++ quote name ++ ':' :: style.space ++ value.render level ++
      renderMembers level rest
end

def compact (value : Json) : String := String.ofList (value.render .compact 0)

def indented (value : Json) : String := String.ofList (value.render .indented 0)

end NodeFlow.Json
