import NodeFlow.Address.Host

namespace NodeFlow

inductive AddressPath
  | segments (list : List String)
  | plain (text : String)
  deriving DecidableEq

-- The user of an address is not kept, as the host is told it in another way.
structure Address where
  scheme : String
  host : Option Host
  socket : Option Nat
  path : AddressPath
  query : Option String
  fragment : Option String
  deriving DecidableEq

def AddressPath.render : AddressPath → String
  | .segments list => String.join (list.map fun segment => "/" ++ segment)
  | .plain text => text

namespace Address

def marked (mark : String) : Option String → String
  | some text => mark ++ text
  | none => ""

def target (address : Address) : String := address.path.render ++ marked "?" address.query

def origin (address : Address) : String :=
  address.scheme ++ ":" ++ marked "//" (address.host.map Host.render) ++
    marked ":" (address.socket.map toString)

def render (address : Address) : String :=
  address.origin ++ address.target ++ marked "#" address.fragment

def isAskable (address : Address) : Bool :=
  (address.scheme == "http" || address.scheme == "https") &&
    match address.host with
    | some host => host.render.toList.all fun c => c ∉ ['"', '\x60', '\x7b', '\x7d']
    | none => false

-- Blanks and control characters around an address, and breaks within it, do not count.
def cleaned (text : List Char) : List Char :=
  let isOuter (c : Char) : Bool := c.toNat ≤ 0x20
  ((text.dropWhile isOuter).reverse.dropWhile isOuter).reverse.filter fun c =>
    c != '\t' && c != '\n' && c != '\r'

def splitScheme? (text : List Char) : Option (String × List Char) :=
  match text.takeWhile (· != ':'), text.dropWhile (· != ':') with
  | lead :: marks, _ :: rest =>
    if lead.isAlpha && marks.all fun c => c.isAlphanum || c == '+' || c == '-' || c == '.' then
      some (String.ofList ((lead :: marks).map Char.toLower), rest)
    else none
  | _, _ => none

-- Schemes of the web, whose addresses always name a host, and their usual sockets.
def usualSocket? : String → Option Nat
  | "http" | "ws" => some 80
  | "https" | "wss" => some 443
  | "ftp" => some 21
  | _ => none

-- In addresses of the web a backslash is a slash.
def isSlash (web : Bool) (c : Char) : Bool := c == '/' || (web && c == '\\')

def isPathEnd (c : Char) : Bool := c == '?' || c == '#'

def fragmentMarks : List Char := [' ', '"', '<', '>', '\x60']

def queryMarks (web : Bool) : List Char :=
  [' ', '"', '#', '<', '>'] ++ if web then ['\''] else []

def pathMarks : List Char := fragmentMarks ++ ['#', '?', '\x7b', '\x7d']

def encoded (marks text : List Char) : String := String.ofList (Percent.encode marks text)

-- A colon ends the host unless it stands in brackets.
def splitSocket (bracketed : Bool) : List Char → List Char × List Char
  | [] => ([], [])
  | c :: rest =>
    if c == ':' && !bracketed then ([], c :: rest)
    else
      let (host, after) := splitSocket (if c == '[' then true else bracketed && c != ']') rest
      (c :: host, after)

def readSocket? (scheme : String) (text : List Char) : Option (Option Nat) :=
  let digits := text.drop 1
  let socket := Nat.ofDigitChars 10 digits 0
  if !digits.all Char.isDigit || 65535 < socket then none
  else if digits.isEmpty || usualSocket? scheme = some socket then some none
  else some (some socket)

-- A user ends with the last at sign. A user or a socket needs a host, and so does a scheme of the web.
def readPlace? (scheme : String) (place : List Char) : Option (Host × Option Nat) := do
  let web := (usualSocket? scheme).isSome
  let (hostText, socketText) := splitSocket false (place.reverse.takeWhile (· != '@')).reverse
  let host ← Host.read? web hostText
  if host = .name "" && !place.isEmpty then none
  else some (host, ← readSocket? scheme socketText)

def isDot (segment : List Char) : Bool :=
  segment == ['.'] || segment.map Char.toLower == ['%', '2', 'e']

def isDoubleDot (segment : List Char) : Bool :=
  (isDot (segment.take 1) && isDot (segment.drop 1)) ||
    (isDot (segment.take 3) && isDot (segment.drop 3))

-- Segments as they are gone through, with the ones before in reverse. A step that ends a path leaves an
-- empty segment.
def followed : List (List Char) → List (List Char) → List (List Char)
  | before, [] => before.reverse
  | before, segment :: rest =>
    if isDot segment || isDoubleDot segment then
      let kept := if isDoubleDot segment then before.drop 1 else before
      followed (if rest.isEmpty then [] :: kept else kept) rest
    else followed (segment :: before) rest

def readSegments (web : Bool) (text : List Char) : AddressPath :=
  let path := match text with
    | c :: rest => if isSlash web c then rest else text
    | [] => []
  let segments := (Host.parts (isSlash web) path).map (Percent.encode pathMarks)
  .segments ((followed [] segments).map String.ofList)

def readRest (scheme : String) (place : Option (Host × Option Nat)) (text : List Char) : Address :=
  let web := (usualSocket? scheme).isSome
  let path := text.takeWhile fun c => !isPathEnd c
  let rest := text.dropWhile fun c => !isPathEnd c
  { scheme
    host := place.map Prod.fst
    socket := place.bind Prod.snd
    path :=
      if place.isNone && path.head? != some '/' then .plain (encoded [] path)
      else if !web && path.isEmpty then .segments []
      else readSegments web path
    query := match rest with
      | '?' :: query => some (encoded (queryMarks web) (query.takeWhile (· != '#')))
      | _ => none
    fragment := match rest.dropWhile (· != '#') with
      | _ :: fragment => some (encoded fragmentMarks fragment)
      | [] => none }

-- Texts are read leniently. Only one without a scheme, or with a wrong host, is refused.
def read? (text : String) : Option Address := do
  let (scheme, rest) ← splitScheme? (cleaned text.toList)
  let web := (usualSocket? scheme).isSome
  if web || rest.take 2 = ['/', '/'] then
    let text := if web then rest.dropWhile (isSlash web) else rest.drop 2
    let isEnd (c : Char) : Bool := isSlash web c || isPathEnd c
    let place ← readPlace? scheme (text.takeWhile fun c => !isEnd c)
    some (readRest scheme (some place) (text.dropWhile fun c => !isEnd c))
  else some (readRest scheme none rest)

def location? (address : Address) (location : String) : Option Address :=
  match read? location, location.toList with
  | some other, _ => some other
  | none, '/' :: '/' :: _ => read? (address.scheme ++ ":" ++ location)
  | none, '/' :: _ => read? (address.origin ++ location)
  | none, '?' :: _ => read? (address.origin ++ address.path.render ++ location)
  | none, '#' :: _ => read? (address.origin ++ address.target ++ location)
  | none, _ => read? (address.origin ++ address.path.render ++ "/../" ++ location)

end Address

end NodeFlow
