import NodeFlow.Proofs.Json.Numerals

namespace NodeFlow.Json

-- One mark of a string: a character, a backslash with a letter, or a unit of four digits.
inductive Mark
  | plain (c : Char)
  | short (letter : Char)
  | unit (a b c d : Char)
  deriving DecidableEq

namespace Mark

def chars : Mark → List Char
  | plain c => [c]
  | short letter => ['\\', letter]
  | unit a b c d => ['\\', 'u', a, b, c, d]

def IsHexDigit (c : Char) : Prop := ('0' ≤ c ∧ c ≤ '9') ∨ ('a' ≤ c ∧ c ≤ 'f') ∨ ('A' ≤ c ∧ c ≤ 'F')

def shorts : List (Char × Char) :=
  [('"', '"'), ('\\', '\\'), ('/', '/'), ('b', '\x08'), ('f', '\x0c'), ('n', '\n'), ('r', '\r'), ('t', '\t')]

inductive Allowed : Mark → Prop
  | plain {c : Char} (visible : 0x20 ≤ c.toNat) (bare : c ≠ '"' ∧ c ≠ '\\') : Allowed (.plain c)
  | short {letter : Char} (known : letter ∈ shorts.map Prod.fst) : Allowed (.short letter)
  | unit {a b c d : Char} (high : IsHexDigit a ∧ IsHexDigit b) (low : IsHexDigit c ∧ IsHexDigit d) :
      Allowed (.unit a b c d)

end Mark

abbrev Spelling := List Mark

namespace Spelling

def Allowed (spelling : Spelling) : Prop := ∀ mark ∈ spelling, mark.Allowed

def inside (spelling : Spelling) : List Char := spelling.flatMap Mark.chars

def quoted (spelling : Spelling) : List Char := '"' :: (spelling.inside ++ ['"'])

end Spelling

section Numerals

open Scan

inductive WrittenSign : Bool → List Char → Prop
  | none : WrittenSign false []
  | minus : WrittenSign true ['-']

inductive WrittenFraction : List Char → List Char → Prop
  | none : WrittenFraction [] []
  | some {digits : List Char} (any : digits ≠ []) (each : Digits digits) :
      WrittenFraction digits ('.' :: digits)

inductive WrittenExponent : Option (Bool × List Char) → List Char → Prop
  | none : WrittenExponent none []
  | some {mark : Char} {below : Bool} {sign digits : List Char} (marked : mark = 'e' ∨ mark = 'E')
      (signed : WrittenSign below sign ∨ (below = false ∧ sign = ['+'])) (any : digits ≠ [])
      (each : Digits digits) : WrittenExponent (some (below, digits)) (mark :: (sign ++ digits))

inductive WrittenNumeral : Numeral → List Char → Prop
  | mk {negative : Bool} {whole digits sign point raised : List Char}
      {exponent : Option (Bool × List Char)} (signed : WrittenSign negative sign) (shape : Whole whole)
      (fraction : WrittenFraction digits point) (scaled : WrittenExponent exponent raised) :
      WrittenNumeral ⟨negative, whole, digits, exponent⟩ (sign ++ (whole ++ (point ++ raised)))

end Numerals

inductive Tree
  | null
  | bool (value : Bool)
  | number (numeral : Numeral)
  | string (spelling : Spelling)
  | array (items : List Tree)
  | object (members : List (Spelling × Tree))

def Blank (gap : List Char) : Prop := ∀ c ∈ gap, c = ' ' ∨ c = '\n' ∨ c = '\t' ∨ c = '\r'

-- What a part of a text may stand for. An element is a value with white space around it.
inductive Part
  | value (tree : Tree)
  | element (tree : Tree)
  | elements (trees : List Tree)
  | member (name : Spelling) (tree : Tree)
  | members (entries : List (Spelling × Tree))

inductive Derives : Part → List Char → Prop
  | null : Derives (.value .null) ['n', 'u', 'l', 'l']
  | true : Derives (.value (.bool true)) ['t', 'r', 'u', 'e']
  | false : Derives (.value (.bool false)) ['f', 'a', 'l', 's', 'e']
  | number {numeral : Numeral} {text : List Char} (written : WrittenNumeral numeral text) :
      Derives (.value (.number numeral)) text
  | string {spelling : Spelling} (allowed : spelling.Allowed) :
      Derives (.value (.string spelling)) spelling.quoted
  | emptyArray {gap : List Char} (blank : Blank gap) : Derives (.value (.array [])) ('[' :: (gap ++ [']']))
  | array {trees : List Tree} {text : List Char} (items : Derives (.elements trees) text) :
      Derives (.value (.array trees)) ('[' :: (text ++ [']']))
  | emptyObject {gap : List Char} (blank : Blank gap) :
      Derives (.value (.object [])) ('{' :: (gap ++ ['}']))
  | object {entries : List (Spelling × Tree)} {text : List Char} (members : Derives (.members entries) text) :
      Derives (.value (.object entries)) ('{' :: (text ++ ['}']))
  | element {tree : Tree} {before text after : List Char} (lead : Blank before)
      (value : Derives (.value tree) text) (trail : Blank after) :
      Derives (.element tree) (before ++ (text ++ after))
  | lastElement {tree : Tree} {text : List Char} (item : Derives (.element tree) text) :
      Derives (.elements [tree]) text
  | moreElements {tree : Tree} {trees : List Tree} {text others : List Char}
      (item : Derives (.element tree) text) (more : Derives (.elements trees) others) :
      Derives (.elements (tree :: trees)) (text ++ ',' :: others)
  | member {name : Spelling} {tree : Tree} {before between text : List Char} (lead : Blank before)
      (allowed : name.Allowed) (gap : Blank between) (value : Derives (.element tree) text) :
      Derives (.member name tree) (before ++ (name.quoted ++ (between ++ ':' :: text)))
  | lastMember {name : Spelling} {tree : Tree} {text : List Char} (entry : Derives (.member name tree) text) :
      Derives (.members [(name, tree)]) text
  | moreMembers {name : Spelling} {tree : Tree} {entries : List (Spelling × Tree)} {text others : List Char}
      (entry : Derives (.member name tree) text) (more : Derives (.members entries) others) :
      Derives (.members ((name, tree) :: entries)) (text ++ ',' :: others)

-- A document is one value with nothing but white space around it.
def Written (tree : Tree) (text : List Char) : Prop := Derives (.element tree) text

section Compact

def Spelling.plain (text : String) : Spelling := text.toList.map .plain

-- Characters that stand for themselves in a string.
def isUnescaped (c : Char) : Bool := 0x20 ≤ c.toNat && c != '"' && c != '\\'

theorem Spelling.plain_allowed (name : String) (bare : name.toList.all isUnescaped) :
    (Spelling.plain name).Allowed := by
  intro mark member
  obtain ⟨c, inside, rfl⟩ := List.mem_map.1 member
  have own := List.all_eq_true.1 bare c inside
  simp only [isUnescaped, Bool.and_eq_true, decide_eq_true_eq, bne_iff_ne] at own
  exact .plain own.1.1 ⟨own.1.2, own.2⟩

theorem writtenNumeral_scaled {whole digits : List Char} (shape : Scan.Whole whole) (any : digits ≠ [])
    (each : Scan.Digits digits) : WrittenNumeral ⟨false, whole, [], some (false, digits)⟩ (whole ++ 'e' :: digits) :=
  .mk .none shape .none (.some (.inl rfl) (.inl .none) any each)

def beyond : Numeral := ⟨false, ['1'], [], some (false, ['9', '9', '9'])⟩

theorem writtenNumeral_beyond : WrittenNumeral beyond ['1', 'e', '9', '9', '9'] :=
  writtenNumeral_scaled ⟨'1', [], rfl, by simp [Scan.Digits], by simp⟩ (by simp) (by simp [Scan.Digits])

variable {tree : Tree} {text : List Char}

theorem Derives.bareElement (value : Derives (.value tree) text) : Derives (.element tree) text := by
  have blank : Blank [] := by simp [Blank]
  simpa using Derives.element blank value blank

theorem Derives.bareMember (name : String) (bare : name.toList.all isUnescaped)
    (value : Derives (.value tree) text) :
    Derives (.member (.plain name) tree) ((Spelling.plain name).quoted ++ ':' :: text) := by
  have blank : Blank [] := by simp [Blank]
  simpa using Derives.member blank (Spelling.plain_allowed name bare) blank value.bareElement

end Compact

end NodeFlow.Json
