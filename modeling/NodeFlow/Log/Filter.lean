import NodeFlow.Log.Event
import NodeFlow.Text.Blank
import NodeFlow.Text.Hidden

namespace NodeFlow

structure LogRule where
  target : Option String
  inSpan : Bool
  -- Names of fields that an event must have, and whether a value is asked for, too.
  fields : List (String × Bool)
  threshold : LogThreshold
  deriving DecidableEq

abbrev LogFilter := List LogRule

namespace LogRule

def names (rule : LogRule) : List String := rule.fields.map Prod.fst

-- Events happen within no span, and values of fields are compared within spans only.
def concerns (rule : LogRule) (event : LogEvent) : Bool :=
  !rule.inSpan && (rule.fields.all fun field => !field.2) &&
    ((rule.target.getD "").toList.isPrefixOf event.target.toList) &&
    rule.names.all event.fieldNames.contains

def targetRank (rule : LogRule) : Nat :=
  match rule.target with
  | some target => target.length + 1
  | none => 0

-- Whether a rule is at least as particular as another: by its target's length, then by how many
-- fields it names, then by their names.
def refines (rule other : LogRule) : Bool :=
  if rule.targetRank ≠ other.targetRank then other.targetRank < rule.targetRank
  else if rule.fields.length ≠ other.fields.length then other.fields.length < rule.fields.length
  else !rule.names.lex other.names fun a b => decide (a < b)

-- The characters that a rule is read by, each with the one that is cut out in its place. The two
-- differ when blanks stand before the rule, as its parts are cut out of the text with the blanks.
abbrev Marked := List (Char × Char)

def cut (marked : Marked) : List Char := marked.map Prod.snd

def upTo (stops : List Char) (marked : Marked) : List Char :=
  cut (marked.takeWhile fun (c, _) => c ∉ stops)

def startingAt (stops : List Char) (marked : Marked) : Marked :=
  marked.dropWhile fun (c, _) => c ∉ stops

def mayStart (c : Char) : Bool :=
  c.isAlphanum || c == '-' || c == ':' || c == '_' || (0x7f < c.toNat && !Text.hidden c)

-- A level left out is the least one. The tail is what is cut out after the end.
def threshold? (marked : Marked) (tail : List Char) : Option LogThreshold :=
  match cut marked ++ tail with
  | [] => some (.atLeast .trace)
  | text => LogThreshold.read? text

def withLevel? (rule : LogRule) (marked : Marked) (tail : List Char) : Option LogRule :=
  match marked with
  | [] => some rule
  | ('=', _) :: rest => (threshold? rest tail).map fun threshold => { rule with threshold }
  | _ => none

def field? (text : List Char) : Option (String × Bool) :=
  if text.isEmpty then none
  else some (String.ofList (text.takeWhile (· != '=')), text.contains '=')

def withFields? (rule : LogRule) (marked : Marked) (tail : List Char) : Option LogRule := do
  let field ← field? (upTo ['\x7d'] marked)
  match startingAt ['\x7d'] marked with
  | _ :: (']', _) :: rest => withLevel? { rule with fields := [field] } rest tail
  | _ => none

def withSpan? (rule : LogRule) (marked : Marked) (tail : List Char) : Option LogRule :=
  let stops := [']', '\x7b']
  match startingAt stops marked with
  | (']', _) :: rest => withLevel? { rule with inSpan := true } rest tail
  | (_, _) :: rest =>
    withFields? { rule with inSpan := !(upTo stops marked).isEmpty } rest tail
  | [] => none

def blank : LogRule := ⟨none, false, [], .atLeast .trace⟩

-- A word alone is a level, if it can be, or else a target.
def ofWord (word : List Char) : LogRule :=
  match LogThreshold.read? word with
  | some threshold => { blank with threshold }
  | none => { blank with target := some (String.ofList word) }

def ofMarked? (marked : Marked) (tail : List Char) : Option LogRule :=
  match marked with
  | [] => none
  | ('[', _) :: rest => withSpan? blank rest tail
  | (c, _) :: _ =>
    if mayStart c then
      let stops := ['=', '[']
      let target := upTo stops marked
      match startingAt stops marked with
      | [] => some (ofWord (target ++ tail))
      | ('=', d) :: rest =>
        withLevel? { blank with target := some (String.ofList target) } (('=', d) :: rest) tail
      | (_, _) :: rest => withSpan? { blank with target := some (String.ofList target) } rest tail
    else none

def read? (text : List Char) : Option LogRule :=
  let trimmed := Text.trimmed text
  ofMarked? (trimmed.zip text) (text.drop trimmed.length)

end LogRule

namespace LogFilter

def everything (level : LogLevel) : LogFilter := [⟨none, false, [], .atLeast level⟩]

def nothing : LogFilter := [⟨none, false, [], .off⟩]

-- Of two equally particular rules the later one counts.
def ruleFor? (filter : LogFilter) (event : LogEvent) : Option LogRule :=
  (filter.filter fun rule => rule.concerns event).foldl (fun best rule =>
    match best with
    | some other => if rule.refines other then some rule else best
    | none => some rule) none

def passes (filter : LogFilter) (event : LogEvent) : Bool :=
  match filter.ruleFor? event with
  | some rule => rule.threshold.passes event.level
  | none => false

def readRules? : List String → Option LogFilter
  | [] => some []
  | text :: rest => do
    let rule ← LogRule.read? text.toList
    some (rule :: (← readRules? rest))

-- Without rules only errors pass; what cannot be read stands for everything from `info` on.
def ofText (text : String) : LogFilter :=
  match readRules? ((text.splitOn ",").filter fun rule => !rule.isEmpty) with
  | some [] => everything .error
  | some rules => rules
  | none => everything .info

def ofSetting : Option String → LogFilter
  | some text => ofText text
  | none => everything .info

def text (filter : LogFilter) (events : List LogEvent) : String :=
  LogEvent.text (events.filter filter.passes)

end LogFilter

end NodeFlow
