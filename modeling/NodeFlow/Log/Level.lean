namespace NodeFlow

inductive LogLevel
  | trace
  | debug
  | info
  | warn
  | error
  deriving DecidableEq

namespace LogLevel

def rank : LogLevel → Nat
  | .trace => 0
  | .debug => 1
  | .info => 2
  | .warn => 3
  | .error => 4

def label : LogLevel → String
  | .trace => "TRACE"
  | .debug => "DEBUG"
  | .info => " INFO"
  | .warn => " WARN"
  | .error => "ERROR"

end LogLevel

structure LogThreshold where
  least : Option LogLevel
  deriving DecidableEq

namespace LogThreshold

def off : LogThreshold := ⟨none⟩

def atLeast (level : LogLevel) : LogThreshold := ⟨some level⟩

def passes (threshold : LogThreshold) (level : LogLevel) : Bool :=
  match threshold.least with
  | some least => least.rank ≤ level.rank
  | none => false

def ofNumber? : Nat → Option LogThreshold
  | 0 => some off
  | 1 => some (atLeast .error)
  | 2 => some (atLeast .warn)
  | 3 => some (atLeast .info)
  | 4 => some (atLeast .debug)
  | 5 => some (atLeast .trace)
  | _ => none

def ofName? : String → Option LogThreshold
  | "off" => some off
  | "error" => some (atLeast .error)
  | "warn" => some (atLeast .warn)
  | "info" => some (atLeast .info)
  | "debug" => some (atLeast .debug)
  | "trace" => some (atLeast .trace)
  | _ => none

def digits? (text : List Char) : Option Nat :=
  if !text.isEmpty && text.all Char.isDigit then some (Nat.ofDigitChars 10 text 0) else none

def read? (text : List Char) : Option LogThreshold :=
  let number := match text with
    | '+' :: rest => digits? rest
    | _ => digits? text
  match number with
  | some number => ofNumber? number
  | none => ofName? (String.ofList (text.map Char.toLower))

end LogThreshold

end NodeFlow
