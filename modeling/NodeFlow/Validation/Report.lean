import NodeFlow.Json.Printer
import NodeFlow.Validation.Issue

namespace NodeFlow

structure Report where
  issues : List Issue
  nodeCount : Nat
  -- False when no node types were known, so that only structural rules ran.
  checkedAgainstCatalog : Bool
  deriving DecidableEq

namespace Report

def isValid (report : Report) : Bool := !report.issues.any Issue.isError

def errors (report : Report) : List Issue := report.issues.filter fun issue => issue.severity == .error

def warnings (report : Report) : List Issue :=
  report.issues.filter fun issue => issue.severity == .warning

def passed : String := "VALIDATION PASSED: Workflow is valid."

def structuralOnly : String := "NOTE: node catalog unavailable; only structural checks were run."

def request : String := "Fix ALL errors and provide corrected workflow JSON."

def errorLine (number : Nat) (issue : Issue) : String :=
  toString number ++ ". [" ++ issue.check.name ++ "] " ++ issue.message ++
    match issue.suggestion with
    | some name => " - Did you mean '" ++ name ++ "'?"
    | none => ""

def warningLine (issue : Issue) : String := "  - [" ++ issue.check.name ++ "] " ++ issue.message

def numbered (first : Nat) : List Issue → List String
  | [] => []
  | issue :: rest => errorLine first issue :: numbered (first + 1) rest

def errorLines (errors : List Issue) : List String :=
  if errors.isEmpty then []
  else
    ("VALIDATION ERRORS (" ++ toString errors.length ++ " error" ++
      (if errors.length = 1 then "" else "s") ++ "):") :: numbered 1 errors

def warningLines (warnings : List Issue) : List String :=
  if warnings.isEmpty then []
  else ("\nWARNINGS (" ++ toString warnings.length ++ "):") :: warnings.map warningLine

def lines (report : Report) : List String :=
  if report.issues.isEmpty then
    passed :: (if report.checkedAgainstCatalog then [] else [structuralOnly])
  else
    errorLines report.errors ++ warningLines report.warnings ++
      (if report.checkedAgainstCatalog then [] else ["\n" ++ structuralOnly]) ++ ["\n" ++ request]

def render (report : Report) : String := "\n".intercalate report.lines

def toJson (report : Report) : Json :=
  .object [
    ("issues", .array (report.issues.map Issue.toJson)),
    ("nodeCount", .number (.ofNat report.nodeCount)),
    ("checkedAgainstCatalog", .bool report.checkedAgainstCatalog)]

end Report

end NodeFlow
