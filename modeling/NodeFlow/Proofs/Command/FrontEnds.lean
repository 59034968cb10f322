import NodeFlow.Command.Run
import NodeFlow.Proofs.Catalog.Payloads
import NodeFlow.Proofs.Command.CommandLine

namespace NodeFlow

namespace Command

structure Environment.Holds (env : Environment) (name text : String) : Prop where
  plain : PlainName name
  readable : env.file name = .ok text

def shown (json : Bool) (report : Report) : String := if json then report.toJson.indented else report.render

-- What a validation of two texts comes to on the command line.
structure Answers (workflow catalog : String) (json : Bool) (output : Output) : Prop where
  passed : output.code = 0 ↔ Payload.Saved catalog ∧
    ∃ graph report, validateTexts workflow catalog = .ok (graph, report) ∧ report.isValid = true
  failed : output.code ≠ 0 → output.code = 1
  printed : ∀ graph report, Payload.Saved catalog → validateTexts workflow catalog = .ok (graph, report) →
    output.stdout = shown json report ++ "\n"
  silent : ¬ (Payload.Saved catalog ∧ ∃ answer, validateTexts workflow catalog = .ok answer) → output.stdout = ""

section Files

variable {env : Environment} {store : Store} {path text : String}

end Files

section Forms

variable {env : Environment} {w c : String} {json : Bool} {messages : String}

end Forms

section Runs

variable {env : Environment} {workflow catalog w c : String} (heldWorkflow : env.Holds workflow w)
  (heldCatalog : env.Holds catalog c) (host : Option String) (json : Bool)

include heldWorkflow

include heldCatalog

end Runs

section Agreement

variable {w c : String} {json otherJson : Bool} {one other : Output}

end Agreement

end Command

end NodeFlow
