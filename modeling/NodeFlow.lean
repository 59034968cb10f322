import NodeFlow.Graph.Edit
import NodeFlow.Main
import NodeFlow.Proofs.Catalog.Declarations
import NodeFlow.Proofs.Catalog.Requests
import NodeFlow.Proofs.Command.FrontEnds
import NodeFlow.Proofs.Graph.Acceptance
import NodeFlow.Proofs.Graph.Built
import NodeFlow.Proofs.Graph.EditFrames
import NodeFlow.Proofs.Graph.ExecutionOrder
import NodeFlow.Proofs.Graph.FreshId
import NodeFlow.Proofs.Graph.InputForms
import NodeFlow.Proofs.Graph.LinkedInputs
import NodeFlow.Proofs.Graph.MarkedRecovery
import NodeFlow.Proofs.Graph.NormalForm
import NodeFlow.Proofs.Graph.Removal
import NodeFlow.Proofs.Graph.RoundTrip
import NodeFlow.Proofs.Graph.Saved
import NodeFlow.Proofs.Similarity.Ratio
import NodeFlow.Proofs.Validation.Advice
import NodeFlow.Proofs.Validation.Agreement
import NodeFlow.Proofs.Validation.Feedback
import NodeFlow.Proofs.Validation.Independence
import NodeFlow.Proofs.Validation.LinkFaults
import NodeFlow.Proofs.Validation.Locality
import NodeFlow.Proofs.Validation.Ranges
import NodeFlow.Proofs.Validation.Verdict
import NodeFlow.Session
