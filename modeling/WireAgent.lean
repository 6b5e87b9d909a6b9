import WireAgent.Json.Reader
import WireAgent.Failure.Description
import WireAgent.Main
import WireAgent.Proofs.Execution
import WireAgent.Proofs.Reachability
import WireAgent.Proofs.Retry
import WireAgent.Proofs.Exchanges
import WireAgent.Proofs.Course
import WireAgent.Proofs.Stages
import WireAgent.Proofs.SoftFailures
import WireAgent.Proofs.Numbering
import WireAgent.Proofs.Stopping
import WireAgent.Proofs.Markup
import WireAgent.Proofs.Documents
import WireAgent.Proofs.Base64Text
import WireAgent.Proofs.JsonText
import WireAgent.Proofs.Layout
import WireAgent.Proofs.Trimming
import WireAgent.Proofs.Acknowledgement
import WireAgent.Proofs.Configurations
import WireAgent.Proofs.Invocations
import WireAgent.Proofs.Refusals
import WireAgent.Proofs.Figures
import WireAgent.Proofs.Relisting
import WireAgent.Proofs.Bookkeeping
import WireAgent.Proofs.Descriptions
import WireAgent.Proofs.Insertion
import WireAgent.Proofs.DocumentOrder
import WireAgent.Proofs.Omission
import WireAgent.Proofs.Acceptance
import WireAgent.Proofs.Assignments
import WireAgent.Proofs.Concatenation
import WireAgent.Proofs.Edits
import WireAgent.Proofs.LineEnds
import WireAgent.Proofs.Timestamps
import WireAgent.Proofs.Percentages
