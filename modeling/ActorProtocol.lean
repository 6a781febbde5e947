import ActorProtocol.Location
import ActorProtocol.QualifiedName
import ActorProtocol.Messaging
import ActorProtocol.Data.OrderedMap
import ActorProtocol.Source.Node
import ActorProtocol.Fault
import ActorProtocol.Role
import ActorProtocol.Source.State
import ActorProtocol.Source.Unit
import ActorProtocol.Source.Builder
import ActorProtocol.Source.Traversal
import ActorProtocol.Source.Text
import ActorProtocol.Located
import ActorProtocol.Declaration.Basic
import ActorProtocol.Declaration.Table
import ActorProtocol.Naming.Error
import ActorProtocol.Naming.Names
import ActorProtocol.Naming.Bindings
import ActorProtocol.Naming.Resolved
import ActorProtocol.Machine.Basic
import ActorProtocol.Machine.Reachable
import ActorProtocol.Machine.Error
import ActorProtocol.Machine.Checked
import ActorProtocol.Program
import ActorProtocol.Diagnostic
import ActorProtocol.Excerpt
import ActorProtocol.FrontEnd
import ActorProtocol.Proofs.Declaration.Soundness
import ActorProtocol.Proofs.Naming.Binding
import ActorProtocol.Proofs.Naming.NodeRecord
import ActorProtocol.Proofs.Source.Numbering
import ActorProtocol.Proofs.Naming.Continuation
import ActorProtocol.Proofs.Naming.Outcome
import ActorProtocol.Proofs.Naming.Distinct
import ActorProtocol.Proofs.Naming.Settled
import ActorProtocol.Proofs.Naming.Failure
import ActorProtocol.Proofs.Naming.TypeScope
import ActorProtocol.Proofs.Naming.Coverage
import ActorProtocol.Proofs.Machine.Statements
import ActorProtocol.Proofs.Machine.Triggers
import ActorProtocol.Proofs.Faultless
import ActorProtocol.Proofs.Machine.Reachability
import ActorProtocol.Proofs.Machine.Reached
import ActorProtocol.Proofs.Machine.Distance
import ActorProtocol.Proofs.Machine.Acceptance
import ActorProtocol.Proofs.Machine.Rejection
import ActorProtocol.Proofs.Machine.Wildcard
import ActorProtocol.Proofs.Machine.Collection
import ActorProtocol.Proofs.Machine.DeadEnd
import ActorProtocol.Proofs.Naming.Protocols
import ActorProtocol.Proofs.Naming.TypeNames
import ActorProtocol.Proofs.Program.Consistency
import ActorProtocol.Proofs.Program.Closure
import ActorProtocol.Proofs.Naming.Placement
import ActorProtocol.Proofs.Naming.Spelling
import ActorProtocol.Proofs.Naming.BroughtNames
import ActorProtocol.Proofs.Naming.ShortName
import ActorProtocol.Proofs.Naming.OwnDeclarations
import ActorProtocol.Proofs.Naming.ActorStates
import ActorProtocol.Proofs.Policies
import ActorProtocol.Proofs.Naming.StateLinks
import ActorProtocol.Proofs.Program.Findings
import ActorProtocol.Proofs.Program.AskedStates
import ActorProtocol.Proofs.Program.Order
import ActorProtocol.Proofs.Program.Collection
import ActorProtocol.Proofs.Padding
import ActorProtocol.Proofs.Naming.Relabeling
import ActorProtocol.Proofs.Machine.Relabeling
import ActorProtocol.Proofs.Relabeling
import ActorProtocol.Proofs.Naming.Scope
import ActorProtocol.Proofs.Naming.Reordering
import ActorProtocol.Proofs.Machine.Reordering
import ActorProtocol.Proofs.Reordering
import ActorProtocol.Proofs.Source.Reading
import ActorProtocol.Proofs.Source.Outline
import ActorProtocol.Proofs.Source.TypeText
import ActorProtocol.Proofs.Source.ProtocolWording
import ActorProtocol.Proofs.Source.UnitWording
import ActorProtocol.Proofs.Source.Legibility
import ActorProtocol.Proofs.Source.ProtocolLegibility
import ActorProtocol.Proofs.Legibility
import ActorProtocol.Proofs.Machine.Faults
import ActorProtocol.Proofs.Naming.SharedId
import ActorProtocol.Proofs.Locations
import ActorProtocol.Proofs.Source.Stamping
import ActorProtocol.Proofs.Source.Allocation
import ActorProtocol.Proofs.Machine.RealStart
import ActorProtocol.Proofs.Naming.RoundTrip
import ActorProtocol.Proofs.Naming.Shortening
import ActorProtocol.Proofs.Excerpt
import ActorProtocol.Proofs.Source.Traversal
