import DocGraph.Main
import DocGraph.Stmt.Construct
import DocGraph.Tree.Encode
import DocGraph.Proofs.Registry.Registered
import DocGraph.Proofs.Registry.Placement
import DocGraph.Proofs.Run.Change
import DocGraph.Proofs.Run.Sound
import DocGraph.Proofs.Run.InTable
import DocGraph.Proofs.Run.LockStep
import DocGraph.Proofs.Run.Details
import DocGraph.Proofs.Run.Walking
import DocGraph.Proofs.Run.Calls
import DocGraph.Proofs.Run.Inheritance
import DocGraph.Proofs.Run.Trace
import DocGraph.Proofs.Run.Subclasses
import DocGraph.Proofs.Finish.Finished
import DocGraph.Proofs.Finish.Repeat
import DocGraph.Proofs.Walk.Guard
import DocGraph.Proofs.Run.ModuleNames
import DocGraph.Proofs.Reexport.Ownership
import DocGraph.Proofs.Finish.ForwardBases
import DocGraph.Proofs.Finish.BuildOrder
import DocGraph.Proofs.Tree.RoundTrip
import DocGraph.Proofs.Finish.StoredOrders
import DocGraph.Proofs.Run.Kinds
import DocGraph.Proofs.Walk.Isolation
import DocGraph.Proofs.Walk.Script
import DocGraph.Proofs.Walk.Scopes
import DocGraph.Proofs.Walk.Visits
import DocGraph.Proofs.Batch.Outcome
import DocGraph.Proofs.Walk.Reports
import DocGraph.Proofs.Finish.OrderReports
import DocGraph.Proofs.Bases.Merging
import DocGraph.Proofs.Bases.Search
import DocGraph.Proofs.Bases.Linearized
import DocGraph.Proofs.Finish.Unnoticed
import DocGraph.Proofs.Names.Denotation
import DocGraph.Proofs.Names.Parts
import DocGraph.Proofs.Names.Moved
import DocGraph.Proofs.Names.Expansion
import DocGraph.Proofs.Names.Members
import DocGraph.Proofs.Registry.Numbering
import DocGraph.Proofs.Run.Repeated
import DocGraph.Proofs.Run.Namesakes
import DocGraph.Proofs.Bases.DepthFirst
import DocGraph.Proofs.Walk.Confined
import DocGraph.Proofs.Finish.Exceptions
import DocGraph.Proofs.Walk.History
import DocGraph.Proofs.Walk.Overloads
import DocGraph.Proofs.Walk.Imported
import DocGraph.Proofs.Attributes.Meaning
import DocGraph.Proofs.Attributes.Guarded
import DocGraph.Proofs.Attributes.Intact
import DocGraph.Proofs.Attributes.Stored
import DocGraph.Proofs.Attributes.Recorded
import DocGraph.Proofs.Attributes.Explicit
import DocGraph.Proofs.Attributes.Sequence
import DocGraph.Proofs.Attributes.Straight
import DocGraph.Proofs.Attributes.LastValue
import DocGraph.Proofs.Rendering.Lexemes
import DocGraph.Proofs.Rendering.Unambiguous
import DocGraph.Proofs.Signature.Built
import DocGraph.Proofs.Signature.Markers
import DocGraph.Proofs.Walk.RelativeImport
import DocGraph.Proofs.Text.Words
import DocGraph.Proofs.Hints.Unstrung
import DocGraph.Proofs.Hints.Inferred
import DocGraph.Proofs.Text.Lines
import DocGraph.Proofs.Docstring.Cleaned
import DocGraph.Proofs.Registry.Bindings
import DocGraph.Proofs.Names.Chains
import DocGraph.Proofs.Rendering.Quoted
