import Bindery.Assembly.Assemble
import Bindery.CommandLine.Session
import Bindery.Formatter.Command
import Bindery.Main
import Bindery.Model.Decode
import Bindery.Proofs.Reference.Apart
import Bindery.Proofs.Layout.Places
import Bindery.Proofs.Layout.Neighbours
import Bindery.Proofs.Order.Cycles
import Bindery.Proofs.Order.CycleList
import Bindery.Proofs.Order.Flags
import Bindery.Proofs.Order.Arranging
import Bindery.Proofs.Order.Bases
import Bindery.Proofs.Reference.Known
import Bindery.Proofs.Reference.Roots
import Bindery.Proofs.Layout.Slots
import Bindery.Proofs.Reuse.Collapsing
import Bindery.Proofs.Reference.Following
import Bindery.Proofs.Reference.Reaching
import Bindery.Proofs.Assembly.Run
import Bindery.Proofs.Assembly.DefinitionOrder
import Bindery.Proofs.Reference.Clashes
import Bindery.Proofs.Reuse.Redirecting
import Bindery.Proofs.Reuse.Structure
import Bindery.Proofs.Source.Rendering
import Bindery.Proofs.Model.FieldRules
import Bindery.Proofs.Model.WireNames
import Bindery.Proofs.Source.Members
import Bindery.Proofs.Assembly.Scope
import Bindery.Proofs.Assembly.Support
import Bindery.Proofs.Reference.Topmost
import Bindery.Proofs.Assembly.Headers
import Bindery.Proofs.Order.Chains
import Bindery.Proofs.Order.Resorting
import Bindery.Proofs.Source.FieldNames
import Bindery.Proofs.Source.Evaluation
import Bindery.Proofs.Source.Docstrings
import Bindery.Proofs.Model.RoundTrip
import Bindery.Proofs.Assembly.OutputFiles
import Bindery.Proofs.Reference.Directions
import Bindery.Proofs.Reference.Naming
import Bindery.Proofs.Text.Boundaries
import Bindery.Proofs.Assembly.Sections
import Bindery.Proofs.Order.Settling
import Bindery.Proofs.Model.Directives
import Bindery.Proofs.Model.Collections
import Bindery.Proofs.Assembly.Figures
import Bindery.Proofs.Formatter.Measures
import Bindery.Proofs.Formatter.Translating
