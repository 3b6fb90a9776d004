import PageDesigner.Buffer.Owner
import PageDesigner.Main
import PageDesigner.Proofs.Buffer.Position
import PageDesigner.Proofs.Markup.TagText
import PageDesigner.Proofs.Document.Stability
import PageDesigner.Proofs.Host.Settling
import PageDesigner.Proofs.Host.Correspondence
import PageDesigner.Proofs.Control.Rereading
import PageDesigner.Proofs.Surface.Alike
import PageDesigner.Proofs.Document.Issues
import PageDesigner.Proofs.Document.Repetition
import PageDesigner.Proofs.Document.Addressing
import PageDesigner.Proofs.Host.Addressing
import PageDesigner.Proofs.Control.Regular
import PageDesigner.Proofs.Surface.Mapping
import PageDesigner.Proofs.Surface.Orderly
import PageDesigner.Proofs.Surface.Restoring
import PageDesigner.Proofs.Document.Upkeep
import PageDesigner.Proofs.Document.Failing
import PageDesigner.Proofs.Host.Orderly
import PageDesigner.Proofs.Host.Reachable
import PageDesigner.Proofs.Host.Failing
import PageDesigner.Proofs.Host.Refused
import PageDesigner.Proofs.Host.Binding
import PageDesigner.Proofs.Host.Rewriting
import PageDesigner.Proofs.Markup.Sealing
import PageDesigner.Proofs.Host.Creating
import PageDesigner.Proofs.Host.Removing
import PageDesigner.Proofs.Host.Telling
import PageDesigner.Proofs.Document.FirstReport
import PageDesigner.Proofs.Host.Reporting
import PageDesigner.Proofs.Text.Layout
import PageDesigner.Proofs.Markup.Regions
import PageDesigner.Proofs.Document.Literal
import PageDesigner.Proofs.Host.Showing
import PageDesigner.Proofs.Buffer.Timeline
import PageDesigner.Proofs.Host.Handles
import PageDesigner.Proofs.Host.Consistent
import PageDesigner.Proofs.Buffer.Editing
import PageDesigner.Proofs.Buffer.Notices
import PageDesigner.Proofs.Document.Freshness
import PageDesigner.Proofs.Host.Balanced
import PageDesigner.Proofs.Host.Brackets
import PageDesigner.Proofs.Document.Marking
import PageDesigner.Proofs.Host.Marking
import PageDesigner.Proofs.Host.Resetting
import PageDesigner.Proofs.Host.Refreshing
import PageDesigner.Proofs.Markup.Boundary
import PageDesigner.Proofs.Document.Confined
import PageDesigner.Proofs.Host.Selecting
import PageDesigner.Proofs.Markup.Directive
import PageDesigner.Proofs.Document.RoundTrip
import PageDesigner.Proofs.Host.Choosing
import PageDesigner.Proofs.Host.Redrawing
import PageDesigner.Proofs.Host.Deselecting
import PageDesigner.Proofs.Control.Rendering
import PageDesigner.Proofs.Markup.Closing
import PageDesigner.Proofs.Host.Warnings
import PageDesigner.Proofs.Text.Positions
import PageDesigner.Proofs.Surface.Sites
import PageDesigner.Proofs.Surface.Directives
import PageDesigner.Proofs.Markup.Quoting
import PageDesigner.Proofs.Host.Message
