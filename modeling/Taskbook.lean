import Taskbook.Change
import Taskbook.Main
import Taskbook.Proofs.Changing
import Taskbook.Proofs.Choice.Choosing
import Taskbook.Proofs.Closed
import Taskbook.Proofs.CommandLine.Initializing
import Taskbook.Proofs.CommandLine.Pairs
import Taskbook.Proofs.Consistency
import Taskbook.Proofs.History
import Taskbook.Proofs.Log.Console
import Taskbook.Proofs.Manifest.Accepting
import Taskbook.Proofs.Manifest.Description
import Taskbook.Proofs.Manifest.Reporting
import Taskbook.Proofs.Manifest.RoundTrip
import Taskbook.Proofs.Project.Configuring
import Taskbook.Proofs.Project.Contents
import Taskbook.Proofs.Project.Editing
import Taskbook.Proofs.Project.Exporting
import Taskbook.Proofs.Project.Failing
import Taskbook.Proofs.Project.Filtering
import Taskbook.Proofs.Project.Integrity
import Taskbook.Proofs.Project.Listing
import Taskbook.Proofs.Project.Reloading
import Taskbook.Proofs.Project.Reporting
import Taskbook.Proofs.Project.Sourcing
import Taskbook.Proofs.Rendering.Basing
import Taskbook.Proofs.Rendering.Closing
import Taskbook.Proofs.Rendering.Enclosure
import Taskbook.Proofs.Rendering.Filling
import Taskbook.Proofs.Rendering.Likeness
import Taskbook.Proofs.Rendering.Locality
import Taskbook.Proofs.Rendering.Meaning
import Taskbook.Proofs.Rendering.Merging
import Taskbook.Proofs.Rendering.Nesting
import Taskbook.Proofs.Rendering.Quotation
import Taskbook.Proofs.Rendering.References
import Taskbook.Proofs.Rendering.Sequence
import Taskbook.Proofs.Rendering.Tracing
import Taskbook.Proofs.View.Aligning
import Taskbook.Proofs.View.Detailing
