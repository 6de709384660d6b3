import ApiDocs.Main
import ApiDocs.Proofs.Order
import ApiDocs.Proofs.Checked
import ApiDocs.Proofs.Policy
import ApiDocs.Proofs.Module.Visible
import ApiDocs.Proofs.Module.Report
import ApiDocs.Proofs.Module.Collections
import ApiDocs.Proofs.Example.Address
import ApiDocs.Proofs.Example.Coverage
import ApiDocs.Proofs.Disk.Name
import ApiDocs.Proofs.Path.Names
import ApiDocs.Proofs.Disk.Evolves
import ApiDocs.Proofs.Disk.Way
import ApiDocs.Proofs.Disk.Removal
import ApiDocs.Proofs.Example.Folder
import ApiDocs.Proofs.Glob.Below
import ApiDocs.Proofs.Module.Paths
import ApiDocs.Proofs.Path.Relative
import ApiDocs.Proofs.Run.Documented
import ApiDocs.Proofs.Run.Failures
import ApiDocs.Proofs.Run.Scratch
import ApiDocs.Proofs.Run.Verify
import ApiDocs.Proofs.Run.Writing
import ApiDocs.Proofs.Site.Frame
import ApiDocs.Proofs.Site.History
import ApiDocs.Proofs.Site.Sources
import ApiDocs.Proofs.Outcome
import ApiDocs.Proofs.Disk.Copy
import ApiDocs.Proofs.Disk.CopyChange
import ApiDocs.Proofs.Glob.Copy
import ApiDocs.Proofs.Run.Twin
import ApiDocs.Proofs.Run.Relocation
import ApiDocs.Proofs.Run.TwinChecks
import ApiDocs.Proofs.Run.Relocated
import ApiDocs.Proofs.Disk.Gains
import ApiDocs.Proofs.Disk.Success
import ApiDocs.Proofs.Site.Config
import ApiDocs.Proofs.Module.Merge
import ApiDocs.Proofs.Schedule
import ApiDocs.Proofs.Module.Lenient
import ApiDocs.Proofs.Disk.Fault
import ApiDocs.Proofs.Run.ReadFaults
import ApiDocs.Proofs.Run.Faults
import ApiDocs.Proofs.Run.Report
import ApiDocs.Proofs.Glob.Files
import ApiDocs.Proofs.Run.Quiet
import ApiDocs.Proofs.Run.Again
import ApiDocs.Proofs.Run.Passing
import ApiDocs.Proofs.Site.Standing
import ApiDocs.Proofs.Site.Settled
import ApiDocs.Proofs.Site.Built
import ApiDocs.Proofs.Site.Fixpoint
import ApiDocs.Proofs.Site.Updates
import ApiDocs.Proofs.Site.Bytes
import ApiDocs.Proofs.FailFast
import ApiDocs.Proofs.Source.Overload
import ApiDocs.Proofs.Comment.Example
import ApiDocs.Proofs.Comment.Delimiters
import ApiDocs.Proofs.Source.Attachment
import ApiDocs.Proofs.Source.Member
import ApiDocs.Proofs.Source.Entry
import ApiDocs.Proofs.Source.Documentation
import ApiDocs.Proofs.Module.LastBlock
import ApiDocs.Proofs.Module.Blocks
import ApiDocs.Proofs.Text.Boundary
import ApiDocs.Proofs.Source.Cut
import ApiDocs.Proofs.Source.Resolution
import ApiDocs.Proofs.Source.Reexport
import ApiDocs.Proofs.Tree.Literal
import ApiDocs.Proofs.Example.Import
import ApiDocs.Proofs.Example.Index
import ApiDocs.Proofs.Disk.Shape
import ApiDocs.Proofs.Run.Effects
import ApiDocs.Proofs.Run.Protocol
import ApiDocs.Proofs.Example.Target
import ApiDocs.Proofs.Example.Declaration
import ApiDocs.Proofs.Example.Assertion
import ApiDocs.Proofs.Page.Groups
import ApiDocs.Proofs.Page.Anchors
import ApiDocs.Proofs.Page.Scan
import ApiDocs.Proofs.Page.Outline
import ApiDocs.Proofs.Disk.Removable
import ApiDocs.Proofs.Disk.Sweep
import ApiDocs.Proofs.Glob.Matches
import ApiDocs.Proofs.Run.Removal
import ApiDocs.Proofs.Settings.Override
import ApiDocs.Proofs.Glob.Literal
import ApiDocs.Proofs.Source.Parentheses
import ApiDocs.Proofs.Module.Qualifier
