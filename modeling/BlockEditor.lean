import BlockEditor.Main
import BlockEditor.Palette.RegistryCodec
import BlockEditor.Proofs.Walk
import BlockEditor.Proofs.Context
import BlockEditor.Proofs.Prune
import BlockEditor.Proofs.Moving
import BlockEditor.Proofs.Validity
import BlockEditor.Proofs.Stamp
import BlockEditor.Session.Command
import BlockEditor.Proofs.Anchors
import BlockEditor.Proofs.Planning
import BlockEditor.Proofs.Dropping
import BlockEditor.Proofs.Sessions
import BlockEditor.Proofs.Preview
import BlockEditor.Proofs.Refusal
import BlockEditor.Proofs.Conservation
import BlockEditor.Proofs.Nodes
import BlockEditor.Proofs.Digits
import BlockEditor.Proofs.Loop
import BlockEditor.Proofs.SyntheticName
import BlockEditor.Proofs.Entropy
import BlockEditor.Proofs.InstanceIds
import BlockEditor.Proofs.Issuing
import BlockEditor.Proofs.Naming
import BlockEditor.Proofs.Names
import BlockEditor.Proofs.NameHistory
import BlockEditor.Proofs.Binding
import BlockEditor.Proofs.Issues
import BlockEditor.Proofs.Recovery
import BlockEditor.Proofs.Completeness
import BlockEditor.Proofs.JsonText
import BlockEditor.Proofs.Decoding
import BlockEditor.Proofs.Submission
import BlockEditor.Proofs.Scaling
import BlockEditor.Proofs.Records
import BlockEditor.Proofs.Formats
import BlockEditor.Proofs.Renaming
import BlockEditor.Proofs.Visibility
import BlockEditor.Proofs.Replaying
import BlockEditor.Proofs.Highlighting
import BlockEditor.Proofs.Moments
import BlockEditor.Proofs.Aborting
import BlockEditor.Proofs.Handles
import BlockEditor.Proofs.Rows
import BlockEditor.Proofs.Nesting
import BlockEditor.Proofs.Aiming
import BlockEditor.Proofs.Axes
import BlockEditor.Proofs.Removal
import BlockEditor.Proofs.UnsetAxes
import BlockEditor.Proofs.MissingPositions
import BlockEditor.Proofs.Containers
import BlockEditor.Proofs.Repetition
import BlockEditor.Proofs.PaletteIds
import BlockEditor.Proofs.NodeTemplates
import BlockEditor.Proofs.Searching
import BlockEditor.Proofs.Paths
import BlockEditor.Proofs.Purging
import BlockEditor.Proofs.Detaching
import BlockEditor.Proofs.Holders
import BlockEditor.Proofs.Lookups
import BlockEditor.Proofs.Climbing
import BlockEditor.Proofs.Pass
