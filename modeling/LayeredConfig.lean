import LayeredConfig.Binary64.Basic
import LayeredConfig.Binary64.Shortest
import LayeredConfig.Calendar
import LayeredConfig.Container.Entries
import LayeredConfig.Container.Sequence
import LayeredConfig.Container.Slice
import LayeredConfig.Decode
import LayeredConfig.Digest
import LayeredConfig.Environment
import LayeredConfig.Fault
import LayeredConfig.Fingerprint
import LayeredConfig.Loader.Basic
import LayeredConfig.Loader.Host
import LayeredConfig.Loader.Locations
import LayeredConfig.Log
import LayeredConfig.NodeSchema
import LayeredConfig.Overlay
import LayeredConfig.Proofs.Container.Entries
import LayeredConfig.Proofs.Container.Pairing
import LayeredConfig.Proofs.Decode.Exactness
import LayeredConfig.Proofs.Decode.Faults
import LayeredConfig.Proofs.Decode.Findings
import LayeredConfig.Proofs.Decode.Genuine
import LayeredConfig.Proofs.Decode.Merging
import LayeredConfig.Proofs.Decode.Mirroring
import LayeredConfig.Proofs.Decode.Origins
import LayeredConfig.Proofs.Decode.Pruning
import LayeredConfig.Proofs.Decode.Reports
import LayeredConfig.Proofs.Decode.Restoring
import LayeredConfig.Proofs.Decode.Shuffling
import LayeredConfig.Proofs.Decode.Steps
import LayeredConfig.Proofs.Decode.Trails
import LayeredConfig.Proofs.Decode.Typing
import LayeredConfig.Proofs.Decode.Visits
import LayeredConfig.Proofs.Decode.Walks
import LayeredConfig.Proofs.Decode.Words
import LayeredConfig.Proofs.Loader.Conformity
import LayeredConfig.Proofs.Loader.Faults
import LayeredConfig.Proofs.Loader.Outcome
import LayeredConfig.Proofs.Loader.Result
import LayeredConfig.Proofs.Loader.Startup
import LayeredConfig.Proofs.Loader.Verbosity
import LayeredConfig.Proofs.Log.Ending
import LayeredConfig.Proofs.Results
import LayeredConfig.Proofs.Schema.Conformity
import LayeredConfig.Proofs.Schema.Defaults
import LayeredConfig.Proofs.Schema.Genuine
import LayeredConfig.Proofs.Schema.Node
import LayeredConfig.Proofs.Schema.Slots
import LayeredConfig.Proofs.Schema.Worded
import LayeredConfig.Proofs.Text.Quoting
import LayeredConfig.Proofs.Text.Sorting
import LayeredConfig.Proofs.Value.Fingerprints
import LayeredConfig.Proofs.Value.Likeness
import LayeredConfig.Proofs.Value.Parts
import LayeredConfig.Proofs.Value.Plainness
import LayeredConfig.Proofs.Value.Shuffling
import LayeredConfig.Proofs.Value.Trees
import LayeredConfig.Report
import LayeredConfig.Resource.Address
import LayeredConfig.Resource.Files
import LayeredConfig.Resource.Location
import LayeredConfig.Resource.Path
import LayeredConfig.Scalar
import LayeredConfig.Schema
import LayeredConfig.Sorting
import LayeredConfig.Store.Basic
import LayeredConfig.Store.Call
import LayeredConfig.Store.DictCall
import LayeredConfig.Store.Document
import LayeredConfig.Store.Method
import LayeredConfig.Store.SequenceCall
import LayeredConfig.Store.SetCall
import LayeredConfig.Store.Traversal
import LayeredConfig.Summary
import LayeredConfig.Text.Base64
import LayeredConfig.Text.Casing
import LayeredConfig.Text.Encoding
import LayeredConfig.Text.Numeral
import LayeredConfig.Text.Percent
import LayeredConfig.Text.Printable
import LayeredConfig.Text.Quoted
import LayeredConfig.Tree
import LayeredConfig.Value.Basic
import LayeredConfig.Value.Canonical
import LayeredConfig.Value.Display
import LayeredConfig.Value.Equality
import LayeredConfig.Value.Plain
import LayeredConfig.Yaml.Cursor
import LayeredConfig.Yaml.Data
import LayeredConfig.Yaml.Failure
import LayeredConfig.Yaml.Graph
import LayeredConfig.Yaml.Lexeme
import LayeredConfig.Yaml.Resolution
import LayeredConfig.Yaml.Token
import LayeredConfig.Yaml.TokenStream
import LayeredConfig.Proofs.Loader.Calls
import LayeredConfig.Proofs.Loader.Targets
import LayeredConfig.Proofs.Container.Matching
import LayeredConfig.Proofs.Decode.Identity
import LayeredConfig.Proofs.Loader.Histories
import LayeredConfig.Proofs.Value.Agreement
import LayeredConfig.Proofs.Schema.Enumerations
import LayeredConfig.Proofs.Decode.Offers
import LayeredConfig.Proofs.Decode.Acceptance
import LayeredConfig.Proofs.Decode.Collections
import LayeredConfig.Proofs.Text.Escaping
import LayeredConfig.Proofs.Resource.Places
import LayeredConfig.Proofs.Resource.Addresses
import LayeredConfig.Proofs.Resource.Resolution
import LayeredConfig.Proofs.Container.Sequences
import LayeredConfig.Proofs.Store.Regions
import LayeredConfig.Proofs.Store.Sparing
import LayeredConfig.Proofs.Store.Calls
import LayeredConfig.Proofs.Store.Views
import LayeredConfig.Proofs.Store.Copying
import LayeredConfig.Proofs.Store.Cycles
import LayeredConfig.Proofs.Store.PlainForms
import LayeredConfig.Proofs.Store.Isolation
import LayeredConfig.Proofs.Schema.Layering
import LayeredConfig.Proofs.Store.Overlays
import LayeredConfig.Proofs.Decode.Settings
import LayeredConfig.Proofs.Decode.Gathering
import LayeredConfig.Proofs.Decode.Texts
import LayeredConfig.Proofs.Decode.Culprits
import LayeredConfig.Proofs.Decode.SourceOrder
import LayeredConfig.Proofs.Resource.Naming
import LayeredConfig.Proofs.Loader.Naming
import LayeredConfig.Proofs.Store.Outlines
import LayeredConfig.Proofs.Store.Births
import LayeredConfig.Proofs.Store.Events
import LayeredConfig.Proofs.Store.Marks
import LayeredConfig.Proofs.Value.Rendering
import LayeredConfig.Proofs.Decode.Rendering
import LayeredConfig.Proofs.Container.Membership
import LayeredConfig.Proofs.Container.Ledgers
import LayeredConfig.Proofs.Container.Slices
import LayeredConfig.Proofs.Value.Sameness
import LayeredConfig.Proofs.Store.Answers
import LayeredConfig.Proofs.Store.SetAlgebra
import LayeredConfig.Proofs.Store.Slicing
import LayeredConfig.Proofs.Store.DictChanges
import LayeredConfig.Proofs.Store.DictCopies
import LayeredConfig.Proofs.Store.Dictionaries
import LayeredConfig.Proofs.Store.Iterations
import LayeredConfig.Proofs.Store.Intact
import LayeredConfig.Proofs.Store.Failures
import LayeredConfig.Proofs.Store.Interruptions
import LayeredConfig.Proofs.Value.Dispatch
import LayeredConfig.Proofs.Store.Comparisons
import LayeredConfig.Proofs.Binary64.Rounding
import LayeredConfig.Proofs.Value.Insertion
