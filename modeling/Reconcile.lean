import Reconcile.Accessors
import Reconcile.Change
import Reconcile.Change.Builder
import Reconcile.ChangeId
import Reconcile.CommandLine
import Reconcile.CommandLine.Words
import Reconcile.Comparison
import Reconcile.Declaration
import Reconcile.Dict
import Reconcile.Documents
import Reconcile.EnvFile
import Reconcile.Failure
import Reconcile.Json
import Reconcile.Json.Draft
import Reconcile.Json.Numeral
import Reconcile.Json.Printer
import Reconcile.Json.Reader
import Reconcile.Label
import Reconcile.Listings
import Reconcile.Main
import Reconcile.Number
import Reconcile.Number.Binary64
import Reconcile.Number.Shortest
import Reconcile.Pass
import Reconcile.Path
import Reconcile.Plan
import Reconcile.Plan.DeleteLinks
import Reconcile.Plan.Digest
import Reconcile.Plan.Document
import Reconcile.Plan.Numbering
import Reconcile.Plan.Order
import Reconcile.Protection
import Reconcile.Provider
import Reconcile.Reference
import Reconcile.Report
import Reconcile.Resolution
import Reconcile.Resource
import Reconcile.Run
import Reconcile.Run.Rehearsal
import Reconcile.Sha256
import Reconcile.Source
import Reconcile.StringSet
import Reconcile.Text.Alphanumeric
import Reconcile.Text.Blank
import Reconcile.Text.CharColumns
import Reconcile.Text.CharSet
import Reconcile.Text.Columns
import Reconcile.Text.Grid
import Reconcile.Text.Invisible
import Reconcile.Text.Picture
import Reconcile.Text.Pieces
import Reconcile.Text.Quoted
import Reconcile.Timestamp
import Reconcile.Validation
import Reconcile.Value
import Reconcile.Yaml.Cursor
import Reconcile.Yaml.Document
import Reconcile.Yaml.Node
import Reconcile.Yaml.Plain
import Reconcile.Yaml.Scalar
import Reconcile.Yaml.Token
import Reconcile.Proofs.Order.Agenda
import Reconcile.Proofs.Dict
import Reconcile.Proofs.Order.Waiting
import Reconcile.Proofs.Order.Execution
import Reconcile.Proofs.ChangeId
import Reconcile.Proofs.Lists
import Reconcile.Proofs.Numbering
import Reconcile.Proofs.Listings
import Reconcile.Proofs.Ends
import Reconcile.Proofs.Drafting.Tasks
import Reconcile.Proofs.Drafting.Simulation
import Reconcile.Proofs.Identity
import Reconcile.Proofs.Links
import Reconcile.Proofs.PlainText
import Reconcile.Proofs.Resolution.Findings
import Reconcile.Proofs.Resolution.Changes
import Reconcile.Proofs.Resolution.Effects
import Reconcile.Proofs.Resolution.Foretelling
import Reconcile.Proofs.Resolution.Scalar
import Reconcile.Proofs.Resolution.Renaming
import Reconcile.Proofs.Drafting.Sketches
import Reconcile.Proofs.Pass.Stages
import Reconcile.Proofs.Pass.WellLinked
import Reconcile.Proofs.Accepted
import Reconcile.Proofs.Pass.Protection
import Reconcile.Proofs.Drafting.Outcomes
import Reconcile.Proofs.Drafting.Twins
import Reconcile.Proofs.Drafting.Modes
import Reconcile.Proofs.Pass.Matching
import Reconcile.Proofs.Pieces
import Reconcile.Proofs.Documents.Records
import Reconcile.Proofs.Documents.Values
import Reconcile.Proofs.Documents.RoundTrip
import Reconcile.Proofs.Pass.Pruning
import Reconcile.Proofs.Pass.Sync
import Reconcile.Proofs.Digest
import Reconcile.Proofs.Pass.Survival
import Reconcile.Proofs.Resolution.Faultless
import Reconcile.Proofs.Order.Agreement
import Reconcile.Proofs.Drafting.Issued
import Reconcile.Proofs.Drafting.Kinds
import Reconcile.Proofs.Shuffles
import Reconcile.Proofs.Resolution.Shuffles
import Reconcile.Proofs.Drafting.Creates
import Reconcile.Proofs.Order.Existence
import Reconcile.Proofs.Pass.Finishing
import Reconcile.Proofs.Pass.Registration
import Reconcile.Proofs.Order.Sequence
import Reconcile.Proofs.Listings.Transparency
import Reconcile.Proofs.Pass.Moves
import Reconcile.Proofs.Pass.Outages
import Reconcile.Proofs.Pass.PlanFaults
import Reconcile.Proofs.Order.Diagnosis
import Reconcile.Proofs.Drafting.Violations
import Reconcile.Proofs.Pass.Violations
import Reconcile.Proofs.Pass.Aims
import Reconcile.Proofs.Resolution.Origins
import Reconcile.Proofs.Pass.LooseEnds
import Reconcile.Proofs.Numbering.Passes
import Reconcile.Proofs.Order.Search
import Reconcile.Proofs.Order.Circles
import Reconcile.Proofs.Numbering.Result
import Reconcile.Proofs.Numbering.Faults
import Reconcile.Proofs.Numbering.Repositioning
import Reconcile.Proofs.Numbering.Composition
import Reconcile.Proofs.Order.Settled
import Reconcile.Proofs.Order.Renaming
import Reconcile.Proofs.Resolution.Steady
import Reconcile.Proofs.Resolution.Repetition
import Reconcile.Proofs.Resolution.Independence
import Reconcile.Proofs.Resolution.Moments
import Reconcile.Proofs.Resolution.Balance
import Reconcile.Proofs.Resolution.Parallel
import Reconcile.Proofs.Resolution.Answered
import Reconcile.Proofs.Resolution.Reading
import Reconcile.Proofs.Resolution.Ambiguity
import Reconcile.Proofs.DeleteLinks
import Reconcile.Proofs.Order.Blocking
import Reconcile.Proofs.Pass.Blocking
import Reconcile.Proofs.Comparison
import Reconcile.Proofs.Accessors
import Reconcile.Proofs.Creation
import Reconcile.Proofs.Pass.Mirroring
import Reconcile.Proofs.Documents.Rereading
import Reconcile.Proofs.Listings.Economy
import Reconcile.Proofs.Listings.Keys
import Reconcile.Proofs.Drafting.OwnLabels
import Reconcile.Proofs.Documents.States
import Reconcile.Proofs.Validation.Exact
import Reconcile.Proofs.ChangeId.Grammar
import Reconcile.Proofs.Change.Building
import Reconcile.Proofs.Identity.Filling
import Reconcile.Proofs.Scopes.Sharing
import Reconcile.Proofs.Order.Loop
import Reconcile.Proofs.Summary
import Reconcile.Proofs.Digest.Matching
import Reconcile.Proofs.FieldPaths
import Reconcile.Proofs.Accessors.Registrations
