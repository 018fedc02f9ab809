import Phrasebook.Address
import Phrasebook.Catalogue.Basic
import Phrasebook.Catalogue.Checking
import Phrasebook.Catalogue.Fault
import Phrasebook.Catalogue.Search
import Phrasebook.Decimal.Double
import Phrasebook.Decimal.Magnitude
import Phrasebook.Decimal.Shortest
import Phrasebook.Document.Basic
import Phrasebook.Document.Draft
import Phrasebook.Entry
import Phrasebook.Error
import Phrasebook.File.Disk
import Phrasebook.File.Folder
import Phrasebook.File.Format
import Phrasebook.File.Path
import Phrasebook.Inspection.Arguments
import Phrasebook.Inspection.CommandLine
import Phrasebook.Inspection.Run
import Phrasebook.Json.Number
import Phrasebook.Json.Reading
import Phrasebook.Json.Token
import Phrasebook.Json.Writing
import Phrasebook.Locale.Basic
import Phrasebook.Locale.Reading
import Phrasebook.Locale.Subtag
import Phrasebook.Main
import Phrasebook.Ordered
import Phrasebook.Proofs.Address.Grammar
import Phrasebook.Proofs.Address.Rereading
import Phrasebook.Proofs.Address.Spelling
import Phrasebook.Proofs.Catalogue.Checking
import Phrasebook.Proofs.Catalogue.CompleteListing
import Phrasebook.Proofs.Catalogue.Correspondence
import Phrasebook.Proofs.Catalogue.Drafts
import Phrasebook.Proofs.Catalogue.Following
import Phrasebook.Proofs.Catalogue.Guarantees
import Phrasebook.Proofs.Catalogue.Holding
import Phrasebook.Proofs.Catalogue.IndexedLookup
import Phrasebook.Proofs.Catalogue.Listing
import Phrasebook.Proofs.Catalogue.ListingOrder
import Phrasebook.Proofs.Catalogue.Misses
import Phrasebook.Proofs.Catalogue.Overlay
import Phrasebook.Proofs.Catalogue.Reordering
import Phrasebook.Proofs.Catalogue.Similar
import Phrasebook.Proofs.Catalogue.Validation
import Phrasebook.Proofs.Catalogue.WellFormed
import Phrasebook.Proofs.Decimal.Characters
import Phrasebook.Proofs.Document.Reordering
import Phrasebook.Proofs.Document.Validity
import Phrasebook.Proofs.File.Loading
import Phrasebook.Proofs.File.Naming
import Phrasebook.Proofs.File.Source
import Phrasebook.Proofs.Inspection.Overriding
import Phrasebook.Proofs.Locale.Canonical
import Phrasebook.Proofs.Locale.Folding
import Phrasebook.Proofs.Locale.Identity
import Phrasebook.Proofs.Locale.Rereading
import Phrasebook.Proofs.Locale.Respelling
import Phrasebook.Proofs.Ordered
import Phrasebook.Proofs.Outcome
import Phrasebook.Proofs.Registry.CoveragePartition
import Phrasebook.Proofs.Registry.FurtherStep
import Phrasebook.Proofs.Registry.Growth
import Phrasebook.Proofs.Registry.ListedPaths
import Phrasebook.Proofs.Registry.Reachable
import Phrasebook.Proofs.Registry.TruthfulCoverage
import Phrasebook.Proofs.Related
import Phrasebook.Proofs.Session.Calls
import Phrasebook.Proofs.Session.Changes
import Phrasebook.Proofs.Session.Completion
import Phrasebook.Proofs.Session.Configuration
import Phrasebook.Proofs.Session.Deliveries
import Phrasebook.Proofs.Session.FailedBuild
import Phrasebook.Proofs.Session.Handles
import Phrasebook.Proofs.Session.History
import Phrasebook.Proofs.Session.Initialized
import Phrasebook.Proofs.Session.Moments
import Phrasebook.Proofs.Session.Reaching
import Phrasebook.Proofs.Session.Reentrancy
import Phrasebook.Proofs.Session.Repetition
import Phrasebook.Proofs.Session.Rounds
import Phrasebook.Proofs.Session.Starting
import Phrasebook.Proofs.Session.Subscriptions
import Phrasebook.Proofs.Template.Decomposition
import Phrasebook.Proofs.Template.Escaping
import Phrasebook.Proofs.Template.Placeholders
import Phrasebook.Proofs.Text.Case
import Phrasebook.Proofs.Text.Pieces
import Phrasebook.Proofs.Translator.Failures
import Phrasebook.Proofs.Translator.Parts
import Phrasebook.Registry.Basic
import Phrasebook.Registry.Coverage
import Phrasebook.Selector
import Phrasebook.Session.Basic
import Phrasebook.Session.Description
import Phrasebook.Session.Step
import Phrasebook.Settings.Basic
import Phrasebook.Settings.File
import Phrasebook.Settings.Plan
import Phrasebook.Settings.Variable
import Phrasebook.Template.Argument
import Phrasebook.Template.Rendering
import Phrasebook.Template.Token
import Phrasebook.Text.Blank
import Phrasebook.Text.Numeral
import Phrasebook.Text.Quoted
import Phrasebook.Toml.Dialect
import Phrasebook.Toml.Moment
import Phrasebook.Toml.Reading
import Phrasebook.Toml.Scalar
import Phrasebook.Toml.Table
import Phrasebook.Toml.Token
import Phrasebook.Toml.Value
import Phrasebook.Translator
