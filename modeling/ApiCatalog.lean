import ApiCatalog.Main
import ApiCatalog.Proofs.Document.Mentions
import ApiCatalog.Proofs.Resolution.Growth
import ApiCatalog.Proofs.Resolution.Parts
import ApiCatalog.Proofs.Resolution.Order
import ApiCatalog.Proofs.Resolution.Promises
import ApiCatalog.Proofs.Resolution.Refusals
import ApiCatalog.Proofs.Resolution.Repetition
import ApiCatalog.Proofs.Resolution.Reports
import ApiCatalog.Proofs.Extraction.Invariant
import ApiCatalog.Proofs.Extraction.References
import ApiCatalog.Proofs.Graph.Basic
import ApiCatalog.Proofs.Graph.Components
import ApiCatalog.Proofs.Graph.Cycles
import ApiCatalog.Proofs.Analysis.References
import ApiCatalog.Proofs.Translation.Basic
import ApiCatalog.Proofs.Translation.Laws
import ApiCatalog.Proofs.Resolution.Outcome
import ApiCatalog.Proofs.Translation.Tracking
import ApiCatalog.Proofs.Translation.Simulation
import ApiCatalog.Proofs.Translation.Components
import ApiCatalog.Proofs.Translation.Acyclic
import ApiCatalog.Proofs.Translation.Orders
import ApiCatalog.Proofs.Document.Declarations
import ApiCatalog.Proofs.Extraction.Growth
import ApiCatalog.Proofs.PathIndex.Branches
import ApiCatalog.Proofs.PathIndex.Contents
import ApiCatalog.Proofs.PathIndex.Preorder
import ApiCatalog.Proofs.Resolution.Denotations
import ApiCatalog.Proofs.Extraction.Endpoints
import ApiCatalog.Proofs.Extraction.Bindings
import ApiCatalog.Proofs.Analysis.Bindings
import ApiCatalog.Proofs.Resolution.Reservations
import ApiCatalog.Proofs.Analysis.Components
import ApiCatalog.Proofs.Analysis.Dangling
import ApiCatalog.Proofs.Extraction.Cancellation
import ApiCatalog.Proofs.Analysis.Cancellation
import ApiCatalog.Proofs.Document.Aliases
import ApiCatalog.Proofs.Resolution.Calls
import ApiCatalog.Proofs.Resolution.Progress
import ApiCatalog.Proofs.Resolution.Nesting
import ApiCatalog.Proofs.Resolution.Causes
import ApiCatalog.Proofs.Resolution.Sessions
import ApiCatalog.Proofs.Resolution.Origins
import ApiCatalog.Proofs.Resolution.Entrances
import ApiCatalog.Proofs.PathIndex.Shape
import ApiCatalog.Proofs.Extraction.Outcomes
import ApiCatalog.Proofs.Extraction.Templates
import ApiCatalog.Proofs.Extraction.Indexing
import ApiCatalog.Proofs.Resolution.Encounters
import ApiCatalog.Proofs.Extraction.Locality
import ApiCatalog.Proofs.Extraction.Lookups
import ApiCatalog.Proofs.Extraction.Visits
import ApiCatalog.Proofs.Resolution.Limits
import ApiCatalog.Proofs.Resolution.Complaints
import ApiCatalog.Proofs.PathIndex.Growth
import ApiCatalog.Proofs.PathIndex.Persistence
import ApiCatalog.Proofs.Extraction.Segments
import ApiCatalog.Proofs.Extraction.Turns
import ApiCatalog.Proofs.Extraction.Complaints
import ApiCatalog.Proofs.Extraction.Concerns
import ApiCatalog.Proofs.Extraction.Completion
import ApiCatalog.Proofs.Extraction.Limits
import ApiCatalog.Proofs.Analysis.Lookups
import ApiCatalog.Proofs.Extraction.Recording
import ApiCatalog.Proofs.Analysis.Limits
import ApiCatalog.Proofs.Analysis.Primitives
import ApiCatalog.Proofs.Analysis.Methods
import ApiCatalog.Proofs.Analysis.Responses
import ApiCatalog.Proofs.Analysis.PathParameters
import ApiCatalog.Proofs.Extraction.ParameterNodes
import ApiCatalog.Proofs.Analysis.ParameterNodes
import ApiCatalog.Proofs.Resolution.Compositions
import ApiCatalog.Proofs.Resolution.Facets
import ApiCatalog.Proofs.Resolution.Interruptions
import ApiCatalog.Proofs.Http.StatusKeys
import ApiCatalog.Proofs.Http.Words
import ApiCatalog.Proofs.Http.SchemaNames
import ApiCatalog.Proofs.Resolution.FacetNames
import ApiCatalog.Proofs.Resolution.Relations
import ApiCatalog.Proofs.Extraction.Relations
import ApiCatalog.Proofs.PathIndex.Tidy
import ApiCatalog.Proofs.Extraction.Refusals
import ApiCatalog.Proofs.Document.Entries
import ApiCatalog.Proofs.Extraction.Omissions
import ApiCatalog.Proofs.Analysis.Rejections
import ApiCatalog.Proofs.Model.Registrations
import ApiCatalog.Proofs.Resolution.NameSpaces
import ApiCatalog.Proofs.Resolution.Items
import ApiCatalog.Proofs.Resolution.Moments
import ApiCatalog.Proofs.Resolution.WellFormedness
import ApiCatalog.Proofs.Analysis.Items
import ApiCatalog.Proofs.Report.Endpoints
import ApiCatalog.Proofs.Report.Paths
import ApiCatalog.Proofs.Analysis.Statistics
