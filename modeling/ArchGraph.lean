import ArchGraph.Analysis
import ArchGraph.CommandLine.Run
import ArchGraph.Main
import ArchGraph.Proofs.CommandLine.Directories
import ArchGraph.Proofs.Corpus.Keys
import ArchGraph.Proofs.Corpus.Removal
import ArchGraph.Proofs.Discovery.Attribution
import ArchGraph.Proofs.Discovery.Backing
import ArchGraph.Proofs.Discovery.Buckets
import ArchGraph.Proofs.Discovery.Comments
import ArchGraph.Proofs.Discovery.Containment
import ArchGraph.Proofs.Discovery.Crates
import ArchGraph.Proofs.Discovery.DataAccess
import ArchGraph.Proofs.Discovery.ExportLists
import ArchGraph.Proofs.Discovery.Flow
import ArchGraph.Proofs.Discovery.Integrity
import ArchGraph.Proofs.Discovery.Isolation
import ArchGraph.Proofs.Discovery.KeyLines
import ArchGraph.Proofs.Discovery.Layouts
import ArchGraph.Proofs.Discovery.Ledger
import ArchGraph.Proofs.Discovery.LocalHosts
import ArchGraph.Proofs.Discovery.Lookahead
import ArchGraph.Proofs.Discovery.Malformed
import ArchGraph.Proofs.Discovery.Members
import ArchGraph.Proofs.Discovery.Orders
import ArchGraph.Proofs.Discovery.Quotation
import ArchGraph.Proofs.Discovery.Repetition
import ArchGraph.Proofs.Discovery.Resolution
import ArchGraph.Proofs.Discovery.Siblings
import ArchGraph.Proofs.Discovery.Skipped
import ArchGraph.Proofs.Discovery.Slicing
import ArchGraph.Proofs.Discovery.Targets
import ArchGraph.Proofs.Discovery.Tracing
import ArchGraph.Proofs.Discovery.UsersReference
import ArchGraph.Proofs.Graph.Balance
import ArchGraph.Proofs.Graph.Batch
import ArchGraph.Proofs.Graph.Deepest
import ArchGraph.Proofs.Graph.History
import ArchGraph.Proofs.Graph.Separation
import ArchGraph.Proofs.Route.Contested
import ArchGraph.Proofs.Route.Fit
import ArchGraph.Proofs.Route.Optimum
import ArchGraph.Proofs.Route.Relocation
import ArchGraph.Proofs.Route.Settled
import ArchGraph.Proofs.Route.Specificity
import ArchGraph.Proofs.Settings.Precedence
import ArchGraph.Proofs.Sql.Brackets
import ArchGraph.Proofs.Sql.Literals
import ArchGraph.Proofs.Sql.Rearrangement
import ArchGraph.Proofs.Sql.Retention
