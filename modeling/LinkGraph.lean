import LinkGraph.Main
import LinkGraph.Store.Faulty
import LinkGraph.Hook.Log
import LinkGraph.Wire.Tagged
import LinkGraph.Proofs.Store.Content
import LinkGraph.Proofs.Graph.Running
import LinkGraph.Proofs.Graph.Writing
import LinkGraph.Proofs.Graph.Cascade
import LinkGraph.Proofs.Store.Faithful
import LinkGraph.Proofs.Graph.Operation
import LinkGraph.Proofs.Graph.Transfer
import LinkGraph.Proofs.Graph.Index
import LinkGraph.Proofs.Graph.Moves
import LinkGraph.Proofs.Graph.Listing
import LinkGraph.Proofs.Graph.BackReferences
import LinkGraph.Proofs.Graph.Deletion
import LinkGraph.Proofs.Binary.RoundTrip
import LinkGraph.Proofs.Store.SortedBucket
import LinkGraph.Proofs.Store.Staging
import LinkGraph.Proofs.Store.Committing
import LinkGraph.Proofs.Store.Calls
import LinkGraph.Proofs.Store.Replay
import LinkGraph.Proofs.Store.Brackets
import LinkGraph.Proofs.Graph.Composed
import LinkGraph.Proofs.Graph.Journal
import LinkGraph.Proofs.Graph.Settling
import LinkGraph.Proofs.Graph.Atomicity
import LinkGraph.Proofs.Graph.Restoring
import LinkGraph.Proofs.Graph.Matching
import LinkGraph.Proofs.Graph.Merging
import LinkGraph.Proofs.Graph.Exporting
import LinkGraph.Proofs.Files.Path
import LinkGraph.Proofs.Files.Tree
import LinkGraph.Proofs.CommandLine.Saving
import LinkGraph.Proofs.Graph.Tethering
import LinkGraph.Proofs.Graph.Announcing
import LinkGraph.Proofs.Graph.Amending
import LinkGraph.Proofs.Graph.Lifetime
import LinkGraph.Proofs.Graph.Serials
import LinkGraph.Proofs.Graph.Attributes
import LinkGraph.Proofs.Graph.Commuting
import LinkGraph.Proofs.Session.Cursors
import LinkGraph.Proofs.Http.Refusing
import LinkGraph.Proofs.Http.Answering
import LinkGraph.Proofs.Graph.Telling
import LinkGraph.Proofs.Graph.Reporting
import LinkGraph.Proofs.Graph.Influence
import LinkGraph.Proofs.Store.TableFile
import LinkGraph.Proofs.Graph.Sturdy
import LinkGraph.Proofs.Files.Locating
import LinkGraph.Proofs.Files.Apart
import LinkGraph.Proofs.CommandLine.Lookups
import LinkGraph.Proofs.CommandLine.Keeping
import LinkGraph.Proofs.CommandLine.Performing
import LinkGraph.Proofs.CommandLine.Twins
import LinkGraph.Proofs.CommandLine.Backends
import LinkGraph.Proofs.Graph.Attempts
import LinkGraph.Proofs.Graph.Dissociating
import LinkGraph.Proofs.Graph.Linking
import LinkGraph.Proofs.Graph.Unfolding
import LinkGraph.Proofs.Graph.Dependents
import LinkGraph.Proofs.Graph.Naming
import LinkGraph.Proofs.Http.Admitting
import LinkGraph.Proofs.Graph.Associating
import LinkGraph.Proofs.Binary.Truncation
import LinkGraph.Proofs.Graph.Importing
import LinkGraph.Proofs.Binary.Separable
import LinkGraph.Proofs.Double.Nearest
import LinkGraph.Proofs.Entity.Etag
import LinkGraph.Proofs.Json.Numbers
import LinkGraph.Proofs.Text.Base64
import LinkGraph.Proofs.Wire.Reading
import LinkGraph.Proofs.Wire.Tagged
import LinkGraph.Proofs.Text.Lossy
import LinkGraph.Proofs.Decimal.Numeral
import LinkGraph.Proofs.Wire.Decoding
import LinkGraph.Proofs.Wire.Storing
import LinkGraph.Proofs.Store.AllOrNothing
import LinkGraph.Proofs.Graph.Handing
import LinkGraph.Proofs.Binary.Backing
import LinkGraph.Proofs.Double.Interval
import LinkGraph.Proofs.Double.Shortest
import LinkGraph.Proofs.Decimal.Written
import LinkGraph.Proofs.Double.Layout
import LinkGraph.Proofs.Wire.Doubles
