import Footprint.Exchange.Listing
import Footprint.Exchange.Operation
import Footprint.Main
import Footprint.Store.Session
import Footprint.Proofs.Refusal
import Footprint.Proofs.Rules.Figures
import Footprint.Proofs.Table
import Footprint.Proofs.Store.Reading
import Footprint.Proofs.Store.Update
import Footprint.Proofs.Exchange.Accepted
import Footprint.Proofs.Exchange.Reachable
import Footprint.Proofs.Trade.Pairing
import Footprint.Proofs.Trade.Transition
import Footprint.Proofs.Trade.Authority
import Footprint.Proofs.Figure.Change
import Footprint.Proofs.Trade.Progress
import Footprint.Proofs.Trade.Closed
import Footprint.Proofs.Figure.Coherence
import Footprint.Proofs.Part.Children
import Footprint.Proofs.Exchange.ReadBack
import Footprint.Proofs.Figure.Shown
import Footprint.Proofs.Part.Ownership
import Footprint.Proofs.Trade.Supplier
import Footprint.Proofs.Rules.Number
import Footprint.Proofs.Figure.Stored
import Footprint.Proofs.Figure.Submitted
import Footprint.Proofs.Trade.Delivery
import Footprint.Proofs.Part.Draft
import Footprint.Proofs.Part.Placement
import Footprint.Proofs.Exchange.Totals
import Footprint.Proofs.Part.Forest
import Footprint.Proofs.Exchange.Lineage
import Footprint.Proofs.Trade.Reference
import Footprint.Proofs.Exchange.Missing
import Footprint.Proofs.Trade.Listing
import Footprint.Proofs.Exchange.Canonical
import Footprint.Proofs.Listing.Walk
import Footprint.Proofs.Listing.Side
import Footprint.Proofs.Listing.Merged
import Footprint.Proofs.Listing.Interrupted
import Footprint.Proofs.Exchange.History
import Footprint.Proofs.Figure.Entered
import Footprint.Proofs.Figure.Register
import Footprint.Proofs.Store.Rollback
import Footprint.Proofs.Part.Storable
import Footprint.Proofs.Exchange.Refused
import Footprint.Proofs.Exchange.Estate
import Footprint.Proofs.Exchange.Isolation
import Footprint.Proofs.Trade.Rewritten
import Footprint.Proofs.Trade.Exact
import Footprint.Proofs.Trade.Overtaken
import Footprint.Proofs.Trade.Serial
import Footprint.Proofs.Store.Purged
import Footprint.Proofs.Exchange.Final
import Footprint.Proofs.Exchange.Renaming
import Footprint.Proofs.Exchange.Concealed
import Footprint.Proofs.Trade.Tree
import Footprint.Proofs.Figure.Put
import Footprint.Proofs.Exchange.Mirrored
import Footprint.Proofs.Exchange.Served
import Footprint.Proofs.Rules.Assembly
import Footprint.Proofs.Part.Ordered
import Footprint.Proofs.Part.Moves
import Footprint.Proofs.Store.Readings
import Footprint.Proofs.Part.Put
import Footprint.Proofs.Part.Echo
import Footprint.Proofs.Part.Removal
import Footprint.Proofs.Trade.Request
import Footprint.Proofs.Trade.Answer
import Footprint.Proofs.Decimal.Nearest
import Footprint.Proofs.Decimal.Shortest
import Footprint.Proofs.Rules.Legal
import Footprint.Proofs.Part.Legal
import Footprint.Proofs.Body.Codec
import Footprint.Proofs.Store.RoundTrip
import Footprint.Proofs.Exchange.Rows
