import Gazetteer.Keyed
import Gazetteer.Settings.Stored
import Gazetteer.Spatial
import Gazetteer.Proofs.Disk.Whole
import Gazetteer.Proofs.Page.Contents
import Gazetteer.Proofs.Pool.Updates
import Gazetteer.Proofs.Pool.Flush
import Gazetteer.Proofs.Chain.Append
import Gazetteer.Proofs.Chain.Records
import Gazetteer.Proofs.Chain.Intact
import Gazetteer.Proofs.Keyed.Map
import Gazetteer.Proofs.Chain.Collect
import Gazetteer.Proofs.Spatial.Search
import Gazetteer.Proofs.Hilbert.Quadrants
import Gazetteer.Proofs.Hilbert.Words
import Gazetteer.Proofs.Hilbert.Squares
import Gazetteer.Proofs.Placement.Marking
import Gazetteer.Proofs.Chain.Failure
import Gazetteer.Proofs.Chain.Overflow
import Gazetteer.Proofs.Chain.Acyclic
import Gazetteer.Proofs.Chain.Agreement
import Gazetteer.Proofs.Pool.Twins
import Gazetteer.Proofs.Shared.Calls
import Gazetteer.Proofs.Shared.Transparent
import Gazetteer.Proofs.Bytes.Faithful
import Gazetteer.Proofs.Keyed.Snapshot
import Gazetteer.Proofs.Shared.Durable
import Gazetteer.Proofs.Hilbert.Neighbours
import Gazetteer.Proofs.Placement.Pieces
import Gazetteer.Proofs.Chain.Growth
import Gazetteer.Proofs.Placement.Meridian
import Gazetteer.Proofs.Chain.FirstFit
import Gazetteer.Proofs.Page.Edits
import Gazetteer.Proofs.Placement.PlainScan
import Gazetteer.Proofs.Pool.Resume
import Gazetteer.Proofs.Keyed.Import
import Gazetteer.Proofs.Grid.Translation
import Gazetteer.Proofs.Grid.Bisection
import Gazetteer.Proofs.Grid.Text
import Gazetteer.Proofs.Disk.Torn
import Gazetteer.Proofs.Page.Hostile
import Gazetteer.Proofs.Placement.CurveWords
import Gazetteer.Proofs.Placement.Words
import Gazetteer.Proofs.Settings.Lossless
import Gazetteer.Proofs.Hilbert.Stretches
import Gazetteer.Proofs.Chain.Walkers
import Gazetteer.Proofs.Spatial.Costs
import Gazetteer.Proofs.PageList.Orders
import Gazetteer.Proofs.PageList.Runs
import Gazetteer.Proofs.Pool.Bookkeeping
