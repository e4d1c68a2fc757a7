import PrivateFootage.Main
import PrivateFootage.Noise.Accuracy
import PrivateFootage.Query
import PrivateFootage.Proofs.Decimation.Coverage
import PrivateFootage.Proofs.ExactArithmetic
import PrivateFootage.Proofs.Decimation.Words
import PrivateFootage.Proofs.Chunk.Cut
import PrivateFootage.Proofs.Privacy.Change
import PrivateFootage.Proofs.Outcome
import PrivateFootage.Proofs.Privacy.Params
import PrivateFootage.Proofs.Chunk.Span
import PrivateFootage.Proofs.Window.Contribution
import PrivateFootage.Proofs.Privacy.MaskedSum
import PrivateFootage.Proofs.Privacy.RegionSum
import PrivateFootage.Proofs.Privacy.MaskedMean
import PrivateFootage.Proofs.Chunk.Lockstep
import PrivateFootage.Proofs.Footage.Reading
import PrivateFootage.Proofs.Query.Accepted
import PrivateFootage.Proofs.Query.Compute
import PrivateFootage.Proofs.Query.Execution
import PrivateFootage.Proofs.Query.Windows
import PrivateFootage.Proofs.Json.Escape
import PrivateFootage.Proofs.Json.RoundTrip
import PrivateFootage.Proofs.Decimal.Digits
import PrivateFootage.Proofs.Json.Number
import PrivateFootage.Proofs.Json.Reading
import PrivateFootage.Proofs.Instant.Calendar
import PrivateFootage.Proofs.Instant.Text
import PrivateFootage.Proofs.Cache.Record
import PrivateFootage.Proofs.Cache.Key
import PrivateFootage.Proofs.Footage.Places
import PrivateFootage.Proofs.Query.Recording
import PrivateFootage.Proofs.Footage.Selection
import PrivateFootage.Proofs.Query.Memo
import PrivateFootage.Proofs.Cache.Map
import PrivateFootage.Proofs.Decimal.Layout
import PrivateFootage.Proofs.Decimal.Shortest
import PrivateFootage.Proofs.Decimal.Double
import PrivateFootage.Proofs.Track.Thresholds
import PrivateFootage.Proofs.Aggregator.Descriptor
import PrivateFootage.Proofs.Config.RoundTrip
import PrivateFootage.Proofs.Track.Lifecycle
import PrivateFootage.Proofs.Cache.Collision
import PrivateFootage.Proofs.Decimal.Reading
import PrivateFootage.Proofs.Decimal.Unpacked
import PrivateFootage.Proofs.Decimal.Rounding
import PrivateFootage.Proofs.Decimal.Arithmetic
import PrivateFootage.Proofs.Decimal.Nearest
import PrivateFootage.Proofs.Decimal.Order
import PrivateFootage.Proofs.Cache.Format
import PrivateFootage.Proofs.Greedy
import PrivateFootage.Proofs.KeyOrder
import PrivateFootage.Proofs.Track.Matching
import PrivateFootage.Proofs.Track.Conservation
import PrivateFootage.Proofs.Track.Coasting
import PrivateFootage.Proofs.Track.Following
import PrivateFootage.Proofs.Aggregator.Counting
import PrivateFootage.Proofs.Aggregator.Rising
import PrivateFootage.Proofs.Detection.Suppression
import PrivateFootage.Proofs.Detection.Lossless
import PrivateFootage.Proofs.Detection.Reordering
import PrivateFootage.Proofs.Window.Series
import PrivateFootage.Proofs.Window.Reference
import PrivateFootage.Proofs.Window.Range
import PrivateFootage.Proofs.Window.OwnBounds
import PrivateFootage.Proofs.Command.GivenBounds
import PrivateFootage.Proofs.Chunk.Lossless
import PrivateFootage.Proofs.Decimation.Nearest
import PrivateFootage.Proofs.Privacy.Calibration
import PrivateFootage.Proofs.Query.Calibration
import PrivateFootage.Proofs.Noise.Stream
import PrivateFootage.Proofs.Detection.Overlap
import PrivateFootage.Proofs.Query.WindowFrames
import PrivateFootage.Proofs.Decimal.ExactResults
import PrivateFootage.Proofs.RealArithmetic
import PrivateFootage.Proofs.Noise.Symmetry
