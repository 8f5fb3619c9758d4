import Parcel.Batch.Queue
import Parcel.Journal.Metrics
import Parcel.Journal.Trace
import Parcel.Memory.Budget
import Parcel.Wire.Manifest
import Parcel.Wire.Record.RoundTrip
import Parcel.Proofs.Bytes
import Parcel.Proofs.PackerStep
import Parcel.Proofs.PackerRun
import Parcel.Proofs.Reading
import Parcel.Proofs.Fitting
import Parcel.Proofs.PackerPlain
import Parcel.Proofs.PackerRoundTrip
import Parcel.Proofs.PackerAtomic
import Parcel.Proofs.PackerGuarded
import Parcel.Proofs.Placement
import Parcel.Proofs.QueueRoundTrip
import Parcel.Proofs.WireRoundTrip
import Parcel.Proofs.Transport
import Parcel.Proofs.FrameStream
import Parcel.Proofs.PackerLayout
import Parcel.Proofs.BudgetRun
import Parcel.Proofs.BudgetCap
import Parcel.Proofs.PixelBounds
import Parcel.Proofs.QueueHarmless
import Parcel.Proofs.QueueWellFormed
import Parcel.Proofs.PackerWritable
import Parcel.Proofs.QueueJustified
import Parcel.Proofs.FrameIncremental
import Parcel.Proofs.WireNormal
import Parcel.Proofs.PackerPair
import Parcel.Proofs.PackerIndependent
import Parcel.Proofs.PixelCoverage
import Parcel.Proofs.AllocatorLog
import Parcel.Proofs.PackerDensity
import Parcel.Proofs.PackerBalance
import Parcel.Proofs.QueueBalance
import Parcel.Proofs.QueueBlind
import Parcel.Proofs.PageRounding
import Parcel.Proofs.SharedCoherence
import Parcel.Proofs.Values
import Parcel.Proofs.TraceHistory
