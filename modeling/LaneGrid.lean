import LaneGrid.Dispatch
import LaneGrid.Samples
import LaneGrid.Scan.Sequential
import LaneGrid.Scan.Operator
import LaneGrid.Scan.Session
import LaneGrid.Histogram.Call
import LaneGrid.Histogram.Machine
import LaneGrid.Histogram.MachineKernels
import LaneGrid.Histogram.MachineCall
import LaneGrid.Proofs.Histogram.Tiling
import LaneGrid.Proofs.Histogram.BlockCounts
import LaneGrid.Proofs.Histogram.Launches
import LaneGrid.Proofs.Histogram.Acceptance
import LaneGrid.Proofs.Histogram.Counts
import LaneGrid.Proofs.Histogram.Strategies
import LaneGrid.Proofs.Scan.Run
import LaneGrid.Proofs.Scan.Transport
import LaneGrid.Proofs.Scan.Lanes
import LaneGrid.Proofs.Scan.Groups
import LaneGrid.Proofs.Scan.Words
import LaneGrid.Proofs.Scan.Associative
import LaneGrid.Proofs.Scan.Order
import LaneGrid.Proofs.Histogram.Schedules
import LaneGrid.Proofs.Scan.Blocked
import LaneGrid.Histogram.History
import LaneGrid.Proofs.Histogram.History
import LaneGrid.Proofs.Samples
import LaneGrid.Proofs.Histogram.Channels
import LaneGrid.Proofs.Checks
import LaneGrid.Proofs.Histogram.Regions
import LaneGrid.Proofs.Histogram.Bounds
import LaneGrid.Proofs.Histogram.Conditions
import LaneGrid.Proofs.Scan.Slots
import LaneGrid.Proofs.Scan.Phases
import LaneGrid.Proofs.Scan.Sessions
import LaneGrid.Proofs.Bins.Ranges
import LaneGrid.Proofs.Bins.FloatOrder
import LaneGrid.Proofs.Histogram.Conservation
import LaneGrid.Proofs.Bins.Lookup
import LaneGrid.Proofs.Bins.Widths
import LaneGrid.Proofs.Bins.Agreement
import LaneGrid.Proofs.Scan.Balanced
import LaneGrid.Proofs.Scan.Shapes
import LaneGrid.Proofs.Histogram.Verbosity
import LaneGrid.Proofs.Histogram.MachineKernels
import LaneGrid.Proofs.Histogram.MachineCall
import LaneGrid.Proofs.Histogram.Reads
import LaneGrid.Proofs.Histogram.Sizes
import LaneGrid.Proofs.Histogram.BlockEffect
