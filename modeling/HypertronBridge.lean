import HypertronBridge.GateLaw
import HypertronBridge.Runtime.Zeroing
import HypertronBridge.Runtime.Links
import HypertronBridge.Runtime.Estop
import HypertronBridge.Runtime.Confirmation
import HypertronBridge.Runtime.LinkDrop
import HypertronBridge.Runtime.Shutdown
import HypertronBridge.Adapter.Snapshot
import HypertronBridge.Runtime.SystemError
import HypertronBridge.Node.LinkState
import HypertronBridge.Node.Pose
import HypertronBridge.Adapter.State
import HypertronBridge.Adapter.Step
import HypertronBridge.Adapter.Frames
import HypertronBridge.Adapter.Lifecycle
import HypertronBridge.Adapter.Deinit
import HypertronBridge.Adapter.Generation
import HypertronBridge.Adapter.Protocol
import HypertronBridge.Adapter.Reentry
import HypertronBridge.Lib.Blocks
import HypertronBridge.Lidar.Assembler
import HypertronBridge.Lidar.Slots
import HypertronBridge.Lidar.Reassembly
import HypertronBridge.Lib.Checked
import HypertronBridge.Node.ClockMapper
import HypertronBridge.Adapter.Rollback
import HypertronBridge.Lib.Binary64
import HypertronBridge.Lib.Bytes
import HypertronBridge.Lidar.Completion
import HypertronBridge.Lidar.Duplicates
import HypertronBridge.Lidar.Format
import HypertronBridge.Lidar.Isolation
import HypertronBridge.Node.Configuration
import HypertronBridge.Node.SensorTime
import HypertronBridge.Runtime.ModeRequest
import HypertronBridge.Lib.Holders
import HypertronBridge.Lib.LeadsTo
import HypertronBridge.Lib.Reading
import HypertronBridge.Lib.Words
import HypertronBridge.Lidar.Buffer
import HypertronBridge.Lidar.Calibration
import HypertronBridge.Lidar.Counters
import HypertronBridge.Lidar.Coverage
import HypertronBridge.Lidar.Receiver
import HypertronBridge.Lidar.Silence
import HypertronBridge.Preflight.Capture
import HypertronBridge.Preflight.Check
import HypertronBridge.Preflight.Command
import HypertronBridge.Preflight.Deadline
import HypertronBridge.Preflight.Descriptors
import HypertronBridge.Preflight.Drain
import HypertronBridge.QueueClients
import HypertronBridge.Lidar.Delivery
import HypertronBridge.Lidar.OdometryFormat
import HypertronBridge.Node.Budget
import HypertronBridge.Node.Commands
import HypertronBridge.Node.LidarOdometry
import HypertronBridge.Node.Services
import HypertronBridge.Node.StopRequests
import HypertronBridge.Runtime.Deadman
import HypertronBridge.Runtime.Ledger
import HypertronBridge.Runtime.Recovery
import HypertronBridge.Runtime.Response
import HypertronBridge.Runtime.Termination
import HypertronBridge.Lidar.CoverageReport
import HypertronBridge.Node.Telemetry
