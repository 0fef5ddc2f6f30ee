import Taktora.Can.Filter
import Taktora.J1939.Tp.Attribution
import Taktora.J1939.Tp.Ledger
import Taktora.J1939.Tp.Loss
import Taktora.J1939.Tp.Concurrent
import Taktora.Ethercat.Ticks
import Taktora.Gateway.Stopped
import Taktora.Executor.Atomicity
import Taktora.Executor.Integrity
import Taktora.Executor.Notices
import Taktora.Executor.Barrier
import Taktora.Executor.Lateness
import Taktora.Executor.GraphProgress
import Taktora.Stats.Histogram
import Taktora.Alloc.Partition
import Taktora.Alloc.Threads
import Taktora.Telemetry.Ring
import Taktora.Zenoh.Queries
import Taktora.Mqtt.Replay
import Taktora.Mqtt.Matching
import Taktora.Dlt.Accounting
import Taktora.Dlt.Order
import Taktora.Motion.Completion
import Taktora.Esi.Image
import Taktora.Netcfg.Watchdog
import Taktora.UiContract.Canonical
import Taktora.Ui.Pump
import Taktora.Core.Subscribers
import Taktora.J1939.Demux
import Taktora.Idl.Packing
import Taktora.Idl.Enums
import Taktora.Dlt.Levels
import Taktora.Transport.Reader
import Taktora.Ethercat.Slices
import Taktora.Netcfg.Gaps
import Taktora.Zenoh.Health
import Taktora.Ui.Names
import Taktora.Ui.RoundRobin
