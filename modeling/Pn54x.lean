import Pn54x.Library.Framing
import Pn54x.Library.Runs
import Pn54x.Library.Monitor
import Pn54x.Library.Reentrant
import Pn54x.Library.Linking
import Pn54x.Library.Progress
import Pn54x.Library.Stopping
import Pn54x.Library.Simulation
import Pn54x.Io.Object
import Pn54x.Io.Operations
import Pn54x.Io.Dispatch
import Pn54x.Io.Outcomes
import Pn54x.Io.Endings
import Pn54x.Io.Calls
import Pn54x.Io.Packets
import Pn54x.Io.ReadLoop
import Pn54x.Io.Handle
import Pn54x.Io.Framed
import Pn54x.Io.Steps
import Pn54x.Io.Sessions
import Pn54x.Io.Sources
import Pn54x.Io.Quiescence
import Pn54x.Io.Reader
import Pn54x.Io.Moments
import Pn54x.Io.Coherence
import Pn54x.Io.Completion
import Pn54x.Io.Descriptors
import Pn54x.Io.Closes
import Pn54x.Io.Delivery
import Pn54x.Io.Halves
import Pn54x.Io.Forgetting
import Pn54x.Io.Outgoing
import Pn54x.Io.Hal
import Pn54x.Io.Faults
import Pn54x.Io.Hexdump
import Pn54x.Io.Brevity
import Pn54x.Adapter.Handlers
import Pn54x.Adapter.Steps
import Pn54x.Adapter.PowerOff
import Pn54x.Adapter.Guard
import Pn54x.Adapter.Chip
import Pn54x.Adapter.Accounting
import Pn54x.Adapter.Replies
import Pn54x.Adapter.Settling
import Pn54x.Adapter.Plugin
import Pn54x.Adapter.Reset
import Pn54x.Adapter.Powered
import Pn54x.Adapter.Protocol
import Pn54x.Adapter.Lifecycle
