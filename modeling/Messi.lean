import Messi.Base.PointerList
import Messi.Base.ByteMemory
import Messi.Base.Framing
import Messi.Base.Exec
import Messi.Header
import Messi.Os
import Messi.LinuxServer.Api
import Messi.LinuxServer.Lists
import Messi.LinuxServer.Log
import Messi.LinuxServer.Invariant
import Messi.LinuxServer.Connections
import Messi.LinuxServer.Sending
import Messi.LinuxServer.Receiving
import Messi.LinuxServer.Growth
import Messi.LinuxServer.Runs
import Messi.LinuxServer.Slots
import Messi.LinuxServer.Streams
import Messi.LinuxServer.Loss
import Messi.LinuxServer.Broadcast
import Messi.LinuxServer.Items
import Messi.LinuxServer.Restart
import Messi.LinuxClient.Model
import Messi.LinuxClient.Steps
import Messi.LinuxClient.Receiving
import Messi.LinuxClient.InputBuffer
import Messi.LinuxClient.Descriptors
import Messi.LinuxClient.Outgoing
import Messi.LinuxClient.Stopping
import Messi.LinuxClient.Timers
import Messi.LinuxClient.Lifecycle
import Messi.LinuxServer.Rules
import Messi.LinuxServer.Descriptors
import Messi.LinuxServer.Interest
import Messi.LinuxServer.AllOrNothing
import Messi.LinuxServer.Alongside
import Messi.LinuxServer.WakeUp
import Messi.PyClient.Model
import Messi.PyClient.Stopping
import Messi.AsyncClient.Model
import Messi.AsyncClient.Rules
import Messi.AsyncClient.Stopping
import Messi.AsyncClient.Phases
import Messi.AsyncClient.Receiving
import Messi.AsyncClient.KeepAlive
import Messi.Connection.Parties
import Messi.LinuxServer.Pongs
import Messi.Connection.Delivery
import Messi.LinuxClient.Moves
import Messi.LinuxClient.KeepAlive
import Messi.Connection.KeepAlive
import Messi.AsyncServer.InputBuffer
import Messi.AsyncServer.Pongs
import Messi.Agreement.Servers
import Messi.Agreement.Headers
import Messi.Base.Utf8
import Messi.Base.StrFormat
import Messi.Base.Substitution
import Messi.Generator
import Messi.Agreement.Uris
import Messi.Deliveries
import Messi.Agreement.Clients
import Messi.PyClient.Connections
import Messi.PyClient.Lifecycle
import Messi.Connection.Link
import Messi.Connection.Heartbeat
