import Mathlib.Tactic
import Messi.Header
import Messi.Os

/-!
# The state of the Linux client

`templates/linux/client.h`. As for the server, `log` is the trace of the system calls, the callbacks
and the calls of the user, newest first; what the client has received and handled on a connection is
read off it, from the last `on_connected` on.
-/

namespace Messi.LinuxClient

/-- `enum NAME_client_input_state_t`. -/
inductive InputState where
  | header
  | payload
  deriving DecidableEq

/-- `self_p->input.encoded`; its buffer is `Client.inputBuf`. -/
structure Input where
  state : InputState
  dataSize : ℕ
  size : ℕ
  left : ℕ

/-- What the client opens. -/
inductive Descriptor where
  | socket
  | keepAliveTimer
  | reconnectTimer
  deriving DecidableEq

inductive Callback where
  | onConnected
  | onMessage
  | onDisconnected
  deriving DecidableEq

/-- What an observer of the client sees. -/
inductive Event where
  /-- `socket()` or `timerfd_create()` returned a descriptor. -/
  | opened (what : Descriptor) (fd : ℤ)
  | closed (fd : ℤ)
  | epollCtl (op : EpollOp) (fd : ℤ) (ok : Bool)
  | settime (fd : ℤ) (ok : Bool)
  /-- `read()` of a timer. -/
  | readTimer (fd : ℤ) (ok : Bool)
  /-- `read()` of at most `want` bytes to `offset` in the input buffer, and the bytes it gave. -/
  | read (fd : ℤ) (offset want : ℕ) (bs : List UInt8)
  /-- `write()` of a message, and how many bytes of its frame it accepted. -/
  | write (fd : ℤ) (m : Message) (accepted : ℕ)
  /-- The size of a message is rejected. -/
  | tooBig
  | handleMessage (m : Message)
  /-- There is no memory for a message. -/
  | newFailed
  /-- A payload is handed to `NAME_server_to_client_decode()`. -/
  | decode (payload : List UInt8)
  /-- A user message has been decoded, and `on_message` is called. -/
  | onMessage (payload : List UInt8)
  /-- `on_connected` is called; what `pending_disconnect` is then. -/
  | onConnected (fd : ℤ) (pending : Bool)
  /-- `on_disconnected`, with the value of `server_fd`. -/
  | onDisconnected (reason : DisconnectReason) (serverFd : ℤ)
  /-- A callback has returned; what `pending_disconnect` is then. -/
  | returned (callback : Callback) (pending : Bool)
  /-- `start_reconnect_timer()` has returned; whether all its system calls succeeded. -/
  | reconnectTimer (ok : Bool)
  /-- `NAME_client_start()` is called. -/
  | start
  /-- `NAME_client_stop()` has returned. -/
  | stop
  /-- `NAME_client_send()` is called; what the state is before. -/
  | send (serverFd : ℤ) (pending : Bool)
  /-- `NAME_client_process()` is called; what the state is before. -/
  | process (fd serverFd keepAliveTimerFd : ℤ) (pending : Bool)
  deriving DecidableEq

/-- `struct NAME_client_t`, and its input buffer. -/
structure Client where
  disconnectReason : DisconnectReason
  serverFd : ℤ
  keepAliveTimerFd : ℤ
  reconnectTimerFd : ℤ
  pongReceived : Bool
  pendingDisconnect : Bool
  input : Input
  inputBuf : ℕ → UInt8
  /-- `output.encoded.size` -/
  encodedSize : ℕ
  log : List Event

@[simps] def Client.emit (s : Client) (e : Event) : Client := { s with log := e :: s.log }

/-! ## What the log says -/

/-- The descriptors that have been opened and not closed. -/
def openFds : List Event → List ℤ
  | [] => []
  | .opened _ fd :: l => fd :: openFds l
  | .closed fd :: l => (openFds l).erase fd
  | _ :: l => openFds l

/-- The bytes received on the last connection. -/
def received : List Event → List UInt8
  | [] => []
  | .onConnected .. :: _ => []
  | .read _ _ _ bs :: l => received l ++ bs
  | _ :: l => received l

/-- The messages handled on the last connection. -/
def handled : List Event → List Message
  | [] => []
  | .onConnected .. :: _ => []
  | .handleMessage m :: l => handled l ++ [m]
  | _ :: l => handled l

/-- The payloads decoded on the last connection. -/
def decoded : List Event → List (List UInt8)
  | [] => []
  | .onConnected .. :: _ => []
  | .decode payload :: l => decoded l ++ [payload]
  | _ :: l => decoded l

/-- What the callbacks say about the connection: there is none, or there is one with this socket. -/
inductive Link where
  | down
  | up (fd : ℤ)
  deriving DecidableEq

/-- What the callbacks have said last, or `none` if `on_connected` was called for a client that was
connected, or `on_disconnected` for one that was not, or with a socket that was not closed. -/
def link : List Event → Option Link
  | [] => some .down
  | .onConnected fd _ :: l => if link l = some .down then some (.up fd) else none
  | .onDisconnected _ serverFd :: l =>
    match link l with
    | some (.up fd) => if fd ∉ openFds l ∧ serverFd = -1 then some .down else none
    | _ => none
  | _ :: l => link l

end Messi.LinuxClient
