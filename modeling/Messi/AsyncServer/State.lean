import Mathlib.Tactic
import Messi.Header
import Messi.Os

/-!
# The state of the async server

`templates/async/server.h`. A client slot is an index into the `clients_p` array. `connected` is
what the async framework holds: the slots that have a connection. `log` is the trace of the calls of
the framework and of the callbacks, newest first; what a connection has received and handled is read
off it, from the last `on_client_connected` of the slot on.
-/

namespace Messi.AsyncServer

/-- An index into `clients_p`. -/
abbrev Slot := ℕ

/-- `enum NAME_server_client_input_state_t`. -/
inductive InputState where
  | header
  | payload
  deriving DecidableEq

/-- `client_p->input`; `bufP` is the offset of the slice in `clients_input_bufs_p`. -/
structure Input where
  state : InputState
  bufP : ℕ
  dataSize : ℕ
  size : ℕ
  left : ℕ

/-- What an observer of the server sees. -/
inductive Event where
  | onClientConnected (c : Slot)
  | onClientDisconnected (c : Slot)
  /-- `async_stcp_server_client_read()` of at most `want` bytes to `offset` in the client's slice,
  and the bytes it gave. -/
  | read (c : Slot) (offset want : ℕ) (bs : List UInt8)
  /-- `async_stcp_server_client_write()` of a message. -/
  | write (c : Slot) (m : Message)
  /-- `async_timer_start()` of the client's keep alive timer. -/
  | timerStart (c : Slot)
  | handleMessage (c : Slot) (m : Message)
  /-- There is no memory for a message. -/
  | newFailed (c : Slot)
  /-- `NAME_client_to_server_decode()` of a payload, and whether it decoded all of it. -/
  | decode (c : Slot) (payload : List UInt8) (ok : Bool)
  /-- A list traversal did not end. -/
  | outOfFuel
  deriving DecidableEq

/-- `struct NAME_server_t`, the client slots, and the memory they refer to. -/
structure Server where
  currentClientP : Option Slot
  /-- `clients.connected_list_p` -/
  connectedListP : Option Slot
  nextP : Slot → Option Slot
  /-- `output.encoded.size` -/
  encodedSize : ℕ
  input : Slot → Input
  /-- `clients_input_bufs_p` -/
  inputBufs : ℕ → UInt8
  /-- The number of slots, which the server itself does not store. -/
  clientsMax : ℕ
  /-- The `server_p` of the slot refers to this server. -/
  serverP : Slot → Bool
  /-- The `keep_alive_timer` of the slot has been initialised. -/
  keepAliveTimer : Slot → Bool
  /-- `on_client_connected` refers to a function. -/
  onClientConnected : Bool
  /-- `on_client_disconnected` refers to a function. -/
  onClientDisconnected : Bool
  connected : Slot → Bool
  log : List Event

namespace Server

/-- All that the callbacks of the slot dereference has been set. -/
def wired (s : Server) (c : Slot) : Bool :=
  s.serverP c && s.keepAliveTimer c && s.onClientConnected && s.onClientDisconnected

@[simps] def emit (s : Server) (e : Event) : Server := { s with log := e :: s.log }

@[simps] def setInput (s : Server) (c : Slot) (i : Input) : Server :=
  { s with input := Function.update s.input c i }

@[simps] def setCurrentClientP (s : Server) (c : Option Slot) : Server :=
  { s with currentClientP := c }

@[simps] def setConnected (s : Server) (c : Slot) (b : Bool) : Server :=
  { s with connected := Function.update s.connected c b }

end Server

/-! ## What the log says -/

/-- The bytes received on the last connection of `c`. -/
def received (c : Slot) : List Event → List UInt8
  | [] => []
  | .onClientConnected d :: l => if d = c then [] else received c l
  | .read d _ _ bs :: l => if d = c then received c l ++ bs else received c l
  | _ :: l => received c l

/-- The messages handled on the last connection of `c`. -/
def handled (c : Slot) : List Event → List Message
  | [] => []
  | .onClientConnected d :: l => if d = c then [] else handled c l
  | .handleMessage d m :: l => if d = c then handled c l ++ [m] else handled c l
  | _ :: l => handled c l

/-- The type of a message that the server knows. -/
def known (m : Message) : Bool :=
  m.1 = messageTypeClientToServerUser || m.1 = messageTypePing

/-- On the last connection of `c` there was a message of an unknown type, or one that could not be
decoded. -/
def refused (c : Slot) : List Event → Bool
  | [] => false
  | .onClientConnected d :: l => if d = c then false else refused c l
  | .handleMessage d m :: l => if d = c then refused c l || !known m else refused c l
  | .newFailed d :: l => if d = c then true else refused c l
  | .decode d _ ok :: l => if d = c then refused c l || !ok else refused c l
  | _ :: l => refused c l

end Messi.AsyncServer
