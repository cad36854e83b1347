import Mathlib.Tactic
import Messi.Header
import Messi.Os

/-!
# The state of the Linux server

`templates/linux/server.h`. A client slot is an index into the `clients_p` array; the fields of
`struct NAME_server_client_t` are functions of the slot. A client's output items are numbered in
the order in which they were allocated. `free()` of an item is an entry of the trace and nothing
else: a freed item keeps its content and its links, and its number is not given to another one.

`log` is the trace of the system calls, the callbacks and the sends, newest first. What a
connection has received, handled, been sent and accepted is read off it, from the last
`on_client_connected` of the slot on.
-/

namespace Messi.LinuxServer

/-- An index into `clients_p`. -/
abbrev Slot := ℕ

/-- `enum NAME_server_client_input_state_t`. -/
inductive InputState where
  | header
  | payload
  deriving DecidableEq

/-- `client_p->input`; `bufP` is the offset of the slice in `clients_input_bufs_p`. -/
structure Input where
  state : InputState
  bufP : ℕ
  dataSize : ℕ
  size : ℕ
  left : ℕ

/-- `struct NAME_server_client_output_item_t`. -/
structure OutputItem where
  offset : ℕ
  size : ℕ
  nextP : Option ℕ
  data : List UInt8

/-- `client_p->output`, with the items allocated for the client; `brk` is the next one. -/
structure Output where
  headP : Option ℕ
  tailP : Option ℕ
  items : ℕ → OutputItem
  brk : ℕ

/-- `self_p->clients`, with the link fields of the slots. -/
structure Clients where
  connectedListP : Option Slot
  freeListP : Option Slot
  pendingDisconnectListP : Option Slot
  inputBufferSize : ℕ
  nextP : Slot → Option Slot
  prevP : Slot → Option Slot

/-- What an observer of the server sees. -/
inductive Event where
  /-- `socket()`, `accept()` or `timerfd_create()` returned a descriptor. -/
  | opened (fd : ℤ)
  | closed (fd : ℤ)
  | epollCtl (op : EpollOp) (fd : ℤ) (events : Events) (ok : Bool)
  | settime (fd : ℤ) (ok : Bool)
  /-- `read()` of at most `want` bytes to `addr`, and the bytes it gave. -/
  | read (c : Slot) (fd : ℤ) (addr want : ℕ) (bs : List UInt8)
  /-- `write()`, and the bytes it accepted. -/
  | write (c : Slot) (fd : ℤ) (bs : List UInt8)
  | malloc (c : Slot) (item : Option ℕ)
  /-- An output item is read, or written to. -/
  | itemUse (c : Slot) (item : ℕ)
  | itemFree (c : Slot) (item : ℕ)
  /-- A message is to be written to a client. -/
  | frame (c : Slot) (m : Message)
  | handleMessage (c : Slot) (m : Message)
  /-- `handle_message()` returned an error. -/
  | handleFailed (c : Slot)
  | onClientConnected (c : Slot)
  /-- `client_pending_disconnect()` disconnected a client. -/
  | pendingDisconnect (c : Slot)
  | onClientDisconnected (c : Slot)
  /-- A disconnected client is put on the free list. -/
  | slotFreed (c : Slot)
  /-- `NAME_server_stop()` puts a client on the free list. -/
  | slotStopped (c : Slot)
  /-- A slot is unlinked; `ok` tells whether `prev_p` was fit for it. -/
  | unlinked (c : Slot) (ok : Bool)
  /-- A list traversal did not end. -/
  | outOfFuel
  deriving DecidableEq

/-- `struct NAME_server_t`, the client slots, and the memory they refer to. -/
structure Server where
  listenerFd : ℤ
  currentClientP : Option Slot
  clients : Clients
  /-- `output.encoded.size` -/
  encodedSize : ℕ
  clientFd : Slot → ℤ
  keepAliveTimerFd : Slot → ℤ
  input : Slot → Input
  output : Slot → Output
  /-- The number of slots, which the server itself does not store. -/
  clientsMax : ℕ
  /-- `clients_input_bufs_p` -/
  inputBufs : ℕ → UInt8
  log : List Event

/-! ## Updates -/

namespace Server

@[simps] def emit (s : Server) (e : Event) : Server := { s with log := e :: s.log }

@[simps] def setClientFd (s : Server) (c : Slot) (fd : ℤ) : Server :=
  { s with clientFd := Function.update s.clientFd c fd }

@[simps] def setKeepAliveTimerFd (s : Server) (c : Slot) (fd : ℤ) : Server :=
  { s with keepAliveTimerFd := Function.update s.keepAliveTimerFd c fd }

@[simps] def setInput (s : Server) (c : Slot) (i : Input) : Server :=
  { s with input := Function.update s.input c i }

@[simps] def setOutput (s : Server) (c : Slot) (o : Output) : Server :=
  { s with output := Function.update s.output c o }

@[simps] def setClients (s : Server) (l : Clients) : Server := { s with clients := l }

@[simps] def setCurrentClientP (s : Server) (c : Option Slot) : Server :=
  { s with currentClientP := c }

end Server

@[simps] def Output.setItem (o : Output) (i : ℕ) (item : OutputItem) : Output :=
  { o with items := Function.update o.items i item }

/-! ## What the log says -/

/-- The descriptors that have been opened and not closed. -/
def openFds : List Event → List ℤ
  | [] => []
  | .opened fd :: l => fd :: openFds l
  | .closed fd :: l => (openFds l).erase fd
  | _ :: l => openFds l

/-- The life of a slot. -/
inductive Phase where
  | free
  | connected
  | pending
  /-- `on_client_disconnected` has been called. -/
  | notified
  deriving DecidableEq

/-- The phase a slot is in, or `none` if a callback or a list move came out of turn. -/
def phase (c : Slot) : List Event → Option Phase
  | [] => some .free
  | .onClientConnected d :: l =>
    if d = c then if phase c l = some .free then some .connected else none else phase c l
  | .pendingDisconnect d :: l =>
    if d = c then if phase c l = some .connected then some .pending else none else phase c l
  | .onClientDisconnected d :: l =>
    if d = c then if phase c l = some .pending then some .notified else none else phase c l
  | .slotFreed d :: l =>
    if d = c then if phase c l = some .notified then some .free else none else phase c l
  | .slotStopped d :: l =>
    if d = c then if phase c l = some .connected then some .free else none else phase c l
  | _ :: l => phase c l

/-- The bytes that the socket of the last connection of `c` has accepted. -/
def accepted (c : Slot) : List Event → List UInt8
  | [] => []
  | .onClientConnected d :: l => if d = c then [] else accepted c l
  | .write d _ bs :: l => if d = c then accepted c l ++ bs else accepted c l
  | _ :: l => accepted c l

/-- The messages issued to the last connection of `c`. -/
def issued (c : Slot) : List Event → List Message
  | [] => []
  | .onClientConnected d :: l => if d = c then [] else issued c l
  | .frame d m :: l => if d = c then issued c l ++ [m] else issued c l
  | _ :: l => issued c l

/-- No allocation of an output item has failed on the last connection of `c`. -/
def mallocOk (c : Slot) : List Event → Prop
  | [] => True
  | .onClientConnected d :: l => d = c ∨ mallocOk c l
  | .malloc d none :: l => d ≠ c ∧ mallocOk c l
  | _ :: l => mallocOk c l

/-- The bytes received on the last connection of `c`. -/
def received (c : Slot) : List Event → List UInt8
  | [] => []
  | .onClientConnected d :: l => if d = c then [] else received c l
  | .read d _ _ _ bs :: l => if d = c then received c l ++ bs else received c l
  | _ :: l => received c l

/-- The messages handled on the last connection of `c`. -/
def handled (c : Slot) : List Event → List Message
  | [] => []
  | .onClientConnected d :: l => if d = c then [] else handled c l
  | .handleMessage d m :: l => if d = c then handled c l ++ [m] else handled c l
  | _ :: l => handled c l

/-- A message could not be handled on the last connection of `c`, or it has been disconnected. -/
def ended (c : Slot) : List Event → Bool
  | [] => false
  | .onClientConnected d :: l => if d = c then false else ended c l
  | .handleFailed d :: l => if d = c then true else ended c l
  | .pendingDisconnect d :: l => if d = c then true else ended c l
  | _ :: l => ended c l

end Messi.LinuxServer
