import Messi.LinuxServer.Model

/-!
# Users of the Linux server

A user makes calls at top level and in the callbacks. `Call.pause` is no call: the run is looked
at there, also inside a callback. A client pointer is used between its `on_client_connected` and
its `on_client_disconnected` only.
-/

namespace Messi.LinuxServer

/-- A call of the user's code, with the answers of the operating system during it. -/
inductive Call where
  | send (c : Slot) (enc : Encoder) (e : WriteEnv)
  | reply (enc : Encoder) (e : WriteEnv)
  | broadcast (enc : Encoder) (e : Slot → WriteEnv)
  | disconnect (c : Option Slot)
  | process (fd : ℤ) (events : Events) (e : ProcessEnv Call)
  | pause

/-- Which calls the user's code makes from callbacks, beyond those that every user may make. -/
structure Discipline where
  /-- `NAME_server_process()` is called from message callbacks. -/
  processInMessage : Bool
  /-- Calls are made from `on_client_disconnected`. -/
  callInDisconnected : Bool

/-- The slot is between its `on_client_connected` and its `on_client_disconnected`. -/
def live (s : Server) (c : Slot) : Bool :=
  phase c s.log = some .connected || phase c s.log = some .pending

/-- A call other than `NAME_server_process()`. -/
def apiCall : Call → Server → Exec Server Unit
  | .send c enc e, s => .done () (if live s c then serverSend s c enc e else s)
  | .reply enc e, s => .done () (serverReply s enc e)
  | .broadcast enc e, s => .done () (serverBroadcast s enc e)
  | .disconnect c, s =>
    .done () (if c.all (live s) then serverDisconnect s c else s)
  | .process .., s => .done () s
  | .pause, s => .inside s

/-- No call is made, but the run may be looked at. -/
def noCall : Call → Server → Exec Server Unit
  | .pause, s => .inside s
  | _, s => .done () s

/-- A call, with the given callbacks. -/
def callWith (cb : Callbacks Call) : Call → Server → Exec Server Unit
  | .process fd events e, s => serverProcess cb fd events e s
  | .send c enc e, s => apiCall (.send c enc e) s
  | .reply enc e, s => apiCall (.reply enc e) s
  | .broadcast enc e, s => apiCall (.broadcast enc e) s
  | .disconnect c, s => apiCall (.disconnect c) s
  | .pause, s => apiCall .pause s

/-- What the user's callbacks do when calls of `NAME_server_process()` nest at most `n` deep. -/
def callbacks (d : Discipline) : ℕ → Callbacks Call
  | 0 =>
    { onClientConnected := Exec.runList apiCall
      onMessage := Exec.runList apiCall
      onClientDisconnected := Exec.runList (if d.callInDisconnected then apiCall else noCall) }
  | n + 1 =>
    { onClientConnected := Exec.runList (callWith (callbacks d n))
      onMessage := if d.processInMessage then Exec.runList (callWith (callbacks d n)) else
        Exec.runList apiCall
      onClientDisconnected := Exec.runList (if d.callInDisconnected then apiCall else noCall) }

/-- A run of calls at top level. -/
def run (d : Discipline) (n : ℕ) (calls : List Call) (s : Server) : Exec Server Unit :=
  Exec.runList (callWith (callbacks d n)) calls s

/-- A server that has been initialised and started; the result is 0 if it listens. -/
def started (m : Server) (clientsMax clientInputSize messageSize : ℕ) (e : StartEnv) : ℤ × Server :=
  serverStart (serverInit m clientsMax clientInputSize messageSize) e

/-! ## Samples -/

namespace Sample

/-- Memory before `NAME_server_init()`. -/
def memory : Server where
  listenerFd := 0
  currentClientP := none
  clients := ⟨none, none, none, 0, fun _ => none, fun _ => none⟩
  encodedSize := 0
  clientFd := fun _ => 0
  keepAliveTimerFd := fun _ => 0
  input := fun _ => ⟨.header, 0, 0, 0, 0⟩
  output := fun _ => ⟨none, none, fun _ => ⟨0, 0, none, []⟩, 0⟩
  clientsMax := 0
  inputBufs := fun _ => 0
  log := []

/-- The listener is descriptor 3. -/
def start : StartEnv := ⟨some 3, true, true, true, true, true, true⟩

/-- A server with `n` slots and input buffers of `sz` bytes. -/
def server (n sz : ℕ) : Server := (started memory n sz 64 start).2

def noAccept : AcceptEnv Call := ⟨none, true, true, none, true, true, true, []⟩

/-- Nothing happens but the event itself. -/
def nothing : ProcessEnv Call := ⟨noAccept, [], true, [], fun _ => []⟩

/-- A client connects, and gets the given descriptors. -/
def connect (fd timer : ℤ) : Call :=
  .process 3 ⟨true, false⟩
    { nothing with accept := ⟨some fd, true, true, some timer, true, true, true, []⟩ }

/-- Data arrives on a descriptor. -/
def receive (fd : ℤ) (reads : List (ReadEnv Call)) : Call :=
  .process fd ⟨true, false⟩ { nothing with reads := reads }

/-- No allocation fails, and `write()` gives the given results. -/
def writes (ws : List WriteRes) : WriteEnv := ⟨ws, true, true⟩

/-- A `read()`, and the calls made in the message callback it may lead to. -/
def read (res : ReadRes) (calls : List Call) : ReadEnv Call :=
  ⟨res, true, true, calls, true, writes []⟩

end Sample

end Messi.LinuxServer
