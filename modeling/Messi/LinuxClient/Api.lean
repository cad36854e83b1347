import Messi.LinuxClient.Model

/-!
# Users of the Linux client

A user makes calls at top level and in the callbacks; `NAME_client_process()` is called at top level
only. `Rights` tells whether the client is started and stopped, at top level or in the callbacks.
-/

namespace Messi.LinuxClient

/-- A call of the user's code, with the answers of the operating system during it. -/
inductive Call where
  | start (e : StartEnv Call)
  | stop
  | send (enc : Encoder) (res : WriteRes)
  | process (fd : ℤ) (e : ProcessEnv Call)

/-- Whether a part of the user's code starts the client, and stops it. -/
structure Rights where
  start : Bool
  stop : Bool

/-- A call other than `NAME_client_process()`. The client is started and stopped only by those who
may. -/
def apiCall (cb : Callbacks Call) (may : Rights) : Call → Client → Client
  | .start e, s => if may.start then clientStart cb e s else s
  | .stop, s => if may.stop then clientStop s else s
  | .send enc res, s => clientSend s enc res
  | .process .., s => s

def runList {α : Type*} (f : α → Client → Client) (l : List α) (s : Client) : Client :=
  l.foldl (fun s a => f a s) s

/-- What the user's callbacks do when callbacks nest at most `n` deep. -/
def callbacks (may : Rights) : ℕ → Callbacks Call
  | 0 => ⟨fun _ s => s, fun _ s => s, fun _ s => s⟩
  | n + 1 =>
    let calls := runList (apiCall (callbacks may n) may)
    ⟨calls, calls, calls⟩

/-- A call at top level. -/
def callWith (cb : Callbacks Call) (may : Rights) : Call → Client → Client
  | .process fd e, s => clientProcess cb fd e s
  | .start e, s => apiCall cb may (.start e) s
  | .stop, s => apiCall cb may .stop s
  | .send enc res, s => apiCall cb may (.send enc res) s

/-- A run of calls at top level, by a user who may do so much there, and so much in the
callbacks. -/
def run (top inner : Rights) (n : ℕ) (calls : List Call) (s : Client) : Client :=
  runList (callWith (callbacks inner n) top) calls s

/-! ## Samples -/

namespace Sample

/-- Memory before `NAME_client_init()`. -/
def memory : Client where
  disconnectReason := .generalError
  serverFd := 0
  keepAliveTimerFd := 0
  reconnectTimerFd := 0
  pongReceived := false
  pendingDisconnect := false
  input := ⟨.header, 0, 0, 0⟩
  inputBuf := fun _ => 0
  encodedSize := 0
  log := []

/-- The user may start and stop the client anywhere. -/
def anything : Rights := ⟨true, true⟩

/-- A client with an input buffer of `sz` bytes. -/
def client (sz : ℕ) : Client := clientInit memory sz 64

/-- The reconnect timer gets the given descriptor. -/
def timer (fd : ℤ) : TimerEnv := ⟨some fd, true, true⟩

/-- The server accepts, and the client gets the given descriptors. -/
def accepts (fd timerFd : ℤ) : StartEnv Call :=
  ⟨⟨some fd, true, true, true, some timerFd, true, true, []⟩, timer (-1)⟩

/-- The server refuses, and the reconnect timer gets the given descriptor. -/
def refuses (fd timerFd : ℤ) : StartEnv Call :=
  ⟨⟨some fd, false, true, true, none, true, true, []⟩, timer timerFd⟩

/-- Nothing happens but the event itself. -/
def nothing : ProcessEnv Call := ⟨[], ⟨true, true, .accepted 4⟩, refuses (-1) (-1), [], timer (-1)⟩

/-- Data arrives on a descriptor; if the client disconnects, its timer gets the other one. -/
def receive (fd : ℤ) (reads : List (ReadEnv Call)) (timerFd : ℤ) : Call :=
  .process fd { nothing with reads := reads, reconnect := timer timerFd }

/-- The reconnect timer expires, and the server accepts. -/
def reconnect (timerFd fd keepAliveFd : ℤ) : Call :=
  .process timerFd { nothing with start := accepts fd keepAliveFd }

/-- A `read()`, and the calls made in the message callback it may lead to. -/
def read (res : ReadRes) (calls : List Call) : ReadEnv Call := ⟨res, true, true, calls⟩

end Sample

end Messi.LinuxClient
