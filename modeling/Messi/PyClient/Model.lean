import Messi.PyClient.State

/-!
# The Python client

`py_source/templates/client.py`. A coroutine runs from one `await` to the next one: `advance` says
what a main task does once it knows what came of the `await` at which it was, and `runMain` goes on
as long as nothing has to be waited for. `cancel()` raises `CancelledError` at the `await` at which
the task waits, or will wait next.

It is assumed that the callbacks of the user do not catch `CancelledError`: raised at an `await` of
a callback, it leaves the callback.
-/

namespace Messi.PyClient

/-! ## The user -/

/-- A call of the user's code; `payload` is the prepared message. -/
inductive Call where
  | start
  | stop
  | send (payload : List UInt8)

def clientStart (s : Client) : Client :=
  let s := s.emit .start
  if s.task = none then
    { s.setMain s.nextTask (some ⟨.created, false⟩) with
      task := some s.nextTask
      nextTask := s.nextTask + 1 }
  else s

/-- `cancel()` of a main task. -/
def cancelMain (s : Client) (t : ℕ) : Client :=
  s.setMain t ((s.mainTasks t).map fun task => { task with cancelled := true })

def clientStop (s : Client) : Client :=
  let s := s.emit .stop
  match s.task with
  | some t => { cancelMain s t with task := none }
  | none => s

/-- Packing a size of 24 bits or more raises an exception. -/
def clientSend (s : Client) (encoded : List UInt8) : Client :=
  if encoded.length < 2 ^ 24 then
    match s.writer with
    | some conn => s.emit (.write conn (messageTypeClientToServerUser, encoded))
    | none => s
  else s

def call : Call → Client → Client
  | .start, s => clientStart s
  | .stop, s => clientStop s
  | .send encoded, s => clientSend s encoded

/-- A callback runs until it waits for something itself, or to its end; only
`on_connect_failure()` returns a value. -/
inductive UserRes where
  | suspends
  | returns (delay : Option ℕ)
  | raises

inductive ConnectRes where
  | connected
  | failed (e : ConnectFailure)
  /-- Another exception is raised. -/
  | raises

/-- What comes of an `await`. -/
structure Answer where
  connect : ConnectRes
  /-- The bytes that `readexactly()` returned, unless it raised an exception. -/
  read : Option (List UInt8)
  /-- `ParseFromString()` raised no exception. -/
  parse : Bool
  /-- The calls that the callback makes. -/
  calls : List Call
  user : UserRes

/-- `readexactly()` of a reader: the connection that it is for, and the bytes. -/
def readexactly (reader : Option ℕ) (a : Answer) (n : ℕ) : Option (ℕ × List UInt8) :=
  reader.bind fun conn => (a.read.filter fun bs => bs.length = n).map fun bs => (conn, bs)

/-- The callback makes its calls. -/
def userCalls (a : Answer) (s : Client) : Client := a.calls.foldl (fun s c => call c s) s

/-! ## Closing -/

/-- `_close()` -/
def close (s : Client) : Client :=
  match s.writer with
  | some conn => { s.emit (.close conn) with writer := none }
  | none => s

/-- `self._keep_alive_task.cancel()` -/
def cancelKeepAlive (s : Client) : Client :=
  match s.keepAliveTask with
  | some t => s.setKeepAlive t ((s.keepAliveTasks t).map fun task =>
      { task with cancelled := true })
  | none => s

/-! ## The main task -/

/-- What a coroutine does next: it comes to an `await`, it still waits, or it has ended. -/
inductive Next where
  | goto (p : Await)
  | suspend
  | exit

/-- The head of the loop of `_connect()`. -/
def connect (t : ℕ) (s : Client) : Next × Client :=
  (.goto .openConnection, s.emit (.openConnection t))

/-- `_main()` goes on after `_connect()` has returned `True`. -/
def connected (t : ℕ) (s : Client) : Next × Client :=
  (.goto .onConnected, s.emit (.onConnected t))

/-- `_main()` goes on after `on_connected()`. -/
def startReading (s : Client) : Next × Client :=
  let event := s.nextEvent
  let s := { s with
    pongEvent := some event
    pongSet := Function.update s.pongSet event false
    nextEvent := event + 1 }
  let task := s.nextTask
  let s := s.setKeepAlive task (some ⟨.created, false⟩)
  (.goto (.readHeader s.reader), { s with keepAliveTask := some task, nextTask := task + 1 })

/-- `_main()` goes on to `on_disconnected()` after an exception, also `CancelledError`, in
`_reader_loop()`. -/
def readerLoopStopped (t : ℕ) (s : Client) : Client :=
  (cancelKeepAlive (close s)).emit (.onDisconnected t)

def handlePong (s : Client) : Option Client :=
  s.pongEvent.map fun event => { s with pongSet := Function.update s.pongSet event true }

/-- A turn of the loop of `_reader_loop()` once it has read a message. -/
def handleMessage (t : ℕ) (a : Answer) (m : Message) (s : Client) : Next × Client :=
  let s := s.emit (.message t m)
  if m.1 = messageTypeServerToClientUser then
    if a.parse then (.goto .onMessage, s.emit (.onMessage t m.2))
    else (.goto .onDisconnected, readerLoopStopped t s)
  else if m.1 = messageTypePong then
    match handlePong s with
    | some s => (.goto (.readHeader s.reader), s)
    | none => (.goto .onDisconnected, readerLoopStopped t s)
  else (.goto (.readHeader s.reader), s)

/-- A main task knows what came of the `await` at which it is. -/
def advance (t : ℕ) (a : Answer) : Await → Client → Next × Client
  | .created, s => connect t s
  | .openConnection, s =>
    match a.connect with
    | .connected =>
      let conn := s.nextConn
      let s := { s with reader := some conn, writer := some conn, nextConn := conn + 1 }
      connected t (s.emit (.connected t conn))
    | .failed e => (.goto .onConnectFailure, s.emit (.onConnectFailure t e))
    | .raises => (.exit, s)
  | .onConnectFailure, s =>
    let s := userCalls a s
    match a.user with
    | .suspends => (.suspend, s)
    | .returns none => (.exit, s)
    | .returns (some delay) => (.goto (.sleep delay), s)
    | .raises => (.exit, s)
  | .sleep _, s => connect t s
  | .onConnected, s =>
    let s := userCalls a s
    match a.user with
    | .suspends => (.suspend, s)
    | .returns _ => startReading s
    | .raises => (.exit, s)
  | .readHeader reader, s =>
    match readexactly reader a headerSize with
    | none => (.goto .onDisconnected, readerLoopStopped t s)
    | some (conn, header) =>
      let s := s.emit (.read t conn header)
      let type := (Header.ofBytes header).type
      let size := (headerGetSize (Header.ofBytes header)).toNat
      -- nothing has to be read of an empty payload
      if size = 0 then handleMessage t a (type, []) s
      else (.goto (.readPayload s.reader type size), s)
  | .readPayload reader type size, s =>
    match readexactly reader a size with
    | none => (.goto .onDisconnected, readerLoopStopped t s)
    | some (conn, payload) => handleMessage t a (type, payload) (s.emit (.read t conn payload))
  | .onMessage, s =>
    let s := userCalls a s
    match a.user with
    | .suspends => (.suspend, s)
    | .returns _ => (.goto (.readHeader s.reader), s)
    | .raises => (.goto .onDisconnected, readerLoopStopped t s)
  | .onDisconnected, s =>
    let s := userCalls a s
    match a.user with
    | .suspends => (.suspend, s)
    | .returns _ => connect t (s.emit (.returned t))
    | .raises => (.exit, s)

/-- `CancelledError` is raised where a main task waits, and it goes on elsewhere or ends; a callback
of the user may still make calls. -/
def raiseCancelled (t : ℕ) (a : Answer) : Await → Client → Option Await × Client
  | .created, s | .openConnection, s | .sleep _, s => (none, s)
  | .onConnectFailure, s | .onConnected, s | .onDisconnected, s => (none, userCalls a s)
  | .readHeader _, s | .readPayload .., s => (some .onDisconnected, readerLoopStopped t s)
  | .onMessage, s => (some .onDisconnected, readerLoopStopped t (userCalls a s))

/-- A task always has to wait here. -/
def Await.waits : Await → Bool
  | .openConnection | .sleep _ => true
  | _ => false

/-- A main task waits at `p`. -/
def suspendAt (t : ℕ) (p : Await) (s : Client) : Client :=
  s.setMain t ((s.mainTasks t).map fun task => { task with point := p })

def finish (t : ℕ) (s : Client) : Client := (s.setMain t none).emit (.ended t)

/-- A main task runs from `p` on, for as long as what it needs is there. -/
def runMain (t : ℕ) : List Answer → Await → Client → Client
  | [], p, s => suspendAt t p s
  | a :: as, p, s =>
    match advance t a p s with
    | (.goto p, s) => if p.waits then suspendAt t p s else runMain t as p s
    | (.suspend, s) => suspendAt t p s
    | (.exit, s) => finish t s

/-- The exception has been raised. Nobody cancels the task a second time meanwhile: it is not
`_task` any more. -/
def clearCancelled (t : ℕ) (s : Client) : Client :=
  s.setMain t ((s.mainTasks t).map fun task => { task with cancelled := false })

/-- A main task is resumed. -/
def resumeMain (t : ℕ) (a : Answer) (as : List Answer) (s : Client) : Client :=
  match s.mainTasks t with
  | none => s
  | some task =>
    if task.cancelled then
      match raiseCancelled t a task.point (s.emit (.cancelled t task.point)) with
      | (some p, s) => runMain t as p (clearCancelled t s)
      | (none, s) => finish t s
    else runMain t (a :: as) task.point s

/-! ## The keep alive task -/

/-- `_keep_alive_main()` is resumed; `timeout` tells whether the pong has not come in time. -/
def resumeKeepAlive (t : ℕ) (timeout : Bool) (s : Client) : Client :=
  match s.keepAliveTasks t with
  | none => s
  | some task =>
    if task.cancelled then
      let s := s.setKeepAlive t none
      if task.point = .created then s else close s
    else
      match task.point with
      | .created => s.setKeepAlive t (some { task with point := .sleep })
      | .sleep =>
        match s.pongEvent, s.writer with
        | some event, some conn =>
          let s := { s with pongSet := Function.update s.pongSet event false }
          let s := s.emit (.write conn (messageTypePing, []))
          s.setKeepAlive t (some { task with point := .pong event })
        | some event, none =>
          close ({ s with pongSet := Function.update s.pongSet event false }.setKeepAlive t none)
        | none, _ => close (s.setKeepAlive t none)
      | .pong event =>
        if s.pongSet event && !timeout then
          s.setKeepAlive t (some { task with point := .sleep })
        else close (s.setKeepAlive t none)

/-! ## Runs -/

/-- A step of the event loop: code of the user that runs in no callback, or a task. -/
inductive Step where
  | call (c : Call)
  | main (t : ℕ) (a : Answer) (as : List Answer)
  | keepAlive (t : ℕ) (timeout : Bool)

def step : Step → Client → Client
  | .call c, s => call c s
  | .main t a as, s => resumeMain t a as s
  | .keepAlive t timeout, s => resumeKeepAlive t timeout s

/-- `__init__()` -/
def clientInit : Client where
  reader := none
  writer := none
  task := none
  keepAliveTask := none
  pongEvent := none
  mainTasks := fun _ => none
  keepAliveTasks := fun _ => none
  pongSet := fun _ => false
  nextTask := 0
  nextEvent := 0
  nextConn := 0
  log := []

def run (steps : List Step) : Client := steps.foldl (fun s x => step x s) clientInit

end Messi.PyClient
