import Mathlib.Tactic
import Messi.Base.Trace
import Messi.Header

/-!
# The state of the Python client

The client of `py_source/templates/client.py` and its tasks. Tasks, connections and pong events are
numbered in the order in which they were created. `log` is the trace of what the client and its
user do, newest first.
-/

namespace Messi.PyClient

/-- Where a main task waits. -/
inductive Await where
  /-- It has not begun. -/
  | created
  /-- `asyncio.wait_for(asyncio.open_connection(...), ...)` -/
  | openConnection
  | onConnectFailure
  | sleep (delay : ℕ)
  | onConnected
  /-- `readexactly()` of a header; `reader` is what `_reader` referred to when it was called. -/
  | readHeader (reader : Option ℕ)
  | readPayload (reader : Option ℕ) (type : UInt8) (size : ℕ)
  | onMessage
  | onDisconnected
  deriving DecidableEq

/-- Where a keep alive task waits. -/
inductive KeepAliveAwait where
  | created
  | sleep
  /-- `asyncio.wait_for(self._pong_event.wait(), ...)` -/
  | pong (event : ℕ)
  deriving DecidableEq

/-- A task that has not ended; `cancelled` tells whether `CancelledError` will be raised where it
waits. -/
structure Task (P : Type) where
  point : P
  cancelled : Bool

/-- The exceptions for which `on_connect_failure()` is called. -/
inductive ConnectFailure where
  | connectionRefused
  | timeout
  | osError
  deriving DecidableEq

/-- What an observer of the client sees. -/
inductive Event where
  /-- `start()` is called. -/
  | start
  /-- `stop()` is called. -/
  | stop
  /-- `asyncio.open_connection()` is called. -/
  | openConnection (t : ℕ)
  /-- A main task has got a connection. -/
  | connected (t conn : ℕ)
  | onConnectFailure (t : ℕ) (e : ConnectFailure)
  | onConnected (t : ℕ)
  /-- `readexactly()` of the reader of a connection has returned in `_reader_loop()`. -/
  | read (t conn : ℕ) (bs : List UInt8)
  /-- `_reader_loop()` has read a message. -/
  | message (t : ℕ) (m : Message)
  /-- A user message has been parsed, and the callback for it is called. -/
  | onMessage (t : ℕ) (payload : List UInt8)
  | onDisconnected (t : ℕ)
  /-- `on_disconnected()` has returned. -/
  | returned (t : ℕ)
  /-- `CancelledError` is raised where a main task waits. -/
  | cancelled (t : ℕ) (p : Await)
  /-- A main task has ended. -/
  | ended (t : ℕ)
  /-- A message is written to a connection. -/
  | write (conn : ℕ) (m : Message)
  /-- The writer of a connection is closed. -/
  | close (conn : ℕ)
  deriving DecidableEq

/-- The attributes of the client, and its tasks. -/
structure Client where
  /-- `_reader` -/
  reader : Option ℕ
  /-- `_writer` -/
  writer : Option ℕ
  /-- `_task` -/
  task : Option ℕ
  /-- `_keep_alive_task` -/
  keepAliveTask : Option ℕ
  /-- `_pong_event` -/
  pongEvent : Option ℕ
  mainTasks : ℕ → Option (Task Await)
  keepAliveTasks : ℕ → Option (Task KeepAliveAwait)
  /-- The pong events that are set. -/
  pongSet : ℕ → Bool
  nextTask : ℕ
  nextEvent : ℕ
  nextConn : ℕ
  log : List Event

@[simps] def Client.emit (s : Client) (e : Event) : Client := { s with log := e :: s.log }

@[simps] def Client.setMain (s : Client) (t : ℕ) (task : Option (Task Await)) : Client :=
  { s with mainTasks := Function.update s.mainTasks t task }

@[simps] def Client.setKeepAlive (s : Client) (t : ℕ) (task : Option (Task KeepAliveAwait)) :
    Client :=
  { s with keepAliveTasks := Function.update s.keepAliveTasks t task }

/-- The connection that has been made last. -/
def latest : List Event → Option ℕ
  | [] => none
  | .connected _ conn :: _ => some conn
  | _ :: l => latest l

/-- The last call of the user that counts is `start()`. -/
def started : List Event → Bool
  | [] => false
  | .start :: _ => true
  | .stop :: _ => false
  | _ :: l => started l

end Messi.PyClient
