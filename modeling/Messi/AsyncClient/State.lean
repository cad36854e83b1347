import Mathlib.Tactic
import Messi.Header
import Messi.Os

/-!
# The state of the async client

`templates/async/client.h`, and what the async framework holds for the client: the connection, two
timers, and the calls that it has been asked to make later. `log` is the trace of the calls of the
framework, the callbacks and the calls of the user, newest first; what the client has received and
handled on a connection is read off it, from the last `on_connected` on.
-/

namespace Messi.AsyncClient

/-- `enum NAME_client_input_state_t`. -/
inductive InputState where
  | header
  | payload
  deriving DecidableEq

/-- `self_p->input.encoded`; its buffer is `Client.inputBuf`. -/
structure Input where
  state : InputState
  dataSize : ℕ
  size : ℕ
  left : ℕ

/-- `struct async_stcp_client_t`: the number of connects that have not been answered, and whether
there is a connection. -/
structure Stcp where
  connects : ℕ
  connected : Bool

inductive Timer where
  | keepAlive
  | reconnect
  deriving DecidableEq

/-- What an observer of the client sees. -/
inductive Event where
  /-- `async_stcp_client_connect()` is called. -/
  | connect
  /-- `async_stcp_client_disconnect()` is called. -/
  | disconnect
  /-- `async_timer_start()` is called. -/
  | timerStart (timer : Timer)
  | timerStop (timer : Timer)
  /-- `async_call()` of `on_disconnected()`. -/
  | asyncCall
  /-- `async_stcp_client_read()` of at most `want` bytes to `offset` in the input buffer; whether
  there is a connection, and the bytes it gave. -/
  | read (connected : Bool) (offset want : ℕ) (bs : List UInt8)
  /-- `async_stcp_client_write()` of a message; whether there is a connection. -/
  | write (connected : Bool) (m : Message)
  | handleMessage (m : Message)
  /-- There is no memory for a message. -/
  | newFailed
  /-- A payload is handed to `NAME_server_to_client_decode()`. -/
  | decode (payload : List UInt8)
  /-- A user message has been decoded, and `on_message` is called. -/
  | onMessage (payload : List UInt8)
  /-- There is a reason to disconnect. -/
  | cause (reason : DisconnectReason)
  | onConnected
  /-- The framework makes the call of `on_disconnected()`. -/
  | called
  | onDisconnected (reason : DisconnectReason)
  /-- The `on_disconnected` callback has returned. -/
  | returned
  /-- The user calls `NAME_client_start()`. -/
  | start
  /-- The user calls `NAME_client_stop()`. -/
  | stop
  deriving DecidableEq

/-- `struct NAME_client_t`, its input buffer, and what the framework holds for it. -/
structure Client where
  isConnected : Bool
  disconnectReason : DisconnectReason
  pongReceived : Bool
  input : Input
  inputBuf : ℕ → UInt8
  /-- `output.encoded.size` -/
  encodedSize : ℕ
  stcp : Stcp
  /-- The timers that have been started, and have neither expired nor been stopped. -/
  armed : Timer → Bool
  /-- The number of calls of `on_disconnected()` that are still to be made. -/
  calls : ℕ
  log : List Event

@[simps] def Client.emit (s : Client) (e : Event) : Client := { s with log := e :: s.log }

/-! ## What the log says -/

/-- The bytes received on the last connection. -/
def received : List Event → List UInt8
  | [] => []
  | .onConnected :: _ => []
  | .read _ _ _ bs :: l => received l ++ bs
  | _ :: l => received l

/-- The messages handled on the last connection. -/
def handled : List Event → List Message
  | [] => []
  | .onConnected :: _ => []
  | .handleMessage m :: l => handled l ++ [m]
  | _ :: l => handled l

/-- The user has stopped the client, and has not started it since. -/
def stopped : List Event → Bool
  | [] => false
  | .start :: _ => false
  | .stop :: _ => true
  | _ :: l => stopped l

end Messi.AsyncClient
