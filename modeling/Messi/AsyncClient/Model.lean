import Messi.Base.ByteMemory
import Messi.AsyncClient.State

/-!
# The async client

`templates/async/client.c`, function by function, and the functions of the async framework that it
calls. The framework delivers an event only when it is due: an answer to a connect, input and the
end of a connection while there is one, the expiry of a timer that is running, a call that it has
been asked to make. The calls that the user's code makes in a callback are a parameter.
-/

namespace Messi.AsyncClient

open ByteMemory

/-! ## The framework -/

def stcpConnect (s : Client) : Client :=
  { s.emit .connect with stcp := { s.stcp with connects := s.stcp.connects + 1 } }

/-- No callback is delivered until the next connect. -/
def stcpDisconnect (s : Client) : Client := { s.emit .disconnect with stcp := ⟨0, false⟩ }

def timerStart (s : Client) (timer : Timer) : Client :=
  { s.emit (.timerStart timer) with armed := Function.update s.armed timer true }

def timerStop (s : Client) (timer : Timer) : Client :=
  { s.emit (.timerStop timer) with armed := Function.update s.armed timer false }

def asyncCall (s : Client) : Client := { s.emit .asyncCall with calls := s.calls + 1 }

/-- `async_stcp_client_read()` of at most `want` bytes, when `bs` are available. -/
def stcpRead (s : Client) (want : ℕ) (bs : List UInt8) : List UInt8 :=
  if s.stcp.connected then bs.take want else []

def stcpWrite (s : Client) (m : Message) : Client := s.emit (.write s.stcp.connected m)

/-! ## The user -/

/-- A call of the user's code. -/
inductive Call where
  | start
  | stop
  | send (enc : Encoder)

/-- Whether the user's code starts the client, and stops it. -/
structure Rights where
  start : Bool
  stop : Bool

def disconnectAndStartReconnectTimer (s : Client) (reason : DisconnectReason) : Client :=
  let s := s.emit (.cause reason)
  if !s.isConnected then s
  else
    let s := timerStop { s with isConnected := false } .keepAlive
    let s := stcpDisconnect s
    asyncCall { s with disconnectReason := reason }

def clientStart (s : Client) : Client := stcpConnect s

def clientStop (s : Client) : Client :=
  timerStop (timerStop (stcpDisconnect s) .reconnect) .keepAlive

def clientSend (s : Client) (enc : Encoder) : Client :=
  match enc (sizeSub s.encodedSize headerSize) with
  | none => disconnectAndStartReconnectTimer s .messageEncodeError
  | some payload => stcpWrite s (messageTypeClientToServerUser, payload)

/-- The client is started and stopped only by those who may. -/
def call (may : Rights) (s : Client) : Call → Client
  | .start => if may.start then clientStart (s.emit .start) else s
  | .stop => if may.stop then clientStop (s.emit .stop) else s
  | .send enc => clientSend s enc

/-- The calls made in a callback. -/
def callback (may : Rights) (calls : List Call) (s : Client) : Client := calls.foldl (call may) s

/-! ## Input -/

def resetInputEncoded (s : Client) : Client :=
  { s with input := { s.input with state := .header, size := 0, left := headerSize } }

/-- What is met at one turn of the loop of `on_stcp_input()`: the bytes that are available, and what
`handle_message()` meets if it is called. -/
structure ReadEnv where
  data : List UInt8
  /-- `NAME_server_to_client_new()` returned a message. -/
  new : Bool
  /-- `NAME_server_to_client_decode()` decoded the whole payload. -/
  decode : Bool
  callback : List Call

/-- The bytes in the input buffer. -/
def inputBytes (s : Client) : List UInt8 := slice s.inputBuf 0 s.input.size

/-- `*header_p`. -/
def inputHeader (s : Client) : Header := Header.ofBytes (slice s.inputBuf 0 headerSize)

def handleMessageUser (may : Rights) (e : ReadEnv) (s : Client) : Client :=
  if !e.new then s.emit .newFailed
  else
    let s := s.emit (.decode ((inputBytes s).drop headerSize))
    if !e.decode then disconnectAndStartReconnectTimer s .messageDecodeError
    else callback may e.callback (s.emit (.onMessage ((inputBytes s).drop headerSize)))

def handleMessagePong (s : Client) : Client := { s with pongReceived := true }

def handleMessage (may : Rights) (e : ReadEnv) (s : Client) : Client :=
  let type := (inputHeader s).type
  let s := s.emit (.handleMessage (type, (inputBytes s).drop headerSize))
  if type = messageTypeServerToClientUser then handleMessageUser may e s
  else if type = messageTypePong then handleMessagePong s
  else s

/-- The bytes that have been read are stored behind those already in the buffer. -/
def readBytes (s : Client) (bs : List UInt8) : Client :=
  { s.emit (.read s.stcp.connected s.input.size s.input.left bs) with
    inputBuf := write s.inputBuf s.input.size bs
    input := { s.input with size := s.input.size + bs.length, left := s.input.left - bs.length } }

/-- What is done with a whole header; the result is false for a message that is too big. -/
def loadHeader (s : Client) : Bool × Client :=
  if s.input.state = .header then
    let s := { s with input := { s.input with left := (headerGetSize (inputHeader s)).toNat } }
    if s.input.left + headerSize > s.input.dataSize then (false, s)
    else (true, { s with input := { s.input with state := .payload } })
  else (true, s)

def onStcpInput (may : Rights) : List ReadEnv → Client → Client
  | [], s => readBytes s []
  | e :: es, s =>
    match stcpRead s s.input.left e.data with
    | [] => readBytes s []
    | b :: bs =>
      let s := readBytes s (b :: bs)
      if 0 < s.input.left then onStcpInput may es s
      else
        match loadHeader s with
        | (false, s) => disconnectAndStartReconnectTimer s .messageTooBig
        | (true, s) =>
          if s.input.left = 0 then
            onStcpInput may es (resetInputEncoded (handleMessage may e s))
          else onStcpInput may es s

/-! ## The other callbacks -/

/-- `on_disconnected()`, called through `async_call()`. -/
def onDisconnected (may : Rights) (calls : List Call) (s : Client) : Client :=
  let s := callback may calls (s.emit (.onDisconnected s.disconnectReason))
  timerStart (s.emit .returned) .reconnect

def onKeepAliveTimeout (s : Client) : Client :=
  if s.pongReceived then
    let s := { timerStart s .keepAlive with pongReceived := false }
    stcpWrite s (messageTypePing, [])
  else disconnectAndStartReconnectTimer s .keepAliveTimeout

def onStcpConnected (may : Rights) (ok : Bool) (calls : List Call) (s : Client) : Client :=
  if ok then
    let s := { timerStart s .keepAlive with pongReceived := true, isConnected := true }
    callback may calls (s.emit .onConnected)
  else timerStart s .reconnect

def onStcpDisconnected (s : Client) : Client :=
  disconnectAndStartReconnectTimer s .connectionClosed

/-- `NAME_client_init()` once the URI has been parsed; `s` is what the memory held before. -/
def clientInit (s : Client) (encodedInSize encodedOutSize : ℕ) : Client :=
  { resetInputEncoded { s with input := { s.input with dataSize := encodedInSize } } with
    isConnected := false
    encodedSize := encodedOutSize
    stcp := ⟨0, false⟩
    armed := fun _ => false
    calls := 0
    log := [] }

/-! ## Runs -/

/-- What happens between two returns to the framework, with the calls that the user's code makes in
the callback. -/
inductive Step where
  | call (c : Call)
  /-- A connect is answered. -/
  | connected (ok : Bool) (calls : List Call)
  | disconnected
  | input (es : List ReadEnv)
  | timeout (timer : Timer)
  /-- A call of `on_disconnected()` is made. -/
  | called (calls : List Call)

def step (may : Rights) (s : Client) : Step → Client
  | .call c => call may s c
  | .connected ok calls =>
    if 0 < s.stcp.connects then
      onStcpConnected may ok calls
        { s with stcp := ⟨s.stcp.connects - 1, s.stcp.connected || ok⟩ }
    else s
  | .disconnected =>
    if s.stcp.connected then
      onStcpDisconnected { s with stcp := { s.stcp with connected := false } }
    else s
  | .input es => if s.stcp.connected then onStcpInput may es s else s
  | .timeout timer =>
    if s.armed timer then
      let s := { s with armed := Function.update s.armed timer false }
      match timer with
      | .keepAlive => onKeepAliveTimeout s
      | .reconnect => clientStart s
    else s
  | .called calls =>
    if 0 < s.calls then
      onDisconnected may calls ({ s with calls := s.calls - 1 }.emit .called)
    else s

/-- A run, with the rights of the user's code. -/
def run (may : Rights) (steps : List Step) (s : Client) : Client := steps.foldl (step may) s

/-! ## Samples -/

namespace Sample

def anything : Rights := ⟨true, true⟩

/-- What the memory held before `NAME_client_init()`. -/
def memory : Client where
  isConnected := false
  disconnectReason := .connectionClosed
  pongReceived := false
  input := ⟨.header, 0, 0, 0⟩
  inputBuf := fun _ => 0
  encodedSize := 0
  stcp := ⟨0, false⟩
  armed := fun _ => false
  calls := 0
  log := []

def client (inSize : ℕ) : Client := clientInit memory inSize 64

/-- The client is started and connects. -/
def connectSteps : List Step := [.call .start, .connected true []]

end Sample

end Messi.AsyncClient
