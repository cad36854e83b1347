import Messi.Base.ByteMemory
import Messi.Encoding
import Messi.AsyncServer.State

/-!
# The async server

`templates/async/server.c`, function by function, and the functions of the async framework that it
calls. The framework delivers an event of a connection only while there is one. The calls that the
user's code makes in a callback are a parameter.

Assumed is that the user has set what `NAME_server_init()` does not set: the `server_p` and the
`keep_alive_timer` of a slot, and the two callbacks for connections (`Server.wired`). With the
server as it is generated the first connection calls `on_client_connected` through a `server_p` that
is null; a connection of a slot that is not wired is no step here.
-/

namespace Messi.AsyncServer

open ByteMemory

/-! ## The framework -/

/-- `async_stcp_server_client_read()` of at most `want` bytes, when `bs` are available. -/
def stcpRead (s : Server) (c : Slot) (want : ℕ) (bs : List UInt8) : List UInt8 :=
  if s.connected c then bs.take want else []

def stcpWrite (s : Server) (c : Slot) (m : Message) : Server := s.emit (.write c m)

def timerStart (s : Server) (c : Slot) : Server := s.emit (.timerStart c)

/-! ## Sending -/

/-- The message in `output.encoded`, whose first bytes are then its frame. -/
def encodeUserMessage (s : Server) (enc : Encoder) : Option Message :=
  encodeInto messageTypeServerToClientUser s.encodedSize enc

def serverSend (s : Server) (c : Slot) (enc : Encoder) : Server :=
  match encodeUserMessage s enc with
  | none => s
  | some m => stcpWrite s c m

def serverReply (s : Server) (enc : Encoder) : Server :=
  match s.currentClientP with
  | some c => serverSend s c enc
  | none => s

/-- The loop of `NAME_server_broadcast()`. -/
def broadcastLoop (m : Message) : ℕ → Option Slot → Server → Server
  | 0, _, s => s.emit .outOfFuel
  | _ + 1, none, s => s
  | n + 1, some c, s => broadcastLoop m n (s.nextP c) (stcpWrite s c m)

def serverBroadcast (s : Server) (enc : Encoder) : Server :=
  match encodeUserMessage s enc with
  | none => s
  | some m => broadcastLoop m (s.clientsMax + 1) s.connectedListP s

/-- The call that would disconnect the client is commented out. -/
def serverDisconnect (s : Server) (_ : Option Slot) : Server := s

/-- A call of the user's code. -/
inductive Call where
  | send (c : Slot) (enc : Encoder)
  | reply (enc : Encoder)
  | broadcast (enc : Encoder)
  | disconnect (c : Option Slot)

def call (s : Server) : Call → Server
  | .send c enc => serverSend s c enc
  | .reply enc => serverReply s enc
  | .broadcast enc => serverBroadcast s enc
  | .disconnect c => serverDisconnect s c

/-- The calls made in a callback. -/
def callback (calls : List Call) (s : Server) : Server := calls.foldl call s

/-! ## Input -/

def clientResetInput (s : Server) (c : Slot) : Server :=
  s.setInput c { s.input c with state := .header, size := 0, left := headerSize }

/-- What is met at one turn of the loop of `on_stcp_client_input()`: the bytes that are available,
and what `handle_message()` meets if it is called. -/
structure ReadEnv where
  data : List UInt8
  /-- `NAME_client_to_server_new()` returned a message. -/
  new : Bool
  /-- `NAME_client_to_server_decode()` decoded the whole payload. -/
  decode : Bool
  callback : List Call

/-- The bytes in the client's input buffer. -/
def inputBytes (s : Server) (c : Slot) : List UInt8 :=
  slice s.inputBufs (s.input c).bufP (s.input c).size

/-- `*header_p`. -/
def inputHeader (s : Server) (c : Slot) : Header :=
  Header.ofBytes (slice s.inputBufs (s.input c).bufP headerSize)

/-- The bytes that have been read are stored behind those already in the buffer. -/
def readBytes (s : Server) (c : Slot) (bs : List UInt8) : Server :=
  let i := s.input c
  let s := s.emit (.read c i.size i.left bs)
  let s := { s with inputBufs := write s.inputBufs (i.bufP + i.size) bs }
  s.setInput c { i with size := i.size + bs.length, left := i.left - bs.length }

/-- What is done with a whole header; the result is false for a message that is too big. -/
def loadHeader (s : Server) (c : Slot) : Bool × Server :=
  if (s.input c).state = .header then
    let s := s.setInput c { s.input c with left := (headerGetSize (inputHeader s c)).toNat }
    if (s.input c).left + headerSize > (s.input c).dataSize then (false, s)
    else (true, s.setInput c { s.input c with state := .payload })
  else (true, s)

/-- `handle_message_user()`; the result is true for zero. -/
def handleMessageUser (c : Slot) (e : ReadEnv) (s : Server) : Bool × Server :=
  if !e.new then (false, s.emit (.newFailed c))
  else
    let s := s.emit (.decode c ((inputBytes s c).drop headerSize) e.decode)
    if !e.decode then (false, s)
    else (true, (callback e.callback (s.setCurrentClientP (some c))).setCurrentClientP none)

def handleMessagePing (c : Slot) (s : Server) : Bool × Server :=
  (true, stcpWrite (timerStart s c) c (messageTypePong, []))

def handleMessage (c : Slot) (e : ReadEnv) (s : Server) : Bool × Server :=
  let type := (inputHeader s c).type
  let s := s.emit (.handleMessage c (type, (inputBytes s c).drop headerSize))
  if type = messageTypeClientToServerUser then handleMessageUser c e s
  else if type = messageTypePing then handleMessagePing c s
  else (false, s)

def onStcpClientInput (c : Slot) : List ReadEnv → Server → Server
  | [], s => readBytes s c []
  | e :: es, s =>
    match stcpRead s c (s.input c).left e.data with
    | [] => readBytes s c []
    | b :: bs =>
      let s := readBytes s c (b :: bs)
      if 0 < (s.input c).left then onStcpClientInput c es s
      else
        match loadHeader s c with
        | (false, s) => s
        | (true, s) =>
          if (s.input c).left = 0 then
            match handleMessage c e s with
            | (true, s) => onStcpClientInput c es (clientResetInput s c)
            | (false, s) => s
          else onStcpClientInput c es s

/-! ## The other callbacks -/

def onStcpClientConnected (c : Slot) (calls : List Call) (s : Server) : Server :=
  callback calls ((clientResetInput s c).emit (.onClientConnected c))

def onStcpClientDisconnected (c : Slot) (calls : List Call) (s : Server) : Server :=
  callback calls (s.emit (.onClientDisconnected c))

/-- `NAME_server_init()` once the URI has been parsed; `s` is what the memory held before, and what
`Server.wired` is about is left as it was. -/
def serverInit (s : Server) (clientsMax clientInputSize messageSize : ℕ) : Server :=
  { s with
    encodedSize := messageSize
    input := fun i =>
      if i < clientsMax then
        { s.input i with bufP := i * clientInputSize, dataSize := clientInputSize }
      else s.input i
    clientsMax := clientsMax
    connected := fun _ => false
    log := [] }

/-! ## Runs -/

/-- What happens between two returns to the framework, with the calls that the user's code makes in
the callback. -/
inductive Step where
  | call (c : Call)
  /-- A client is accepted, in a slot that has no connection and is wired. -/
  | connected (c : Slot) (calls : List Call)
  | disconnected (c : Slot) (calls : List Call)
  | input (c : Slot) (es : List ReadEnv)

def step (s : Server) : Step → Server
  | .call c => call s c
  | .connected c calls =>
    if c < s.clientsMax ∧ s.connected c = false ∧ s.wired c then
      onStcpClientConnected c calls (s.setConnected c true)
    else s
  | .disconnected c calls =>
    if s.connected c then onStcpClientDisconnected c calls (s.setConnected c false) else s
  | .input c es => if s.connected c then onStcpClientInput c es s else s

def run (steps : List Step) (s : Server) : Server := steps.foldl step s

/-! ## Samples -/

namespace Sample

/-- What the memory held before `NAME_server_init()`, with all slots wired. -/
def memory : Server where
  currentClientP := none
  connectedListP := none
  nextP := fun _ => none
  encodedSize := 0
  input := fun _ => ⟨.header, 0, 0, 0, 0⟩
  inputBufs := fun _ => 0
  clientsMax := 0
  serverP := fun _ => true
  keepAliveTimer := fun _ => true
  onClientConnected := true
  onClientDisconnected := true
  connected := fun _ => false
  log := []

/-- A server with `n` slots and input buffers of `sz` bytes. -/
def server (n sz : ℕ) : Server := serverInit memory n sz 64

/-- The next bytes are read, the decoder takes the payload, and the callback makes no calls. -/
def bytes (bs : List UInt8) : ReadEnv := ⟨bs, true, true, []⟩

end Sample

end Messi.AsyncServer
