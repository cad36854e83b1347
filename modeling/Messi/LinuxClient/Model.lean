import Messi.Base.ByteMemory
import Messi.LinuxClient.State

/-!
# The Linux client

`templates/linux/client.c`, function by function. A call that runs out of answers gets `EAGAIN`. The
callbacks are parameters; `α` is the type of the calls that the user's code makes in them.
-/

namespace Messi.LinuxClient

open ByteMemory

variable {α : Type*}

/-! ## Descriptors -/

def epollCtlAdd (s : Client) (fd : ℤ) (ok : Bool) : Client := s.emit (.epollCtl .add fd ok)

def epollCtlDel (s : Client) (fd : ℤ) : Client := s.emit (.epollCtl .del fd true)

def closeFd (s : Client) (fd : ℤ) : Client := (epollCtlDel s fd).emit (.closed fd)

/-! ## Disconnecting -/

def resetInputEncoded (s : Client) : Client :=
  { s with input := { s.input with state := .header, size := 0, left := headerSize } }

def pendingDisconnect (s : Client) (disconnectReason : DisconnectReason) : Client :=
  if s.pendingDisconnect then s
  else
    let s := { s with disconnectReason := disconnectReason }
    let s := closeFd s s.serverFd
    { s with serverFd := -1, pendingDisconnect := true }

def disconnect (s : Client) : Client :=
  let s := pendingDisconnect s .messageEncodeError
  let s := closeFd s s.keepAliveTimerFd
  { s with keepAliveTimerFd := -1, pendingDisconnect := false }

/-! ## Timers -/

def startTimer (s : Client) (fd : ℤ) (ok : Bool) : Client := s.emit (.settime fd ok)

def startKeepAliveTimer (s : Client) (ok : Bool) : Client := startTimer s s.keepAliveTimerFd ok

/-- The answers of the operating system when the reconnect timer is started. -/
structure TimerEnv where
  create : Option ℤ
  add : Bool
  settime : Bool

def startReconnectTimer (s : Client) (e : TimerEnv) : Client :=
  let fd := sysOpen (openFds s.log) e.create
  let s := { s with reconnectTimerFd := fd }
  if fd = -1 then s.emit (.reconnectTimer false)
  else
    let s := epollCtlAdd (s.emit (.opened .reconnectTimer fd)) fd e.add
    if !e.add then
      { (s.emit (.closed fd)).emit (.reconnectTimer false) with reconnectTimerFd := -1 }
    else (startTimer s fd e.settime).emit (.reconnectTimer e.settime)

/-! ## Messages -/

/-- The callbacks: what the calls that the user's code makes in them do. -/
structure Callbacks (α : Type*) where
  onConnected : List α → Client → Client
  onMessage : List α → Client → Client
  onDisconnected : List α → Client → Client

/-- The answers at one turn of the loop of `process_socket()`: the result of `read()`, and what
`handle_message()` meets if it is called. -/
structure ReadEnv (α : Type*) where
  res : ReadRes
  /-- `NAME_server_to_client_new()` returned a message. -/
  new : Bool
  /-- `NAME_server_to_client_decode()` decoded the whole payload. -/
  decode : Bool
  callback : List α

/-- The bytes in the input buffer. -/
def inputBytes (s : Client) : List UInt8 := slice s.inputBuf 0 s.input.size

/-- `*header_p`. -/
def inputHeader (s : Client) : Header := Header.ofBytes (slice s.inputBuf 0 headerSize)

def handleMessageUser (cb : Callbacks α) (e : ReadEnv α) (s : Client) : Client :=
  if !e.new then s.emit .newFailed
  else
    let s := s.emit (.decode ((inputBytes s).drop headerSize))
    if !e.decode then pendingDisconnect s .messageDecodeError
    else
      let s := cb.onMessage e.callback (s.emit (.onMessage ((inputBytes s).drop headerSize)))
      s.emit (.returned .onMessage s.pendingDisconnect)

def handleMessagePong (s : Client) : Client := { s with pongReceived := true }

def handleMessage (cb : Callbacks α) (e : ReadEnv α) (s : Client) : Client :=
  let type := (inputHeader s).type
  let s := s.emit (.handleMessage (type, (inputBytes s).drop headerSize))
  if type = messageTypeServerToClientUser then handleMessageUser cb e s
  else if type = messageTypePong then handleMessagePong s
  else s

/-! ## The socket -/

/-- `read()` with its result: the bytes are stored behind those already in the buffer. -/
def readBytes (s : Client) (bs : List UInt8) : Client :=
  { s.emit (.read s.serverFd s.input.size s.input.left bs) with
    inputBuf := write s.inputBuf s.input.size bs
    input := { s.input with size := s.input.size + bs.length, left := s.input.left - bs.length } }

/-- What is done with a whole header; the result is false for a message that is too big. -/
def loadHeader (s : Client) : Bool × Client :=
  if s.input.state = .header then
    let s := { s with input := { s.input with left := (headerGetSize (inputHeader s)).toNat } }
    if s.input.left + headerSize > s.input.dataSize then (false, s.emit .tooBig)
    else (true, { s with input := { s.input with state := .payload } })
  else (true, s)

def processSocket (cb : Callbacks α) : List (ReadEnv α) → Client → Client
  | [], s =>
    match sysRead s.serverFd s.input.left .eagain with
    | .eagain => readBytes s []
    | _ => pendingDisconnect (readBytes s []) .connectionClosed
  | e :: es, s =>
    match sysRead s.serverFd s.input.left e.res with
    | .eagain => readBytes s []
    | .error => pendingDisconnect (readBytes s []) .connectionClosed
    | .data [] => pendingDisconnect (readBytes s []) .connectionClosed
    | .data (b :: bs) =>
      let s := readBytes s (b :: bs)
      if 0 < s.input.left then processSocket cb es s
      else
        match loadHeader s with
        | (false, s) => pendingDisconnect s .messageTooBig
        | (true, s) =>
          if s.input.left = 0 then
            processSocket cb es (resetInputEncoded (handleMessage cb e s))
          else processSocket cb es s

/-- `write()` of a message; the result is true if all of its frame was accepted. -/
def writeMessage (s : Client) (m : Message) (res : WriteRes) : Bool × Client :=
  match sysWrite s.serverFd (frameBytes m).length res with
  | .accepted n => (n = (frameBytes m).length, s.emit (.write s.serverFd m n))
  | _ => (false, s.emit (.write s.serverFd m 0))

/-- The answers of the operating system when the keep alive timer expires. -/
structure KeepAliveEnv where
  /-- `read()` gave the eight bytes of the timer's value. -/
  read : Bool
  settime : Bool
  write : WriteRes

def processKeepAliveTimer (s : Client) (e : KeepAliveEnv) : Client :=
  let read := sysReadTimer s.keepAliveTimerFd e.read
  let s := s.emit (.readTimer s.keepAliveTimerFd read)
  if !read then pendingDisconnect s .generalError
  else if !s.pongReceived then pendingDisconnect s .keepAliveTimeout
  else
    let s := startKeepAliveTimer s e.settime
    if e.settime then
      match writeMessage s (messageTypePing, []) e.write with
      | (false, s) => pendingDisconnect s .generalError
      | (true, s) => { s with pongReceived := false }
    else pendingDisconnect s .generalError

/-! ## Connecting -/

/-- The answers of the operating system when the client connects, and the calls made in
`on_connected`. -/
structure ConnectEnv (α : Type*) where
  socket : Option ℤ
  connect : Bool
  nonBlocking : Bool
  addSocket : Bool
  timer : Option ℤ
  addTimer : Bool
  settime : Bool
  callback : List α

/-- `connect_to_server()`; the result is true for zero. -/
def connectToServer (cb : Callbacks α) (e : ConnectEnv α) (s : Client) : Bool × Client :=
  let serverFd := sysOpen (openFds s.log) e.socket
  if serverFd = -1 then (false, s)
  else
    let s := s.emit (.opened .socket serverFd)
    if !e.connect then (false, s.emit (.closed serverFd))
    else if !e.nonBlocking then (false, s.emit (.closed serverFd))
    else
      let s := epollCtlAdd s serverFd e.addSocket
      if !e.addSocket then (false, s.emit (.closed serverFd))
      else
        let timerFd := sysOpen (openFds s.log) e.timer
        let s := { s with keepAliveTimerFd := timerFd }
        if timerFd = -1 then (false, (epollCtlDel s serverFd).emit (.closed serverFd))
        else
          let s := epollCtlAdd (s.emit (.opened .keepAliveTimer timerFd)) timerFd e.addTimer
          if !e.addTimer then
            (false, (epollCtlDel (s.emit (.closed timerFd)) serverFd).emit (.closed serverFd))
          else
            let s := startKeepAliveTimer s e.settime
            if !e.settime then
              let s := (epollCtlDel s timerFd).emit (.closed timerFd)
              (false, (epollCtlDel s serverFd).emit (.closed serverFd))
            else
              let s := { s with serverFd := serverFd, pongReceived := true }
              let s :=
                cb.onConnected e.callback (s.emit (.onConnected serverFd s.pendingDisconnect))
              (true, s.emit (.returned .onConnected s.pendingDisconnect))

/-- The answers when the client connects, or else starts its reconnect timer. -/
structure StartEnv (α : Type*) where
  connect : ConnectEnv α
  reconnect : TimerEnv

def clientStart (cb : Callbacks α) (e : StartEnv α) (s : Client) : Client :=
  match connectToServer cb e.connect (s.emit .start) with
  | (true, s) => s
  | (false, s) => startReconnectTimer s e.reconnect

def processReconnectTimer (cb : Callbacks α) (e : StartEnv α) (s : Client) : Client :=
  let s := { closeFd s s.reconnectTimerFd with reconnectTimerFd := -1 }
  match connectToServer cb e.connect s with
  | (true, s) => s
  | (false, s) => startReconnectTimer s e.reconnect

/-! ## The API -/

/-- `NAME_client_init()` once the URI has been parsed; `s` is what the memory held before. -/
def clientInit (s : Client) (encodedInSize encodedOutSize : ℕ) : Client :=
  { resetInputEncoded { s with input := { s.input with dataSize := encodedInSize } } with
    encodedSize := encodedOutSize
    serverFd := -1
    keepAliveTimerFd := -1
    reconnectTimerFd := -1
    pendingDisconnect := false
    log := [] }

def clientStop (s : Client) : Client :=
  let s := disconnect s
  let s :=
    if s.reconnectTimerFd ≠ -1 then
      { closeFd s s.reconnectTimerFd with reconnectTimerFd := -1 }
    else s
  s.emit .stop

/-- The answers during one `NAME_client_process()`, and the calls made in its callbacks. -/
structure ProcessEnv (α : Type*) where
  reads : List (ReadEnv α)
  keepAlive : KeepAliveEnv
  start : StartEnv α
  disconnected : List α
  reconnect : TimerEnv

def clientProcess (cb : Callbacks α) (fd : ℤ) (e : ProcessEnv α) (s : Client) : Client :=
  let s := s.emit (.process fd s.serverFd s.keepAliveTimerFd s.pendingDisconnect)
  let s :=
    if fd = s.serverFd then processSocket cb e.reads s
    else if fd = s.keepAliveTimerFd then processKeepAliveTimer s e.keepAlive
    else if fd = s.reconnectTimerFd then processReconnectTimer cb e.start s
    else s
  if s.pendingDisconnect then
    let s := disconnect s
    let s := cb.onDisconnected e.disconnected
      (s.emit (.onDisconnected s.disconnectReason s.serverFd))
    let s := s.emit (.returned .onDisconnected s.pendingDisconnect)
    startReconnectTimer s e.reconnect
  else s

def clientSend (s : Client) (enc : Encoder) (res : WriteRes) : Client :=
  let s := s.emit (.send s.serverFd s.pendingDisconnect)
  match enc (sizeSub s.encodedSize headerSize) with
  | none => pendingDisconnect s .messageEncodeError
  | some payload =>
    match writeMessage s (messageTypeClientToServerUser, payload) res with
    | (true, s) => s
    | (false, s) => pendingDisconnect s .connectionClosed

end Messi.LinuxClient
