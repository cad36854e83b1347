import Messi.Base.ByteMemory
import Messi.Base.Exec
import Messi.Base.PointerList
import Messi.Encoding
import Messi.LinuxServer.State

/-!
# The Linux server

`templates/linux/server.c`, function by function. Every function takes the answers of the
operating system to its own calls: a call that runs out of answers gets `EAGAIN`. The callbacks
are parameters; `α` is the type of the calls that the user's code makes in them.

When `write()` fails while a queue is drained, items of it are freed twice (`meetsError`). What a C
program does from then on is undefined; here the run goes on as if `free()` had done nothing, and
the trace tells that it happened.
-/

namespace Messi.LinuxServer

open ByteMemory

variable {α : Type*}

/-! ## The lists of clients -/

def allocClient (s : Server) : Option Slot × Server :=
  match s.clients.freeListP with
  | none => (none, s)
  | some c =>
    let l := s.clients
    -- Remove from free list.
    let l := { l with freeListP := l.nextP c }
    -- Add to connected list.
    let l := { l with nextP := Function.update l.nextP c l.connectedListP }
    let l := match l.connectedListP with
      | some d => { l with prevP := Function.update l.prevP d (some c) }
      | none => l
    (some c, s.setClients { l with connectedListP := some c })

/-- `remove_client_from_list()`, on the list whose head is `listP`. -/
def removeClientFromList (l : Clients) (listP : Option Slot) (c : Slot) :
    Option Slot × Clients :=
  let r :=
    if some c = listP then (l.nextP c, l)
    else
      match l.prevP c with
      | some p => (listP, { l with nextP := Function.update l.nextP p (l.nextP c) })
      -- a null pointer is dereferenced
      | none => (listP, l)
  match r.2.nextP c with
  | some n => (r.1, { r.2 with prevP := Function.update r.2.prevP n (r.2.prevP c) })
  | none => r

/-- `c` is at the head of a list of at most `n` slots, or its `prev_p` points to its predecessor
there. -/
def unlinkable (n : ℕ) (l : Clients) (listP : Option Slot) (c : Slot) : Bool :=
  listP = some c ||
    (PointerList.walk l.nextP n listP).any fun b => l.prevP c = some b && l.nextP b = some c

def freeConnectedClient (s : Server) (c : Slot) : Server :=
  let s := s.emit (.unlinked c (unlinkable s.clientsMax s.clients s.clients.connectedListP c))
  let r := removeClientFromList s.clients s.clients.connectedListP c
  let l := { r.2 with connectedListP := r.1 }
  -- Add to free list.
  s.setClients { l with nextP := Function.update l.nextP c l.freeListP, freeListP := some c }

def freePendingDisconnectClient (s : Server) (c : Slot) : Server :=
  let s :=
    s.emit (.unlinked c (unlinkable s.clientsMax s.clients s.clients.pendingDisconnectListP c))
  let r := removeClientFromList s.clients s.clients.pendingDisconnectListP c
  let l := { r.2 with pendingDisconnectListP := r.1 }
  -- Add to free list.
  (s.setClients { l with nextP := Function.update l.nextP c l.freeListP, freeListP := some c }).emit
    (.slotFreed c)

def moveClientToPendingDisconnectList (s : Server) (c : Slot) : Server :=
  let s := s.emit (.unlinked c (unlinkable s.clientsMax s.clients s.clients.connectedListP c))
  let r := removeClientFromList s.clients s.clients.connectedListP c
  let l := { r.2 with connectedListP := r.1 }
  -- Add to pending disconnect list.
  s.setClients { l with
    nextP := Function.update l.nextP c l.pendingDisconnectListP
    pendingDisconnectListP := some c }

/-! ## Descriptors -/

def epollCtlAdd (s : Server) (fd : ℤ) (ok : Bool) : Server :=
  s.emit (.epollCtl .add fd ⟨true, false⟩ ok)

def epollCtlDel (s : Server) (fd : ℤ) : Server :=
  s.emit (.epollCtl .del fd ⟨false, false⟩ true)

def epollCtlMod (s : Server) (fd : ℤ) (events : Events) (ok : Bool) : Server :=
  s.emit (.epollCtl .mod fd events ok)

def closeFd (s : Server) (fd : ℤ) : Server :=
  (epollCtlDel s fd).emit (.closed fd)

/-! ## Clients -/

def clientResetInput (s : Server) (c : Slot) : Server :=
  s.setInput c { s.input c with state := .header, size := 0, left := headerSize }

def clientStartKeepAliveTimer (s : Server) (c : Slot) (ok : Bool) : Server :=
  s.emit (.settime (s.keepAliveTimerFd c) ok)

/-- The answers of the operating system when a client connects, and the calls made in
`on_client_connected`. -/
structure AcceptEnv (α : Type*) where
  accept : Option ℤ
  nonBlocking : Bool
  noDelay : Bool
  timer : Option ℤ
  settime : Bool
  addTimer : Bool
  addClient : Bool
  callback : List α

def clientInit (s : Server) (c : Slot) (clientFd : ℤ) (e : AcceptEnv α) : Bool × Server :=
  let s := clientResetInput (s.setClientFd c clientFd) c
  let s := s.setOutput c { s.output c with headP := none }
  let timerFd := sysOpen (openFds s.log) e.timer
  let s := s.setKeepAliveTimerFd c timerFd
  if timerFd = -1 then (false, s)
  else
    let s := clientStartKeepAliveTimer (s.emit (.opened timerFd)) c e.settime
    if !e.settime then (false, s.emit (.closed timerFd))
    else
      let s := epollCtlAdd s timerFd e.addTimer
      if !e.addTimer then (false, s.emit (.closed timerFd))
      else
        let s := epollCtlAdd s clientFd e.addClient
        if !e.addClient then (false, (epollCtlDel s timerFd).emit (.closed timerFd))
        else (true, s)

/-- The loop of `free_client_output()`. -/
def freeItems (c : Slot) : ℕ → Option ℕ → Server → Server
  | 0, _, s => s.emit .outOfFuel
  | _ + 1, none, s => s
  | n + 1, some i, s =>
    let nextP := ((s.output c).items i).nextP
    freeItems c n nextP ((s.emit (.itemUse c i)).emit (.itemFree c i))

def freeClientOutput (s : Server) (c : Slot) : Server :=
  let itemP := (s.output c).headP
  let s := s.setOutput c { s.output c with headP := none }
  freeItems c ((s.output c).brk + 1) itemP s

def clientPendingDisconnect (s : Server) (c : Slot) : Server :=
  -- Already pending disconnect?
  if s.clientFd c = -1 then s
  else
    let s := closeFd s (s.clientFd c)
    let s := s.setClientFd c (-1)
    let s := freeClientOutput s c
    (moveClientToPendingDisconnectList s c).emit (.pendingDisconnect c)

/-- The callbacks: what the calls that the user's code makes in them do. -/
structure Callbacks (α : Type*) where
  onClientConnected : List α → Server → Exec Server Unit
  onMessage : List α → Server → Exec Server Unit
  onClientDisconnected : List α → Server → Exec Server Unit

/-- The loop of `destroy_pending_disconnect_clients()`. -/
def destroyClients (cb : Callbacks α) (e : Slot → List α) :
    ℕ → Option Slot → Server → Exec Server Unit
  | 0, _, s => .done () (s.emit .outOfFuel)
  | _ + 1, none, s => .done () s
  | n + 1, some c, s =>
    let s := closeFd s (s.keepAliveTimerFd c)
    let s := s.setKeepAliveTimerFd c (-1)
    (cb.onClientDisconnected (e c) (s.emit (.onClientDisconnected c))).bind fun _ s =>
      let nextClientP := s.clients.nextP c
      destroyClients cb e n nextClientP (freePendingDisconnectClient s c)

def destroyPendingDisconnectClients (cb : Callbacks α) (e : Slot → List α) (s : Server) :
    Exec Server Unit :=
  destroyClients cb e (s.clientsMax + 1) s.clients.pendingDisconnectListP s

def processListener (cb : Callbacks α) (e : AcceptEnv α) (s : Server) : Exec Server Unit :=
  let clientFd := sysOpen (openFds s.log) e.accept
  if clientFd = -1 then .done () s
  else
    let s := s.emit (.opened clientFd)
    if !e.nonBlocking then .done () (s.emit (.closed clientFd))
    else if !e.noDelay then .done () (s.emit (.closed clientFd))
    else
      match allocClient s with
      | (none, s) => .done () (s.emit (.closed clientFd))
      | (some c, s) =>
        match clientInit s c clientFd e with
        | (false, s) => .done () ((freeConnectedClient s c).emit (.closed clientFd))
        | (true, s) => cb.onClientConnected e.callback (s.emit (.onClientConnected c))

/-! ## Output -/

/-- The answers of the operating system to the calls of one `client_write()`. -/
structure WriteEnv where
  writes : List WriteRes
  malloc : Bool
  mod : Bool

def clientOutputAppend (s : Server) (c : Slot) (buf : List UInt8) (e : WriteEnv) : Server :=
  let o := s.output c
  if !e.malloc then s.emit (.malloc c none)
  else
    let item := o.brk
    let s := s.emit (.malloc c (some item))
    let o := { o with brk := o.brk + 1 }
    let o := o.setItem item { offset := 0, size := buf.length, nextP := none, data := buf }
    match o.headP with
    | none =>
      let s := s.setOutput c { o with headP := some item, tailP := some item }
      epollCtlMod s (s.clientFd c) ⟨true, true⟩ e.mod
    | some _ =>
      match o.tailP with
      | some t =>
        let o := o.setItem t { o.items t with nextP := some item }
        (s.emit (.itemUse c t)).setOutput c { o with tailP := some item }
      -- a null pointer is dereferenced
      | none => s.setOutput c { o with tailP := some item }

/-- The loop of `client_write()`, with `size` bytes from `offset` on left to be written. -/
def writeLoop (c : Slot) (buf : List UInt8) (e : WriteEnv) :
    List WriteRes → ℕ → ℕ → Server → Server
  | [], offset, size, s =>
    if 0 < size then
      match sysWrite (s.clientFd c) size .eagain with
      | .eagain => clientOutputAppend (s.emit (.write c (s.clientFd c) [])) c (buf.drop offset) e
      | _ => clientPendingDisconnect (s.emit (.write c (s.clientFd c) [])) c
    else s
  | w :: ws, offset, size, s =>
    if 0 < size then
      match sysWrite (s.clientFd c) size w with
      | .accepted n =>
        let s := s.emit (.write c (s.clientFd c) ((buf.drop offset).take n))
        if n = size then s
        else if 0 < n then writeLoop c buf e ws (offset + n) (size - n) s
        else clientPendingDisconnect s c
      | .eagain => clientOutputAppend (s.emit (.write c (s.clientFd c) [])) c (buf.drop offset) e
      | .error => clientPendingDisconnect (s.emit (.write c (s.clientFd c) [])) c
    else s

def clientWrite (s : Server) (c : Slot) (buf : List UInt8) (e : WriteEnv) : Server :=
  if (s.output c).headP ≠ none then clientOutputAppend s c buf e
  else writeLoop c buf e e.writes 0 buf.length s

/-- The loop of `process_client_socket_out()`, which returns its `item_p`. -/
def socketOutLoop (c : Slot) : List WriteRes → Option ℕ → Server → Option ℕ × Server
  | _, none, s => (none, s)
  | [], some i, s => (some i, (s.emit (.itemUse c i)).emit (.write c (s.clientFd c) []))
  | w :: ws, some i, s =>
    let item := (s.output c).items i
    let s := s.emit (.itemUse c i)
    match sysWrite (s.clientFd c) item.size w with
    | .accepted n =>
      let s := s.emit (.write c (s.clientFd c) ((item.data.drop item.offset).take n))
      if n = item.size then socketOutLoop c ws item.nextP (s.emit (.itemFree c i))
      else if 0 < n then
        let item := { item with offset := item.offset + n, size := item.size - n }
        socketOutLoop c ws (some i) (s.setOutput c ((s.output c).setItem i item))
      else (some i, clientPendingDisconnect s c)
    | .eagain => (some i, s.emit (.write c (s.clientFd c) []))
    | .error => (some i, clientPendingDisconnect (s.emit (.write c (s.clientFd c) [])) c)

def processClientSocketOut (s : Server) (c : Slot) (writes : List WriteRes) (mod : Bool) :
    Server :=
  let (itemP, s) := socketOutLoop c writes (s.output c).headP s
  let s := s.setOutput c { s.output c with headP := itemP }
  if itemP = none then epollCtlMod s (s.clientFd c) ⟨true, false⟩ mod else s

/-! ## Input -/

/-- The answers at one turn of the loop of `process_client_socket_in()`: the result of `read()`,
and what `handle_message()` meets if it is called. -/
structure ReadEnv (α : Type*) where
  res : ReadRes
  /-- `NAME_client_to_server_new()` returned a message. -/
  new : Bool
  /-- `NAME_client_to_server_decode()` decoded the whole payload. -/
  decode : Bool
  callback : List α
  settime : Bool
  pong : WriteEnv

/-- The bytes in the client's input buffer. -/
def inputBytes (s : Server) (c : Slot) : List UInt8 :=
  slice s.inputBufs (s.input c).bufP (s.input c).size

/-- `read()` with its result: the bytes are stored behind those already in the buffer. -/
def readBytes (s : Server) (c : Slot) (bs : List UInt8) : Server :=
  let i := s.input c
  let s := s.emit (.read c (s.clientFd c) (i.bufP + i.size) i.left bs)
  let s := { s with inputBufs := write s.inputBufs (i.bufP + i.size) bs }
  s.setInput c { i with size := i.size + bs.length, left := i.left - bs.length }

/-- `*header_p`. -/
def inputHeader (s : Server) (c : Slot) : Header :=
  Header.ofBytes (slice s.inputBufs (s.input c).bufP headerSize)

/-- What is done with a whole header; the result is false for a message that is too big. -/
def loadHeader (s : Server) (c : Slot) : Bool × Server :=
  if (s.input c).state = .header then
    let s := s.setInput c { s.input c with left := (headerGetSize (inputHeader s c)).toNat }
    if (s.input c).left + headerSize > (s.input c).dataSize then (false, s)
    else (true, s.setInput c { s.input c with state := .payload })
  else (true, s)

def handleMessageUser (cb : Callbacks α) (c : Slot) (e : ReadEnv α) (s : Server) :
    Exec Server Bool :=
  if !e.new then .done false s
  else if !e.decode then .done false s
  else
    (cb.onMessage e.callback (s.setCurrentClientP (some c))).bind fun _ s =>
      .done true (s.setCurrentClientP none)

def handleMessagePing (c : Slot) (e : ReadEnv α) (s : Server) : Bool × Server :=
  let s := clientStartKeepAliveTimer s c e.settime
  if !e.settime then (false, s)
  else
    let pong : Message := (messageTypePong, [])
    (true, clientWrite (s.emit (.frame c pong)) c (frameBytes pong) e.pong)

/-- `handle_message()`; the result is true for zero. -/
def handleMessage (cb : Callbacks α) (c : Slot) (e : ReadEnv α) (s : Server) :
    Exec Server Bool :=
  let type := (inputHeader s c).type
  let s := s.emit (.handleMessage c (type, (inputBytes s c).drop headerSize))
  if type = messageTypeClientToServerUser then handleMessageUser cb c e s
  else if type = messageTypePing then
    let (res, s) := handleMessagePing c e s
    .done res s
  else .done false s

def processClientSocketIn (cb : Callbacks α) (c : Slot) :
    List (ReadEnv α) → Server → Exec Server Unit
  | [], s => .done () (readBytes s c [])
  | e :: es, s =>
    match sysRead (s.clientFd c) (s.input c).left e.res with
    | .eagain => .done () (readBytes s c [])
    | .error => .done () (clientPendingDisconnect (readBytes s c []) c)
    | .data [] => .done () (clientPendingDisconnect (readBytes s c []) c)
    | .data (b :: bs) =>
      let s := readBytes s c (b :: bs)
      if 0 < (s.input c).left then processClientSocketIn cb c es s
      else
        match loadHeader s c with
        | (false, s) => .done () (clientPendingDisconnect s c)
        | (true, s) =>
          if (s.input c).left = 0 then
            (handleMessage cb c e s).bind fun res s =>
              if res then processClientSocketIn cb c es (clientResetInput s c)
              else .done () ((clientPendingDisconnect s c).emit (.handleFailed c))
          else processClientSocketIn cb c es s

/-! ## Events -/

/-- The answers during one `NAME_server_process()`, and the calls made in its callbacks. -/
structure ProcessEnv (α : Type*) where
  accept : AcceptEnv α
  writes : List WriteRes
  mod : Bool
  reads : List (ReadEnv α)
  disconnected : Slot → List α

def processClientSocket (cb : Callbacks α) (c : Slot) (events : Events) (e : ProcessEnv α)
    (s : Server) : Exec Server Unit :=
  let s := if events.epollOut then processClientSocketOut s c e.writes e.mod else s
  if events.epollIn then processClientSocketIn cb c e.reads s else .done () s

def processClientKeepAliveTimer (s : Server) (c : Slot) : Server :=
  clientPendingDisconnect s c

/-- The search of `NAME_server_process()` for the client that a descriptor belongs to. -/
def processClients (cb : Callbacks α) (fd : ℤ) (events : Events) (e : ProcessEnv α) :
    ℕ → Option Slot → Server → Exec Server Unit
  | 0, _, s => .done () (s.emit .outOfFuel)
  | _ + 1, none, s => .done () s
  | n + 1, some c, s =>
    if fd = s.clientFd c then processClientSocket cb c events e s
    else if fd = s.keepAliveTimerFd c then .done () (processClientKeepAliveTimer s c)
    else processClients cb fd events e n (s.clients.nextP c) s

def serverProcess (cb : Callbacks α) (fd : ℤ) (events : Events) (e : ProcessEnv α)
    (s : Server) : Exec Server Unit :=
  (if fd = s.listenerFd then processListener cb e.accept s
    else processClients cb fd events e (s.clientsMax + 1) s.clients.connectedListP s).bind
    fun _ s => destroyPendingDisconnectClients cb e.disconnected s

/-! ## Sending -/

/-- The message in `output.encoded`, whose first bytes are then its frame. -/
def encodeUserMessage (s : Server) (enc : Encoder) : Option Message :=
  encodeInto messageTypeServerToClientUser s.encodedSize enc

/-- `client_write()` of a message. -/
def issueMessage (s : Server) (c : Slot) (m : Message) (e : WriteEnv) : Server :=
  clientWrite (s.emit (.frame c m)) c (frameBytes m) e

def serverSend (s : Server) (c : Slot) (enc : Encoder) (e : WriteEnv) : Server :=
  match encodeUserMessage s enc with
  | none => s
  | some m => issueMessage s c m e

def serverReply (s : Server) (enc : Encoder) (e : WriteEnv) : Server :=
  match s.currentClientP with
  | some c => serverSend s c enc e
  | none => s

/-- The loop of `NAME_server_broadcast()`. -/
def broadcastLoop (m : Message) (e : Slot → WriteEnv) : ℕ → Option Slot → Server → Server
  | 0, _, s => s.emit .outOfFuel
  | _ + 1, none, s => s
  | n + 1, some c, s =>
    let nextClientP := s.clients.nextP c
    broadcastLoop m e n nextClientP (issueMessage s c m (e c))

def serverBroadcast (s : Server) (enc : Encoder) (e : Slot → WriteEnv) : Server :=
  -- Create the message.
  match encodeUserMessage s enc with
  | none => s
  -- Send it to all clients.
  | some m => broadcastLoop m e (s.clientsMax + 1) s.clients.connectedListP s

def serverDisconnect (s : Server) (c : Option Slot) : Server :=
  match (if c = none then s.currentClientP else c) with
  | none => s
  | some c => clientPendingDisconnect s c

/-! ## Starting and stopping -/

/-- `NAME_server_init()` once the URI has been parsed; `s` is what the memory held before. -/
def serverInit (s : Server) (clientsMax clientInputSize messageSize : ℕ) : Server :=
  { s with
    clients := { s.clients with
      freeListP := some 0
      inputBufferSize := clientInputSize
      nextP := fun i =>
        if i < clientsMax - 1 then some (i + 1)
        else if i = clientsMax - 1 then none
        else s.clients.nextP i
      connectedListP := none
      pendingDisconnectListP := none }
    input := fun i =>
      if i ≤ clientsMax - 1 then
        { s.input i with bufP := i * clientInputSize, dataSize := clientInputSize }
      else s.input i
    encodedSize := messageSize
    currentClientP := none
    clientsMax := clientsMax
    log := [] }

/-- The answers of the operating system when the server is started; `inetAton` is also true when
there is no address to be parsed. -/
structure StartEnv where
  socket : Option ℤ
  reuseAddr : Bool
  inetAton : Bool
  bind : Bool
  listen : Bool
  nonBlocking : Bool
  addListener : Bool

def serverStart (s : Server) (e : StartEnv) : ℤ × Server :=
  let listenerFd := sysOpen (openFds s.log) e.socket
  if listenerFd = -1 then (1, s)
  else
    let s := s.emit (.opened listenerFd)
    if !(e.reuseAddr && e.inetAton && e.bind && e.listen && e.nonBlocking) then
      (-1, s.emit (.closed listenerFd))
    else
      let s := epollCtlAdd s listenerFd e.addListener
      if !e.addListener then (-1, s.emit (.closed listenerFd))
      else (0, { s with listenerFd := listenerFd })

/-- The loop of `NAME_server_stop()`. -/
def stopClients : ℕ → Option Slot → Server → Server
  | 0, _, s => s.emit .outOfFuel
  | _ + 1, none, s => s
  | n + 1, some c, s =>
    let s := closeFd s (s.clientFd c)
    let s := closeFd s (s.keepAliveTimerFd c)
    let s := freeClientOutput s c
    let nextClientP := s.clients.nextP c
    let s := s.setClients { s.clients with
      nextP := Function.update s.clients.nextP c s.clients.freeListP
      freeListP := some c }
    stopClients n nextClientP (s.emit (.slotStopped c))

def serverStop (s : Server) : Server :=
  let s := closeFd s s.listenerFd
  stopClients (s.clientsMax + 1) s.clients.connectedListP s

end Messi.LinuxServer
