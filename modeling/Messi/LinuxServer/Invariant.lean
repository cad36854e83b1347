import Messi.LinuxServer.Lists
import Messi.LinuxServer.Log

/-!
# The invariant of the server

A `View` is what the server's data structures stand for: which slots its lists hold, which callback
is running, which slot is being worked on. `Good sz s v` says that the state `s` stands for `v`
and that the streams of every connection are in order: what its socket has accepted and what is
queued is what has been issued (`OutputOk`), what has been handled is what has been received
(`Received`), and the server waits for the rest of it (`Waiting`). The slot that is being worked on
is excepted.

The part about reception needs input buffers that hold a header at least.
-/

namespace Messi.LinuxServer

open Framing PointerList ByteMemory

/-! ## Streams of one connection -/

def OutputItem.bytes (item : OutputItem) : List UInt8 := (item.data.drop item.offset).take item.size

/-- The bytes of the items of a queue. -/
def itemsBytes (o : Output) (q : List ℕ) : List UInt8 := q.flatMap fun i => (o.items i).bytes

/-- The output queue is the list `q` of items. -/
structure Queue (o : Output) (q : List ℕ) : Prop where
  links : Links (fun i => (o.items i).nextP) o.headP q
  bound : ∀ i ∈ q, i < o.brk
  tail : q ≠ [] → o.tailP = q.getLast?

/-- The output queue ends. -/
def QueueEnds (o : Output) : Prop :=
  ∃ q, Links (fun i => (o.items i).nextP) o.headP q ∧ q.length ≤ o.brk

/-- What the socket of a connection has accepted, what is queued, and then `bs`, is what has been
issued to the connection. -/
def Owes (s : Server) (c : Slot) (q : List ℕ) (bs : List UInt8) : Prop :=
  mallocOk c s.log →
    accepted c s.log ++ (itemsBytes (s.output c) q ++ bs) = (issued c s.log).flatMap frameBytes

def OutputOk (s : Server) (c : Slot) : Prop := ∃ q, Queue (s.output c) q ∧ Owes s c q []

/-- What the socket of a connection has accepted has been issued to it. -/
def Sent (s : Server) (c : Slot) : Prop :=
  mallocOk c s.log → accepted c s.log <+: (issued c s.log).flatMap frameBytes

/-- The complete messages among the bytes that a connection has received have been handled. -/
def Received (sz : ℕ) (s : Server) (c : Slot) : Prop :=
  handled c s.log = (parse messi (fits sz) (received c s.log)).1.map messageOf

/-- The bytes received after the last complete message. -/
def pendingBytes (sz : ℕ) (s : Server) (c : Slot) : List UInt8 :=
  (parse messi (fits sz) (received c s.log)).2

/-- The input buffer holds what has been received of a message, and `left` is what it lacks. -/
structure Waiting (sz : ℕ) (s : Server) (c : Slot) : Prop where
  bytes : pendingBytes sz s c = inputBytes s c
  left : Awaits sz (decide ((s.input c).state = .payload)) (inputBytes s c) (s.input c).left

/-! ## The server -/

/-- The callback that is running. -/
inductive Place where
  | top
  | message (c : Slot)
  | disconnected (c : Slot)
  deriving DecidableEq

/-- What the server's data structures stand for. -/
structure View where
  connected : List Slot
  free : List Slot
  pending : List Slot
  place : Place
  current : Option Slot
  /-- The slot whose streams are being worked on. -/
  busy : Option Slot
  listening : Bool
  /-- Further open descriptors. -/
  fds : List ℤ

/-- The descriptors that a connected slot owns. -/
def connectedFds (s : Server) (c : Slot) : List ℤ := [s.clientFd c, s.keepAliveTimerFd c]

/-- The descriptors that a pending slot owns. -/
def pendingFds (s : Server) (p : Place) (c : Slot) : List ℤ :=
  if p = .disconnected c then [] else [s.keepAliveTimerFd c]

/-- The descriptors that should be open. -/
def View.owned (v : View) (s : Server) : List ℤ :=
  (if v.listening then [s.listenerFd] else []) ++
    (v.fds ++ (v.connected.flatMap (connectedFds s) ++ v.pending.flatMap (pendingFds s v.place)))

/-- The lists of slots, and what the slots in them are like. -/
structure SlotsOk (s : Server) (v : View) : Prop where
  lists : SlotLists s.clients v.connected v.free v.pending
  all : (v.connected ++ (v.free ++ v.pending)).Perm (List.range s.clientsMax)
  connectedFd : ∀ c ∈ v.connected, s.clientFd c ≠ -1
  pendingFd : ∀ c ∈ v.pending, s.clientFd c = -1
  connectedPhase : ∀ c ∈ v.connected, phase c s.log = some .connected
  pendingPhase : ∀ c ∈ v.pending,
    phase c s.log = some (if v.place = .disconnected c then .notified else .pending)
  freePhase : ∀ c, c ∉ v.connected → c ∉ v.pending → phase c s.log = some .free
  current : s.currentClientP = v.current
  currentPlace : ∀ c, v.current = some c → v.place = .message c
  message : ∀ c, v.place = .message c → c ∈ v.connected ∨ c ∈ v.pending
  disconnected : ∀ c, v.place = .disconnected c → c ∈ v.pending

/-- Reception, with input buffers that hold a header. -/
structure Reception (sz : ℕ) (s : Server) (v : View) : Prop where
  waiting : ∀ c ∈ v.connected, v.busy ≠ some c → v.place ≠ .message c → Waiting sz s c
  received : ∀ c, v.busy ≠ some c → Received sz s c
  message : ∀ c, v.place = .message c → pendingBytes sz s c = []

/-- The state stands for the view, and the streams are in order. -/
structure Good (sz : ℕ) (s : Server) (v : View) : Prop where
  slots : SlotsOk s v
  fds : (openFds s.log).Perm (v.owned s)
  log : LogOk sz s.log
  buffers : ∀ c < s.clientsMax, (s.input c).bufP = c * sz ∧ (s.input c).dataSize = sz
  ends : ∀ c ∈ v.connected, QueueEnds (s.output c)
  notEnded : ∀ c ∈ v.connected, ended c s.log = false
  sent : ∀ c, Sent s c
  output : ∀ c ∈ v.connected, v.busy ≠ some c → OutputOk s c
  reception : headerSize ≤ sz → Reception sz s v

/-! ## States that agree -/

/-- The states agree on the slots. -/
structure SameSlots (s s' : Server) : Prop where
  clients : s'.clients = s.clients
  clientFd : s'.clientFd = s.clientFd
  keepAliveTimerFd : s'.keepAliveTimerFd = s.keepAliveTimerFd
  listenerFd : s'.listenerFd = s.listenerFd
  currentClientP : s'.currentClientP = s.currentClientP
  clientsMax : s'.clientsMax = s.clientsMax
  phase : ∀ c, phase c s'.log = phase c s.log

/-- The states agree on the input of a slot. -/
structure SameInput (c : Slot) (s s' : Server) : Prop where
  input : s'.input c = s.input c
  bytes : inputBytes s' c = inputBytes s c
  received : received c s'.log = received c s.log
  handled : handled c s'.log = handled c s.log
  ended : ended c s'.log = ended c s.log

/-- The states agree on the output of a slot. -/
structure SameOutput (c : Slot) (s s' : Server) : Prop where
  output : s'.output c = s.output c
  accepted : accepted c s'.log = accepted c s.log
  issued : issued c s'.log = issued c s.log
  mallocOk : mallocOk c s'.log = mallocOk c s.log

section

variable {sz : ℕ} {s s' s'' t : Server} {v : View} {c d : Slot} {e : Event}

theorem SameSlots.trans (h : SameSlots s s') (h' : SameSlots s' s'') : SameSlots s s'' where
  clients := h'.clients.trans h.clients
  clientFd := h'.clientFd.trans h.clientFd
  keepAliveTimerFd := h'.keepAliveTimerFd.trans h.keepAliveTimerFd
  listenerFd := h'.listenerFd.trans h.listenerFd
  currentClientP := h'.currentClientP.trans h.currentClientP
  clientsMax := h'.clientsMax.trans h.clientsMax
  phase c := (h'.phase c).trans (h.phase c)

theorem SameInput.trans (h : SameInput c s s') (h' : SameInput c s' s'') : SameInput c s s'' where
  input := h'.input.trans h.input
  bytes := h'.bytes.trans h.bytes
  received := h'.received.trans h.received
  handled := h'.handled.trans h.handled
  ended := h'.ended.trans h.ended

theorem SameOutput.trans (h : SameOutput c s s') (h' : SameOutput c s' s'') :
    SameOutput c s s'' where
  output := h'.output.trans h.output
  accepted := h'.accepted.trans h.accepted
  issued := h'.issued.trans h.issued
  mallocOk := h'.mallocOk.trans h.mallocOk

theorem SameSlots.refl (s : Server) : SameSlots s s :=
  ⟨rfl, rfl, rfl, rfl, rfl, rfl, fun _ => rfl⟩

theorem SameInput.refl (c : Slot) (s : Server) : SameInput c s s := ⟨rfl, rfl, rfl, rfl, rfl⟩

theorem SameOutput.refl (c : Slot) (s : Server) : SameOutput c s s := ⟨rfl, rfl, rfl, rfl⟩

theorem SameSlots.emit (s : Server) (he : e.ofSlots = false) : SameSlots s (s.emit e) :=
  ⟨rfl, rfl, rfl, rfl, rfl, rfl, fun _ => phase_cons he⟩

theorem SameInput.emit (s : Server) (he : e.input? ≠ some c) : SameInput c s (s.emit e) :=
  ⟨rfl, rfl, received_cons he, handled_cons he, ended_cons he⟩

theorem SameOutput.emit (s : Server) (he : e.output? ≠ some c) : SameOutput c s (s.emit e) :=
  ⟨rfl, accepted_cons he, issued_cons he, mallocOk_cons he⟩

theorem SameSlots.setOutput (s : Server) (d : Slot) (o : Output) : SameSlots s (s.setOutput d o) :=
  ⟨rfl, rfl, rfl, rfl, rfl, rfl, fun _ => rfl⟩

theorem SameInput.setOutput (s : Server) (c d : Slot) (o : Output) :
    SameInput c s (s.setOutput d o) := ⟨rfl, rfl, rfl, rfl, rfl⟩

theorem SameOutput.setOutput (s : Server) (o : Output) (hcd : c ≠ d) :
    SameOutput c s (s.setOutput d o) :=
  ⟨Function.update_of_ne hcd _ _, rfl, rfl, rfl⟩

theorem SameSlots.setInput (s : Server) (d : Slot) (i : Input) : SameSlots s (s.setInput d i) :=
  ⟨rfl, rfl, rfl, rfl, rfl, rfl, fun _ => rfl⟩

theorem SameOutput.setInput (s : Server) (c d : Slot) (i : Input) :
    SameOutput c s (s.setInput d i) := ⟨rfl, rfl, rfl, rfl⟩

theorem SameInput.setInput (s : Server) (i : Input) (hcd : c ≠ d) :
    SameInput c s (s.setInput d i) := by
  have h : (s.setInput d i).input c = s.input c := Function.update_of_ne hcd _ _
  refine ⟨h, ?_, rfl, rfl, rfl⟩
  unfold inputBytes
  rw [h]
  rfl

/-! ## What agreeing states share -/

theorem SlotsOk.congr (h : SlotsOk s v) (hs : SameSlots s s') : SlotsOk s' v where
  lists := hs.clients ▸ h.lists
  all := hs.clientsMax ▸ h.all
  connectedFd := hs.clientFd ▸ h.connectedFd
  pendingFd := hs.clientFd ▸ h.pendingFd
  connectedPhase c hc := (hs.phase c).trans (h.connectedPhase c hc)
  pendingPhase c hc := (hs.phase c).trans (h.pendingPhase c hc)
  freePhase c hc hp := (hs.phase c).trans (h.freePhase c hc hp)
  current := hs.currentClientP.trans h.current
  currentPlace := h.currentPlace
  message := h.message
  disconnected := h.disconnected

theorem View.owned_congr (hs : SameSlots s s') : v.owned s' = v.owned s := by
  unfold owned connectedFds LinuxServer.pendingFds
  rw [hs.listenerFd, hs.clientFd, hs.keepAliveTimerFd]

theorem flatMap_connectedFds {l : List Slot} (h : ∀ d ∈ l, t.clientFd d = s.clientFd d ∧
    t.keepAliveTimerFd d = s.keepAliveTimerFd d) :
    l.flatMap (connectedFds t) = l.flatMap (connectedFds s) := by
  refine List.flatMap_congr fun d hd => ?_
  unfold connectedFds
  rw [(h d hd).1, (h d hd).2]

theorem flatMap_pendingFds {l : List Slot} {p : Place}
    (h : ∀ d ∈ l, t.keepAliveTimerFd d = s.keepAliveTimerFd d) :
    l.flatMap (LinuxServer.pendingFds t p) = l.flatMap (LinuxServer.pendingFds s p) := by
  refine List.flatMap_congr fun d hd => ?_
  unfold LinuxServer.pendingFds
  rw [h d hd]

theorem OutputOk.congr (h : OutputOk s c) (hs : SameOutput c s s') : OutputOk s' c := by
  obtain ⟨q, hq, ho⟩ := h
  refine ⟨q, hs.output ▸ hq, ?_⟩
  unfold Owes at ho ⊢
  rw [hs.accepted, hs.issued, hs.mallocOk, hs.output]
  exact ho

theorem Sent.congr (h : Sent s c) (ha : accepted c s'.log = accepted c s.log)
    (hi : issued c s'.log = issued c s.log) (hm : mallocOk c s'.log = mallocOk c s.log) :
    Sent s' c := by
  unfold Sent at h ⊢
  rw [ha, hi, hm]
  exact h

theorem SameOutput.sent (hs : SameOutput c s s') (h : Sent s c) : Sent s' c :=
  h.congr hs.accepted hs.issued hs.mallocOk

theorem Received.congr (h : Received sz s c) (hh : handled c s'.log = handled c s.log)
    (hr : received c s'.log = received c s.log) : Received sz s' c := by
  unfold Received at h ⊢
  rw [hh, hr]
  exact h

theorem pendingBytes_congr (hr : received c s'.log = received c s.log) :
    pendingBytes sz s' c = pendingBytes sz s c := by
  unfold pendingBytes
  rw [hr]

theorem Waiting.congr (h : Waiting sz s c) (hs : SameInput c s s') : Waiting sz s' c := by
  refine ⟨(pendingBytes_congr hs.received).trans (h.bytes.trans hs.bytes.symm), ?_⟩
  rw [hs.input, hs.bytes]
  exact h.left

/-- Only the streams of the slot that is being worked on may change, and these in order. -/
theorem Good.of_same (h : Good sz s v) (hs : SameSlots s s')
    (hopen : openFds s'.log = openFds s.log)
    (hin : headerSize ≤ sz → ∀ c ∈ v.connected, v.busy ≠ some c → SameInput c s s')
    (hended : ∀ c ∈ v.connected, ended c s'.log = ended c s.log)
    (hhandled : ∀ c, v.busy ≠ some c → handled c s'.log = handled c s.log)
    (hreceived : ∀ c, v.busy ≠ some c ∨ v.place = .message c →
      received c s'.log = received c s.log)
    (hbuf : ∀ c, (s'.input c).bufP = (s.input c).bufP ∧
      (s'.input c).dataSize = (s.input c).dataSize)
    (hout : ∀ c, v.busy ≠ some c → SameOutput c s s')
    (hends : ∀ c ∈ v.connected, v.busy = some c → QueueEnds (s'.output c))
    (hsent : ∀ c, v.busy = some c → Sent s' c) (hlog : LogOk sz s'.log) : Good sz s' v where
  slots := h.slots.congr hs
  fds := by
    rw [hopen, View.owned_congr hs]
    exact h.fds
  log := hlog
  buffers c hc := by
    rw [(hbuf c).1, (hbuf c).2]
    exact h.buffers c (hs.clientsMax ▸ hc)
  ends c hc := by
    by_cases hb : v.busy = some c
    · exact hends c hc hb
    · exact (hout c hb).output ▸ h.ends c hc
  notEnded c hc := (hended c hc).trans (h.notEnded c hc)
  sent c := by
    by_cases hb : v.busy = some c
    · exact hsent c hb
    · exact (hout c hb).sent (h.sent c)
  output c hc hb := (h.output c hc hb).congr (hout c hb)
  reception hsz := by
    have hr := h.reception hsz
    exact ⟨fun c hc hb hp => (hr.waiting c hc hb hp).congr (hin hsz c hc hb),
      fun c hb => (hr.received c hb).congr (hhandled c hb) (hreceived c (Or.inl hb)),
      fun c hp => (pendingBytes_congr (hreceived c (Or.inr hp))).trans (hr.message c hp)⟩

/-- An event that no observation is about. -/
theorem Good.emit (h : Good sz s v) (he : e.Neutral) (hok : EventOk sz s.log e) :
    Good sz (s.emit e) v := by
  have hi : ∀ c, SameInput c s (s.emit e) := fun c => SameInput.emit s (by simp [he.input])
  have ho : ∀ c, SameOutput c s (s.emit e) := fun c => SameOutput.emit s (by simp [he.output])
  exact h.of_same (SameSlots.emit s he.ofSlots) (openFds_cons he.ofFds) (fun _ c _ _ => hi c)
    (fun c _ => (hi c).ended) (fun c _ => (hi c).handled) (fun c _ => (hi c).received)
    (fun c => ⟨rfl, rfl⟩) (fun c _ => ho c)
    (fun c hc _ => h.ends c hc) (fun c _ => (ho c).sent (h.sent c)) ⟨hok, h.log⟩

end

end Messi.LinuxServer
