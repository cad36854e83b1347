import Messi.Connection.Ends

/-!
# A connection is two queues

Any of the three clients and either of the two servers, with a connection between them, in any order
of what the two do: whatever is read and written at once, cut anywhere, queued and drained, and
whatever happens on other connections of the server meanwhile, a message is handled at one end just
when it is the next one of those that have been issued at the other end. So both directions are
queues of messages (`connection_is_two_queues`), as long as each end has what it relies on: a
session is one of two sound parties (`Setup.Sound`).
-/

namespace Messi.Connection

/-- A client that has been generated. -/
inductive ClientEnd where
  | linux (x : LinuxClient.Setup)
  | async (x : AsyncClient.Setup)
  /-- The connections that a main task of the Python client makes. -/
  | python (t : ℕ)

inductive ServerEnd where
  | linux (x : LinuxServer.Setup)
  | async (x : AsyncServer.Setup)

def ClientEnd.State : ClientEnd → Type
  | .linux _ => LinuxClient.Client
  | .async _ => AsyncClient.Client
  | .python _ => PyClient.Client

def ServerEnd.State : ServerEnd → Type
  | .linux _ => LinuxServer.Server
  | .async _ => AsyncServer.Server

def ClientEnd.party : (k : ClientEnd) → Party k.State messages
  | .linux x => x.party
  | .async x => x.party
  | .python t => PyClient.party t

def ServerEnd.party : (j : ServerEnd) → Party j.State messages
  | .linux x => x.party
  | .async x => x.party

section

variable {k : ClientEnd} {j : ServerEnd}

/-- The messages that the client has issued on the connection, and those that the server has
handled. -/
def toServer (p : Session k.party j.party) : Fifo Message :=
  .between (k.party.traffic p.left).issued (j.party.traffic p.right).handled

def toClient (p : Session k.party j.party) : Fifo Message :=
  .between (j.party.traffic p.right).issued (k.party.traffic p.left).handled

/-- What happens between the two on a connection happens to two queues, which hold what has been
issued and not handled; and a queue is empty when nothing is held back or under way any more, if
every message fits in the input buffer. -/
structure TwoQueues (p q : Session k.party j.party) : Prop where
  toServer : Fifo.Steps (toServer p) (toServer q)
  toClient : Fifo.Steps (toClient p) (toClient q)
  allToServer : (Connection.toServer q).all = (k.party.traffic q.left).issued
  allToClient : (Connection.toClient q).all = (j.party.traffic q.right).issued
  drainedToServer : k.party.Flushed q.left →
    (j.party.traffic q.right).received = (k.party.traffic q.left).accepted →
    (∀ m ∈ (k.party.traffic q.left).issued, j.party.Fits m) → (Connection.toServer q).content = []
  drainedToClient : j.party.Flushed q.right →
    (k.party.traffic q.left).received = (j.party.traffic q.right).accepted →
    (∀ m ∈ (j.party.traffic q.right).issued, k.party.Fits m) → (Connection.toClient q).content = []

theorem connection_is_two_queues (k : ClientEnd) (j : ServerEnd) (p q : Session k.party j.party)
    (h : Session.Steps p q) : TwoQueues p q where
  toServer := h.rightward messages_mono
  toClient := h.leftward messages_mono
  allToServer := Fifo.all_between (q.handled_right messages_mono)
  allToClient := Fifo.all_between (q.handled_left messages_mono)
  drainedToServer hflushed hall hfit := by
    unfold Connection.toServer
    rw [q.drained_right hflushed hall hfit]
    exact Fifo.content_between_self _
  drainedToClient hflushed hall hfit := by
    unfold Connection.toClient
    rw [q.drained_left hflushed hall hfit]
    exact Fifo.content_between_self _

end

/-! ## A connection -/

namespace Sample

def asyncClient : AsyncClient.Setup :=
  ⟨AsyncClient.Sample.memory, 16, 64, AsyncClient.Sample.anything, by decide⟩

/-- A server with one slot. -/
def linuxServer : LinuxServer.Setup where
  memory := LinuxServer.Sample.memory
  clientsMax := 1
  inputSize := 16
  messageSize := 64
  startEnv := LinuxServer.Sample.start
  start := LinuxServer.Sample.server 1 16
  callInDisconnected := false
  depth := 0
  slot := 0
  clientsMax_pos := by decide
  header_fits := by decide
  started := rfl

def clientAfter (steps : List AsyncClient.Step) : AsyncClient.Client :=
  AsyncClient.run AsyncClient.Sample.anything (AsyncClient.Sample.connectSteps ++ steps)
    asyncClient.init

def serverAfter (calls : List LinuxServer.Call) : LinuxServer.Server :=
  (LinuxServer.run linuxServer.discipline 0 (LinuxServer.Sample.connect 5 6 :: calls)
    linuxServer.start).state

/-- The two have connected, and each has done some more. -/
structure Connected (steps : List AsyncClient.Step) (calls : List LinuxServer.Call) : Prop where
  boundary : AsyncClient.AtBoundary 16 (clientAfter steps).log
  toServer : ∀ m ∈ AsyncClient.written (clientAfter steps).log, m.2.length < 2 ^ 24
  malloc : LinuxServer.mallocOk 0 (serverAfter calls).log
  toClient : ∀ m ∈ LinuxServer.issued 0 (serverAfter calls).log, m.2.length < 2 ^ 24
  wiredToClient : AsyncClient.received (clientAfter steps).log <+:
    LinuxServer.accepted 0 (serverAfter calls).log
  wiredToServer : LinuxServer.received 0 (serverAfter calls).log <+:
    (AsyncClient.written (clientAfter steps).log).flatMap frameBytes

instance (steps : List AsyncClient.Step) (calls : List LinuxServer.Call) :
    Decidable (Connected steps calls) :=
  decidable_of_iff (AsyncClient.AtBoundary 16 (clientAfter steps).log ∧
    (∀ m ∈ AsyncClient.written (clientAfter steps).log, m.2.length < 2 ^ 24) ∧
    LinuxServer.mallocOk 0 (serverAfter calls).log ∧
    (∀ m ∈ LinuxServer.issued 0 (serverAfter calls).log, m.2.length < 2 ^ 24) ∧
    AsyncClient.received (clientAfter steps).log <+:
      LinuxServer.accepted 0 (serverAfter calls).log ∧
    LinuxServer.received 0 (serverAfter calls).log <+:
      (AsyncClient.written (clientAfter steps).log).flatMap frameBytes)
    ⟨fun ⟨h₁, h₂, h₃, h₄, h₅, h₆⟩ => ⟨h₁, h₂, h₃, h₄, h₅, h₆⟩,
      fun ⟨h₁, h₂, h₃, h₄, h₅, h₆⟩ => ⟨h₁, h₂, h₃, h₄, h₅, h₆⟩⟩

def session (steps : List AsyncClient.Step) (calls : List LinuxServer.Call)
    (h : Connected steps calls) (hdone : LinuxServer.run linuxServer.discipline 0
      (LinuxServer.Sample.connect 5 6 :: calls) linuxServer.start = .done () (serverAfter calls)) :
    Session (ClientEnd.async asyncClient).party (ServerEnd.linux linuxServer).party where
  left := clientAfter steps
  right := serverAfter calls
  leftSound := ⟨⟨_, rfl⟩, h.boundary, h.toServer⟩
  rightSound := ⟨⟨_, hdone⟩, nofun, h.malloc, h.toClient⟩
  toLeft := h.wiredToClient
  toRight := h.wiredToServer

def sendStep : AsyncClient.Step := .call (.send fun _ => some [20, 21])

/-- The first part of the message. -/
def partCall : LinuxServer.Call :=
  LinuxServer.Sample.receive 5 [LinuxServer.Sample.read (.data [1, 0, 0]) []]

/-- The rest of it, which the server's user replies to; a part of the reply is accepted. -/
def replyCall : LinuxServer.Call :=
  LinuxServer.Sample.receive 5 [LinuxServer.Sample.read (.data [2]) [],
    LinuxServer.Sample.read (.data [20, 21])
      [.reply (fun _ => some [30]) (LinuxServer.Sample.writes [.accepted 3, .eagain])]]

def inputStep : AsyncClient.Step := .input [⟨[2, 0, 0], true, true, []⟩]

end Sample

open Sample

set_option maxRecDepth 4000 in
theorem connection_is_two_queues_reply :
    TwoQueues (session [] [] (by decide) rfl)
      (session [sendStep, inputStep] [partCall, replyCall] (by decide) rfl) := by
  have hsent :
      Session.Steps (session [] [] (by decide) rfl) (session [sendStep] [] (by decide) rfl) :=
    .single (.left ⟨sendStep, rfl⟩ rfl rfl)
  have hpart : Session.Steps (session [sendStep] [] (by decide) rfl)
      (session [sendStep] [partCall] (by decide) rfl) := .single (.right ⟨partCall, rfl⟩ rfl rfl)
  have hreply : Session.Steps (session [sendStep] [partCall] (by decide) rfl)
      (session [sendStep] [partCall, replyCall] (by decide) rfl) :=
    .single (.right ⟨replyCall, rfl⟩ rfl rfl)
  have hinput : Session.Steps (session [sendStep] [partCall, replyCall] (by decide) rfl)
      (session [sendStep, inputStep] [partCall, replyCall] (by decide) rfl) :=
    .single (.left ⟨inputStep, rfl⟩ rfl rfl)
  exact connection_is_two_queues _ _ _ _ (((hsent.trans hpart).trans hreply).trans hinput)

end Messi.Connection
