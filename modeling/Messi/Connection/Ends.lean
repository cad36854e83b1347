import Messi.AsyncClient.Streams
import Messi.AsyncServer.Streams
import Messi.Base.Link
import Messi.LinuxClient.KeepAlive
import Messi.LinuxServer.Pongs
import Messi.LinuxServer.Streams
import Messi.PyClient.Streams

/-!
# The ends of a connection

Each client and each server as a party to a connection (`Party`): its runs, what it has done on its
last connection, and what it relies on. A C client relies on the connection before to have ended
between two messages, since its input is not reset, and the Python client on its main tasks to keep
out of the way of each other, since they share `_reader`. The async server relies on its user to
have set what `NAME_server_init()` leaves, and on no input after a frame that it has rejected, since
it does not close the connection. Both servers and both C clients rely on payloads that are not too
long for their headers, which only the Python client checks.
-/

namespace Messi

open Framing Trace

/-! ## The Linux server -/

namespace LinuxServer

/-- A server that has been started, what its user does in the callbacks, and a slot. -/
structure Setup where
  memory : Server
  clientsMax : ℕ
  inputSize : ℕ
  messageSize : ℕ
  startEnv : StartEnv
  start : Server
  callInDisconnected : Bool
  depth : ℕ
  slot : Slot
  clientsMax_pos : 0 < clientsMax
  header_fits : headerSize ≤ inputSize
  started : LinuxServer.started memory clientsMax inputSize messageSize startEnv = (0, start)

def Setup.discipline (x : Setup) : Discipline := ⟨false, x.callInDisconnected⟩

/-- The server has got here; no client was unlinked with a wrong `prev_p`, and on the connection no
allocation has failed and no payload is too long. -/
structure Setup.Sound (x : Setup) (s : Server) : Prop where
  reached : ∃ calls, run x.discipline x.depth calls x.start = .done () s
  unlinked : x.callInDisconnected = true → ¬ BadUnlink s.log
  malloc : mallocOk x.slot s.log
  short : ∀ m ∈ issued x.slot s.log, m.2.length < 2 ^ 24

def Event.begins (c : Slot) : Event → Bool
  | .onClientConnected d => d = c
  | _ => false

section

variable {x : Setup} {s : Server}

theorem handled_collects (c : Slot) : Collects (Event.begins c) (fun _ e => match e with
    | .handleMessage d m => if d = c then [m] else []
    | _ => []) (handled c) where
  nil := rfl
  cons l e := by
    cases e <;> simp [handled, Event.begins]
    split_ifs <;> simp

theorem issued_collects (c : Slot) : Collects (Event.begins c) (fun _ e => match e with
    | .frame d m => if d = c then [m] else []
    | _ => []) (issued c) where
  nil := rfl
  cons l e := by
    cases e <;> simp [issued, Event.begins]
    split_ifs <;> simp

theorem Setup.Sound.good (h : x.Sound s) : ∃ v, v.busy = none ∧ Good x.inputSize s v := by
  obtain ⟨calls, hrun⟩ := h.reached
  have hstate : (run x.discipline x.depth calls x.start).state = s := by
    rw [hrun]
    rfl
  obtain ⟨v, hb, hg, -⟩ := run_good (d := x.discipline) x.clientsMax_pos x.started rfl x.depth calls
    fun hcall => hstate.symm ▸ h.unlinked hcall
  exact ⟨v, hb, hstate ▸ hg⟩

end

/-- The server as a party to the connection in its slot. -/
def Setup.party (x : Setup) : Party Server messages where
  Step s t := ∃ call, callWith (callbacks x.discipline x.depth) call s = .done () t
  Sound := x.Sound
  connections s := s.log.countP (Event.begins x.slot)
  traffic s := ⟨received x.slot s.log, handled x.slot s.log, issued x.slot s.log,
    accepted x.slot s.log⟩
  goesOn := by
    rintro s t ⟨call, hcall⟩ hn
    have hgrows := run_grows x.discipline x.depth [call] s
    unfold run at hgrows
    rw [Exec.runList_single, hcall] at hgrows
    exact ⟨(handled_collects x.slot).prefix_of_suffix hgrows.1 hn,
      (issued_collects x.slot).prefix_of_suffix hgrows.1 hn⟩
  handles := by
    intro s hs
    obtain ⟨v, hb, hg⟩ := hs.good
    exact (hg.framesHandled hb x.header_fits).stream x.slot _ List.prefix_rfl
  issues := by
    intro s hs
    obtain ⟨v, hb, hg⟩ := hs.good
    have hbytes := messages_mono ((hg.streamExact hb x.slot).any hs.malloc)
    rwa [messages_wire hs.short] at hbytes
  Fits m := headerSize + m.2.length ≤ x.inputSize
  handles_all := by
    intro s hs hfit
    obtain ⟨v, hb, hg⟩ := hs.good
    have hall : handled x.slot s.log = framed x.inputSize (received x.slot s.log) :=
      (hg.framesHandled hb x.header_fits).all x.slot
    exact hall.trans (framed_eq_messages hfit)
  -- The client is connected, and its output queue is empty.
  Flushed s := phase x.slot s.log = some .connected ∧ (s.output x.slot).headP = none
  issues_all := by
    rintro s hs ⟨hcon, hempty⟩
    obtain ⟨v, hb, hg⟩ := hs.good
    obtain ⟨q, hq, howes⟩ := (hg.streamExact hb x.slot).connected hs.malloc hcon
    have hnil : q = [] := hq.eq_nil hempty
    subst hnil
    dsimp only
    rw [← messages_wire hs.short, ← howes]
    exact congrArg messages (List.append_nil _).symm

end LinuxServer

/-! ## The async server -/

namespace AsyncServer

/-- A server that has been initialised, and a slot. -/
structure Setup where
  memory : Server
  clientsMax : ℕ
  inputSize : ℕ
  messageSize : ℕ
  slot : Slot
  header_fits : headerSize ≤ inputSize

def Setup.init (x : Setup) : Server := serverInit x.memory x.clientsMax x.inputSize x.messageSize

/-- The server has got here, and its user has wired the slot; there was no input after a frame that
was rejected, and on the connection no payload is too long. -/
structure Setup.Sound (x : Setup) (s : Server) : Prop where
  wired : x.memory.wired x.slot = true
  reached : ∃ steps, run steps x.init = s
  clean : NoInputAfterReject x.inputSize s.log
  short : ∀ m ∈ written x.slot s.log, m.2.length < 2 ^ 24

theorem Setup.Sound.handledAll {x : Setup} {s : Server} (h : x.Sound s) :
    handled x.slot s.log = framed x.inputSize (received x.slot s.log) := by
  obtain ⟨-, ⟨steps, rfl⟩, hclean, -⟩ := h
  exact run_handledAll x.header_fits x.memory x.clientsMax x.messageSize steps hclean x.slot

/-- The server as a party to the connection in its slot. -/
def Setup.party (x : Setup) : Party Server messages where
  Step s t := ∃ y, step s y = t
  Sound := x.Sound
  connections s := s.log.countP (Event.begins x.slot)
  traffic s := ⟨received x.slot s.log, handled x.slot s.log, written x.slot s.log,
    (written x.slot s.log).flatMap frameBytes⟩
  goesOn := by
    rintro s t ⟨y, rfl⟩ hn
    have hlog : s.log <:+ (step s y).log := step_suffix s y
    exact ⟨(handled_collects x.slot).prefix_of_suffix hlog hn,
      (written_collects x.slot).prefix_of_suffix hlog hn⟩
  handles := by
    intro s hs
    dsimp only
    rw [hs.handledAll]
    exact framed_prefix_messages _ _
  issues := by
    intro s hs
    dsimp only
    rw [messages_wire hs.short]
  Fits m := headerSize + m.2.length ≤ x.inputSize
  handles_all hs hfit := hs.handledAll.trans (framed_eq_messages hfit)
  Flushed _ := True
  issues_all hs _ := messages_wire hs.short

end AsyncServer

/-! ## The Linux client -/

namespace LinuxClient

/-- A client that has been initialised, and what its user may do. -/
structure Setup where
  memory : Client
  inputSize : ℕ
  outputSize : ℕ
  top : Rights
  inner : Rights
  nest : ℕ

def Setup.init (x : Setup) : Client := clientInit x.memory x.inputSize x.outputSize

/-- The client has got here; every connection that was followed by another one has ended between two
messages, none was made while a disconnect was pending, and no payload is too long. -/
structure Setup.Sound (x : Setup) (s : Client) : Prop where
  reached : ∃ calls, run x.top x.inner x.nest calls x.init = s
  boundary : AtBoundary x.inputSize s.log
  clear : Always (fun _ => Event.ConnectedClear) s.log
  short : Short s.log

def Event.begins : Event → Bool
  | .onConnected .. => true
  | _ => false

theorem handled_collects : Collects Event.begins (fun _ e => match e with
    | .handleMessage m => [m]
    | _ => []) handled where
  nil := rfl
  cons l e := by cases e <;> simp [handled, Event.begins]

theorem transmitted_collects : Collects Event.begins (fun _ e => match e with
    | .write _ m n => if n = (frameBytes m).length then [m] else []
    | _ => []) transmitted where
  nil := rfl
  cons l e := by
    cases e <;> simp [transmitted, Event.begins]
    split_ifs <;> simp

theorem Setup.Sound.synced {x : Setup} {s : Client} (h : x.Sound s) : Synced x.inputSize s := by
  obtain ⟨⟨calls, rfl⟩, hb, -, -⟩ := h
  exact (run_steps _ _ _ calls x.init).synced hb (clientInit_synced _ _ _)

theorem Setup.Sound.sending {x : Setup} {s : Client} (h : x.Sound s) : Sending s := by
  obtain ⟨⟨calls, rfl⟩, -, hc, hshort⟩ := h
  exact (run_moves _ _ _ calls x.init).sending (clientInit_sending _ _ _) hc hshort

/-- The client as a party to its last connection. -/
def Setup.party (x : Setup) : Party Client messages where
  Step s t := ∃ call, callWith (callbacks x.inner x.nest) x.top call s = t
  Sound := x.Sound
  connections s := s.log.countP Event.begins
  traffic s := ⟨received s.log, handled s.log, transmitted s.log, outgoing s.log⟩
  goesOn := by
    rintro s t ⟨call, rfl⟩ hn
    have hlog := (callWith_moves x.top x.inner x.nest call s).log_suffix
    exact ⟨handled_collects.prefix_of_suffix hlog hn,
      transmitted_collects.prefix_of_suffix hlog hn⟩
  handles hs := hs.synced.frames.head
  issues := by
    intro s hs
    dsimp only
    rw [hs.sending.framed]
  Fits m := headerSize + m.2.length ≤ x.inputSize
  handles_all hs hfit := hs.synced.received.trans (framed_eq_messages hfit)
  Flushed _ := True
  issues_all hs _ := hs.sending.framed

end LinuxClient

/-! ## The async client -/

namespace AsyncClient

/-- A client that has been initialised, and what its user may do. -/
structure Setup where
  memory : Client
  inputSize : ℕ
  outputSize : ℕ
  may : Rights
  header_fits : headerSize ≤ inputSize

def Setup.init (x : Setup) : Client := clientInit x.memory x.inputSize x.outputSize

/-- The client has got here; every connection that was followed by another one has ended between two
messages, and on the last one no payload is too long. -/
structure Setup.Sound (x : Setup) (s : Client) : Prop where
  reached : ∃ steps, run x.may steps x.init = s
  boundary : AtBoundary x.inputSize s.log
  short : ∀ m ∈ written s.log, m.2.length < 2 ^ 24

theorem Setup.Sound.waiting {x : Setup} {s : Client} (h : x.Sound s) : Waiting x.inputSize s := by
  obtain ⟨⟨steps, rfl⟩, hb, -⟩ := h
  exact run_waiting x.header_fits steps (clientInit_waiting _ _ _) hb

theorem Waiting.handled_eq {sz : ℕ} {s : Client} (h : Waiting sz s) :
    handled s.log = framed sz (received s.log) := by
  rcases h.waits with hwaits | ⟨-, -, hparse⟩
  · exact h.holds.handled_eq hwaits.parse
  · exact h.holds.handled_eq hparse

/-- The client as a party to its last connection. -/
def Setup.party (x : Setup) : Party Client messages where
  Step s t := ∃ y, step x.may s y = t
  Sound := x.Sound
  connections s := s.log.countP Event.begins
  traffic s := ⟨received s.log, handled s.log, written s.log,
    (written s.log).flatMap frameBytes⟩
  goesOn := by
    rintro s t ⟨y, rfl⟩ hn
    have hlog : s.log <:+ (step x.may s y).log := step_suffix y s
    exact ⟨handled_collects.prefix_of_suffix hlog hn, written_collects.prefix_of_suffix hlog hn⟩
  handles hs := hs.waiting.frames.head
  issues := by
    intro s hs
    dsimp only
    rw [messages_wire hs.short]
  Fits m := headerSize + m.2.length ≤ x.inputSize
  handles_all hs hfit := hs.waiting.handled_eq.trans (framed_eq_messages hfit)
  Flushed _ := True
  issues_all hs _ := messages_wire hs.short

end AsyncClient

/-! ## The Python client -/

namespace PyClient

/-- The client has got here, and no main task has made a connection while another one served one:
they share `_reader`. -/
structure Sound (s : Client) : Prop where
  reached : ∃ steps, run steps = s
  sole : Always Event.Sole s.log

theorem Sound.handled_eq {s : Client} (h : Sound s) (t : ℕ) :
    handled t s.log = messages (stream t s.log) := by
  obtain ⟨⟨steps, rfl⟩, hsole⟩ := h
  rw [← received_eq_stream hsole t]
  exact run_readAll t steps

theorem Sound.messages_wire {s : Client} (h : Sound s) (t : ℕ) :
    messages ((issued t s.log).flatMap frameBytes) = issued t s.log := by
  obtain ⟨⟨steps, rfl⟩, -⟩ := h
  exact Messi.messages_wire (issued_short (run_short steps))

/-- The client as a party to the last connection of a main task. -/
def party (t : ℕ) : Party Client messages where
  Step s s' := ∃ y, step y s = s'
  Sound := Sound
  connections s := s.log.countP (Event.begins t)
  traffic s := ⟨stream t s.log, handled t s.log, issued t s.log,
    (issued t s.log).flatMap frameBytes⟩
  goesOn := by
    rintro s s' ⟨y, rfl⟩ hn
    have hlog : s.log <:+ (step y s).log := step_suffix y s
    exact ⟨(handled_collects t).prefix_of_suffix hlog hn,
      prefix_of_suffix (fun l _ => issued_grows l) hlog hn⟩
  handles := by
    intro s hs
    dsimp only
    rw [hs.handled_eq t]
  issues := by
    intro s hs
    dsimp only
    rw [hs.messages_wire t]
  Fits _ := True
  handles_all hs _ := hs.handled_eq t
  Flushed _ := True
  issues_all hs _ := hs.messages_wire t

end PyClient

end Messi
