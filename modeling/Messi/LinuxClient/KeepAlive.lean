import Messi.LinuxClient.Moves
import Messi.LinuxClient.Outgoing
import Messi.LinuxClient.Streams

/-!
# Pings and pongs of the client

What the client has sent on its last connection (`Sending`), and what `pong_received` says of it, if
no pong comes before its ping (`Beating`). A connection is made when no disconnect is pending.
-/

namespace Messi.LinuxClient

open Relation Trace

/-- The messages of which the socket of the last connection has accepted the whole frame. -/
def transmitted : List Event → List Message
  | [] => []
  | .onConnected .. :: _ => []
  | .write _ m n :: l =>
    if n = (frameBytes m).length then transmitted l ++ [m] else transmitted l
  | _ :: l => transmitted l

def pings (l : List Event) : ℕ := (transmitted l).countP isPing

def pongs (l : List Event) : ℕ := (handled l).countP isPong

/-- The pings sent whose pongs have not been handled; the server has issued so many pongs, and it
takes one of them for each ping. -/
def outstanding (issued : ℕ) (l : List Event) : ℕ := pings l - min (pongs l) issued

/-- A ping was outstanding when the keep alive timer expired last. -/
def Overdue (issued : ℕ) : List Event → Prop
  | [] => False
  | .onConnected .. :: _ => False
  | .readTimer _ true :: l => outstanding issued l ≠ 0
  | _ :: l => Overdue issued l

/-- On the connection, no ping is sent while another one is outstanding, and the client disconnects
with `keep_alive_timeout` only when one was outstanding at the last expiry of its timer. -/
def Event.Prompt (issued : ℕ) (l : List Event) : Event → Prop
  | .write _ m _ => connects l ≠ 0 → isPing m = true → outstanding issued l = 0
  | .onDisconnected .keepAliveTimeout _ => connects l ≠ 0 → Overdue issued l
  | _ => True

/-- A pong is handled after its ping has been sent and after it has been issued. -/
def Event.Due (issued : ℕ) (l : List Event) : Event → Prop
  | .handleMessage m => connects l ≠ 0 → isPong m = true → pongs l < pings l ∧ pongs l < issued
  | _ => True

/-- A message that is written to a socket is not too long for its header. -/
def Event.Short : Event → Prop
  | .write fd m _ => fd ≠ -1 → m.2.length < 2 ^ 24
  | _ => True

instance : DecidablePred Event.Short := fun e => by
  rcases e <;> unfold Event.Short <;> infer_instance

def Short (l : List Event) : Prop := ∀ e ∈ l, e.Short

instance : DecidablePred Short := fun l => by unfold Short; infer_instance

/-- A pending disconnect has closed the socket. -/
def Closed (s : Client) : Prop := s.pendingDisconnect = true → s.serverFd = -1

/-- The bytes that the socket has accepted are those of the messages sent, and, if it is closed, a
part of another one. -/
structure Sending (s : Client) : Prop where
  closed : Closed s
  whole : s.serverFd ≠ -1 → outgoing s.log = (transmitted s.log).flatMap frameBytes
  framed : messages (outgoing s.log) = transmitted s.log
  lengths : ∀ m ∈ transmitted s.log, m.2.length < 2 ^ 24

/-- What `pong_received` says. -/
structure Beats (issued : ℕ) (pong : Bool) (l : List Event) : Prop where
  le : pongs l ≤ pings l
  once : pings l ≤ pongs l + 1
  issued : pongs l ≤ issued
  flag : pong = true ↔ pings l = pongs l

structure Beating (issued : ℕ) (s : Client) : Prop where
  closed : Closed s
  up : s.serverFd ≠ -1 → connects s.log ≠ 0
  beats : connects s.log ≠ 0 → Beats issued s.pongReceived s.log
  overdue : connects s.log ≠ 0 → s.pendingDisconnect = true →
    s.disconnectReason = .keepAliveTimeout → s.pongReceived = false ∧ Overdue issued s.log
  prompt : Always (Event.Prompt issued) s.log

section

variable {s t : Client} {l l' evs : List Event} {k k' : ℕ} {pong : Bool}

/-! ## What the events say -/

/-- Nothing is added to what the two have told each other. -/
structure Still (l l' : List Event) : Prop where
  connects : connects l' = connects l
  outgoing : outgoing l' = outgoing l
  transmitted : transmitted l' = transmitted l
  handled : handled l' = handled l
  overdue : ∀ k, Overdue k l' ↔ Overdue k l

theorem bare_still (h : ∀ e ∈ evs, e.bare = true) : Still l (evs ++ l) := by
  induction evs with
  | nil => exact ⟨rfl, rfl, rfl, rfl, fun _ => Iff.rfl⟩
  | cons e evs ih =>
    obtain ⟨hc, ho, ht, hh, hd⟩ := ih fun e' he' => h e' (List.mem_cons_of_mem e he')
    have he := h e List.mem_cons_self
    cases e <;> first | exact ⟨hc, ho, ht, hh, hd⟩ | cases he

theorem Still.pings (h : Still l l') : pings l' = pings l := by
  unfold LinuxClient.pings
  rw [h.transmitted]

theorem Still.pongs (h : Still l l') : pongs l' = pongs l := by
  unfold LinuxClient.pongs
  rw [h.handled]

theorem Still.beats (h : Still l l') (hb : Beats k pong l) : Beats k pong l' := by
  constructor <;> simp only [h.pings, h.pongs]
  · exact hb.le
  · exact hb.once
  · exact hb.issued
  · exact hb.flag

theorem bare_prompt (h : ∀ e ∈ evs, e.bare = true) (hl : Always (Event.Prompt k) l) :
    Always (Event.Prompt k) (evs ++ l) := by
  refine hl.append fun e he l => ?_
  have hbare := h e he
  cases e <;> first | exact trivial | cases hbare

theorem connects_mono (h : l <:+ l') : connects l ≤ connects l' := by
  obtain ⟨evs, rfl⟩ := h
  induction evs with
  | nil => exact le_rfl
  | cons e evs ih => cases e <;> first | exact ih | exact ih.trans (Nat.le_succ _)

/-- On one connection the messages handled and the messages sent are never taken back. -/
theorem counts_mono (hl : l <:+ l') (h : connects l' = connects l) :
    pings l ≤ pings l' ∧ pongs l ≤ pongs l' := by
  obtain ⟨evs, rfl⟩ := hl
  have hcount : ∀ (p : Message → Bool) (ms : List Message) m, ms.countP p ≤ (ms ++ [m]).countP p :=
    fun p ms m => (List.sublist_append_left ms [m]).countP_le
  induction evs with
  | nil => exact ⟨le_rfl, le_rfl⟩
  | cons e evs ih =>
    cases e
    case onConnected fd pending =>
      have hsucc : connects (evs ++ l) + 1 = connects l := h
      have hle := connects_mono (List.suffix_append evs l)
      omega
    case write fd m n =>
      obtain ⟨hpings, hpongs⟩ := ih h
      refine ⟨hpings.trans ?_, hpongs⟩
      show (transmitted (evs ++ l)).countP isPing ≤ (if n = (frameBytes m).length then
        transmitted (evs ++ l) ++ [m] else transmitted (evs ++ l)).countP isPing
      split_ifs
      · exact hcount isPing _ m
      · exact le_rfl
    case handleMessage m =>
      obtain ⟨hpings, hpongs⟩ := ih h
      exact ⟨hpings, hpongs.trans (hcount isPong _ m)⟩
    all_goals exact ih h

/-! ## A pending disconnect -/

theorem pendingDisconnect_spec (s : Client) (r : DisconnectReason) :
    (s.pendingDisconnect = true ∧ pendingDisconnect s r = s) ∨
      (s.pendingDisconnect = false ∧ pendingDisconnect s r = { s with
        disconnectReason := r
        serverFd := -1
        pendingDisconnect := true
        log := .closed s.serverFd :: .epollCtl .del s.serverFd true :: s.log }) := by
  unfold pendingDisconnect
  cases hp : s.pendingDisconnect with
  | true => exact Or.inl ⟨rfl, if_pos rfl⟩
  | false => exact Or.inr ⟨rfl, if_neg nofun⟩

theorem Closed.pending (r : DisconnectReason) (hs : Closed s) : Closed (pendingDisconnect s r) := by
  rcases pendingDisconnect_spec s r with ⟨-, h⟩ | ⟨-, h⟩
  · exact h.symm ▸ hs
  · exact h.symm ▸ fun _ => rfl

theorem Move.closed (h : Move s t) (hs : Closed s)
    (hc : Always (fun _ => Event.ConnectedClear) t.log) : Closed t := by
  have hagree : ∀ {u}, Agree u t → Closed u → Closed t := fun h hu hp =>
    h.serverFd.trans (hu (h.pendingDisconnect ▸ hp))
  cases h with
  | bare evs hevs h => exact hagree h hs
  | readTimer fd ok h => exact hagree h hs
  | pending r hr h => exact hagree h (hs.pending r)
  | timeout fd l last pong h => exact hagree h (hs.pending _)
  | user payload up h => exact hagree h hs
  | ping up pong h => exact hagree h hs
  | short m n hn down pong r hr h =>
    exact hagree h (Closed.pending (s := s.emit (.write s.serverFd m n)) r hs)
  | message m up h => exact hagree h hs
  | disconnect h => exact hagree h nofun
  | dropped pending h => exact hagree h nofun
  | connected fd evs l hevs opened h =>
    have hclear : s.pendingDisconnect = false := by
      rw [h.log] at hc
      exact hc.1
    exact hagree h fun hp => absurd (hclear.symm.trans hp) nofun

/-- What a pending disconnect, and a disconnect, say. -/
theorem pendingDisconnect_still (s : Client) (r : DisconnectReason) :
    ∃ evs, (∀ e ∈ evs, e.bare = true) ∧ (pendingDisconnect s r).log = evs ++ s.log := by
  rcases pendingDisconnect_spec s r with ⟨-, h⟩ | ⟨-, h⟩
  · exact ⟨[], nofun, by rw [h]; rfl⟩
  · exact ⟨[.closed s.serverFd, .epollCtl .del s.serverFd true], by simp [Event.bare],
      by rw [h]; rfl⟩

theorem disconnect_still (s : Client) :
    ∃ evs, (∀ e ∈ evs, e.bare = true) ∧ (disconnect s).log = evs ++ s.log := by
  obtain ⟨evs, hevs, hlog⟩ := pendingDisconnect_still s .messageEncodeError
  unfold disconnect
  generalize pendingDisconnect s .messageEncodeError = t at hlog
  refine ⟨.closed t.keepAliveTimerFd :: .epollCtl .del t.keepAliveTimerFd true :: evs, ?_, ?_⟩
  · intro e he
    rcases List.mem_cons.1 he with rfl | he
    · rfl
    rcases List.mem_cons.1 he with rfl | he
    · rfl
    exact hevs e he
  · show _ :: _ :: t.log = _
    rw [hlog]
    rfl

/-! ## What is sent -/

theorem Short.suffix (h : Short l') (hl : l <:+ l') : Short l :=
  fun e he => h e (hl.subset he)

theorem Sending.agree (h : Agree s t) (hs : Sending s) : Sending t := by
  refine ⟨fun hp => h.serverFd.trans (hs.closed (h.pendingDisconnect ▸ hp)), fun hup => ?_, ?_, ?_⟩
  · rw [h.log]
    exact hs.whole (h.serverFd ▸ hup)
  · rw [h.log]
    exact hs.framed
  · rw [h.log]
    exact hs.lengths

/-- Nothing is sent. -/
theorem Sending.still (hs : Sending s) (hl : Still s.log t.log) (hc : Closed t)
    (hup : t.serverFd ≠ -1 → s.serverFd ≠ -1) : Sending t := by
  refine ⟨hc, fun ht => ?_, ?_, ?_⟩
  · rw [hl.outgoing, hl.transmitted]
    exact hs.whole (hup ht)
  · rw [hl.outgoing, hl.transmitted]
    exact hs.framed
  · rw [hl.transmitted]
    exact hs.lengths

theorem up_of_pendingDisconnect {r : DisconnectReason} (h : (pendingDisconnect s r).serverFd ≠ -1) :
    s.serverFd ≠ -1 := by
  rcases (pendingDisconnect_kept s r).serverFd with hfd | hfd
  · exact hfd ▸ h
  · exact absurd hfd h

theorem Sending.pending (r : DisconnectReason) (hs : Sending s) :
    Sending (pendingDisconnect s r) := by
  obtain ⟨evs, hevs, hlog⟩ := pendingDisconnect_still s r
  exact hs.still (hlog ▸ bare_still hevs) (hs.closed.pending r) up_of_pendingDisconnect

theorem Sending.disconnect (hs : Sending s) : Sending (disconnect s) := by
  obtain ⟨evs, hevs, hlog⟩ := disconnect_still s
  exact hs.still (hlog ▸ bare_still hevs) nofun up_of_pendingDisconnect

/-- A whole frame is written. -/
theorem Sending.write (hs : Sending s) (hup : s.serverFd ≠ -1) (m : Message)
    (hshort : Short (s.emit (.write s.serverFd m (frameBytes m).length)).log) :
    Sending (s.emit (.write s.serverFd m (frameBytes m).length)) := by
  have hsent : transmitted (s.emit (.write s.serverFd m (frameBytes m).length)).log =
      transmitted s.log ++ [m] := if_pos rfl
  have hbytes : outgoing (s.emit (.write s.serverFd m (frameBytes m).length)).log =
      (transmitted s.log ++ [m]).flatMap frameBytes := by
    show outgoing s.log ++ (frameBytes m).take (frameBytes m).length = _
    rw [List.take_length, hs.whole hup, List.flatMap_append, List.flatMap_singleton]
  have hall : ∀ m' ∈ transmitted s.log ++ [m], m'.2.length < 2 ^ 24 := by
    intro m' hm'
    rcases List.mem_append.1 hm' with hm' | hm'
    · exact hs.lengths m' hm'
    · rw [List.mem_singleton.1 hm']
      exact hshort _ List.mem_cons_self hup
  refine ⟨hs.closed, fun _ => hbytes.trans (by rw [hsent]), ?_, hsent ▸ hall⟩
  rw [hbytes, hsent, messages_wire hall]

/-- A part of a frame is written, and the socket is closed. -/
theorem Sending.short (hs : Sending s) {m : Message} {n : ℕ} (hn : n < (frameBytes m).length)
    (hdown : s.serverFd = -1 → n = 0) (r : DisconnectReason)
    (hshort : Short (s.emit (.write s.serverFd m n)).log) :
    Sending (pendingDisconnect (s.emit (.write s.serverFd m n)) r) := by
  have hsent : transmitted (s.emit (.write s.serverFd m n)).log = transmitted s.log :=
    if_neg hn.ne
  have hbytes : messages (outgoing (s.emit (.write s.serverFd m n)).log) = transmitted s.log := by
    show messages (outgoing s.log ++ (frameBytes m).take n) = _
    by_cases hup : s.serverFd = -1
    · rw [hdown hup, List.take_zero, List.append_nil]
      exact hs.framed
    · have hm := hshort _ List.mem_cons_self hup
      rw [hs.whole hup, messages_wire_append hs.lengths, messages_take hm hn, List.append_nil]
  have hclosed : (pendingDisconnect (s.emit (.write s.serverFd m n)) r).serverFd = -1 := by
    rcases pendingDisconnect_spec (s.emit (.write s.serverFd m n)) r with ⟨hp, h⟩ | ⟨-, h⟩
    · rw [h]
      exact hs.closed hp
    · rw [h]
  obtain ⟨evs, hevs, hlog⟩ := pendingDisconnect_still (s.emit (.write s.serverFd m n)) r
  have hl := bare_still (l := (s.emit (.write s.serverFd m n)).log) hevs
  refine ⟨fun _ => hclosed, fun hup => absurd hclosed hup, ?_, ?_⟩
  · rw [hlog, hl.outgoing, hl.transmitted, hbytes, hsent]
  · rw [hlog, hl.transmitted, hsent]
    exact hs.lengths

theorem Move.sending (h : Move s t) (hs : Sending s)
    (hc : Always (fun _ => Event.ConnectedClear) t.log) (hshort : Short t.log) : Sending t := by
  have hclosed := h.closed hs.closed hc
  cases h with
  | bare evs hevs h =>
    have hl := bare_still (l := s.log) hevs
    exact (hs.still (t := { s with log := evs ++ s.log }) hl hs.closed id).agree h
  | readTimer fd ok h =>
    exact Sending.agree h ⟨hs.closed, hs.whole, hs.framed, hs.lengths⟩
  | pending r hr h => exact (hs.pending r).agree h
  | timeout fd l last pong h => exact (hs.pending _).agree h
  | user payload up h =>
    rw [h.log] at hshort
    exact (hs.write up _ hshort).agree h
  | ping up pong h =>
    rw [h.log] at hshort
    have hw := hs.write up _ hshort
    exact Sending.agree h ⟨hw.closed, hw.whole, hw.framed, hw.lengths⟩
  | short m n hn down pong r hr h =>
    have hlog := (pendingDisconnect_kept (s.emit (.write s.serverFd m n)) r).log_suffix
    rw [h.log] at hshort
    exact (hs.short hn down r (hshort.suffix hlog)).agree h
  | message m up h =>
    exact Sending.agree h ⟨hs.closed, hs.whole, hs.framed, hs.lengths⟩
  | disconnect h => exact hs.disconnect.agree h
  | dropped pending h =>
    have hd := hs.disconnect
    exact Sending.agree h ⟨hd.closed, hd.whole, hd.framed, hd.lengths⟩
  | connected fd evs l hevs opened h =>
    refine ⟨hclosed, fun _ => ?_, ?_, ?_⟩
    · rw [h.log]
      rfl
    · rw [h.log]
      rfl
    · rw [h.log]
      exact nofun

/-- Unless a connection is made while a disconnect is pending, or a message is too long. -/
theorem Moves.sending (h : Moves s t) (hs : Sending s)
    (hc : Always (fun _ => Event.ConnectedClear) t.log) (hshort : Short t.log) : Sending t := by
  induction h with
  | refl => exact hs
  | tail _ h ih =>
    have hlog := h.log_suffix
    exact h.sending (ih (hc.suffix hlog) (hshort.suffix hlog)) hc hshort

theorem clientInit_sending (m : Client) (sz n : ℕ) : Sending (clientInit m sz n) :=
  ⟨nofun, fun _ => rfl, rfl, nofun⟩

/-! ## Pings and pongs -/

theorem Beats.outstanding_le (h : Beats k pong l) : outstanding k l ≤ 1 := by
  have := h.once
  unfold outstanding
  rw [Nat.min_eq_left h.issued]
  omega

theorem Beats.outstanding_iff (h : Beats k pong l) : outstanding k l = 0 ↔ pong = true := by
  have := h.le
  rw [h.flag]
  unfold outstanding
  rw [Nat.min_eq_left h.issued]
  omega

theorem Beating.agree (h : Agree s t) (hs : Beating k s) : Beating k t := by
  obtain ⟨hclosed, hup, hbeats, hoverdue, hprompt⟩ := hs
  constructor
  · exact fun hp => h.serverFd.trans (hclosed (h.pendingDisconnect ▸ hp))
  · rw [h.serverFd, h.log]
    exact hup
  · rw [h.pongReceived, h.log]
    exact hbeats
  · rw [h.pendingDisconnect, h.disconnectReason, h.pongReceived, h.log]
    exact hoverdue
  · rw [h.log]
    exact hprompt

theorem Beating.still (hs : Beating k s) (hl : Still s.log t.log)
    (hp : Always (Event.Prompt k) t.log) (hc : Closed t)
    (hup : t.serverFd ≠ -1 → s.serverFd ≠ -1) (hpong : t.pongReceived = s.pongReceived)
    (hdue : connects s.log ≠ 0 → t.pendingDisconnect = true →
      t.disconnectReason = .keepAliveTimeout → s.pongReceived = false ∧ Overdue k s.log) :
    Beating k t := by
  refine ⟨hc, fun ht => ?_, fun hcon => ?_, fun hcon hpend hr => ?_, hp⟩
  · rw [hl.connects]
    exact hs.up (hup ht)
  · rw [hl.connects] at hcon
    rw [hpong]
    exact hl.beats (hs.beats hcon)
  · rw [hl.connects] at hcon
    rw [hpong, hl.overdue]
    exact hdue hcon hpend hr

/-- A disconnect because of a timeout is pending only if it is overdue. -/
theorem Beating.pending (hs : Beating k s) (r : DisconnectReason)
    (hr : connects s.log ≠ 0 → r = .keepAliveTimeout → s.pongReceived = false ∧ Overdue k s.log) :
    Beating k (pendingDisconnect s r) := by
  obtain ⟨evs, hevs, hlog⟩ := pendingDisconnect_still s r
  have hprompt : Always (Event.Prompt k) (pendingDisconnect s r).log :=
    hlog ▸ bare_prompt hevs hs.prompt
  have hclosed : Closed (pendingDisconnect s r) := Closed.pending r hs.closed
  refine hs.still (hlog ▸ bare_still hevs) hprompt hclosed up_of_pendingDisconnect ?_ ?_
  · rcases pendingDisconnect_spec s r with ⟨-, h⟩ | ⟨-, h⟩ <;> rw [h]
  · rcases pendingDisconnect_spec s r with ⟨-, h⟩ | ⟨-, h⟩
    · rw [h]
      exact hs.overdue
    · rw [h]
      exact fun hcon _ => hr hcon

theorem Beating.disconnect (hs : Beating k s) : Beating k (disconnect s) := by
  obtain ⟨evs, hevs, hlog⟩ := disconnect_still s
  have hprompt : Always (Event.Prompt k) (LinuxClient.disconnect s).log :=
    hlog ▸ bare_prompt hevs hs.prompt
  refine hs.still (hlog ▸ bare_still hevs) hprompt nofun up_of_pendingDisconnect ?_ nofun
  show (pendingDisconnect s .messageEncodeError).pongReceived = s.pongReceived
  rcases pendingDisconnect_spec s .messageEncodeError with ⟨-, h⟩ | ⟨-, h⟩ <;> rw [h]

/-- The keep alive timer expires. -/
theorem Beating.readTimer (hs : Beating k s) (fd : ℤ) (ok : Bool) :
    Beating k (s.emit (.readTimer fd ok)) := by
  obtain ⟨hclosed, hup, hbeats, hoverdue, hprompt⟩ := hs
  refine ⟨hclosed, hup, fun hcon => ?_, fun hcon hpend hr => ?_, trivial, hprompt⟩
  · obtain ⟨hle, honce, hissued, hflag⟩ := hbeats hcon
    exact ⟨hle, honce, hissued, hflag⟩
  · obtain ⟨hpong, hover⟩ := hoverdue hcon hpend hr
    refine ⟨hpong, ?_⟩
    cases ok with
    | false => exact hover
    | true =>
      show outstanding k s.log ≠ 0
      rw [Ne, (hbeats hcon).outstanding_iff, hpong]
      exact nofun

/-- A message is written that is no ping, or it is the only one that is outstanding. -/
theorem Beating.write (hs : Beating k s) (m : Message) (n : ℕ)
    (hpong : isPing m = true → s.pongReceived = true) :
    Event.Prompt k s.log (.write s.serverFd m n) :=
  fun hcon hping => (hs.beats hcon).outstanding_iff.2 (hpong hping)

theorem pings_write {fd : ℤ} {m : Message} {n : ℕ}
    (h : isPing m = false ∨ n ≠ (frameBytes m).length) :
    pings (.write fd m n :: l) = pings l := by
  show (if n = (frameBytes m).length then transmitted l ++ [m] else transmitted l).countP isPing =
    (transmitted l).countP isPing
  split_ifs with hn
  · have hnot : isPing m = false := h.resolve_right (not_not_intro hn)
    simp [hnot]
  · rfl

/-- A message is written that is no ping, or not as a whole. -/
theorem Beating.other (hs : Beating k s) (m : Message) (n : ℕ)
    (h : isPing m = false ∨ n ≠ (frameBytes m).length)
    (hpong : isPing m = true → s.pongReceived = true) :
    Beating k (s.emit (.write s.serverFd m n)) := by
  refine ⟨hs.closed, hs.up, fun hcon => ?_, hs.overdue, hs.write m n hpong, hs.prompt⟩
  obtain ⟨hle, honce, hissued, hflag⟩ := hs.beats hcon
  have hpings : pings (s.emit (.write s.serverFd m n)).log = pings s.log := pings_write h
  constructor
  · rw [hpings]
    exact hle
  · rw [hpings]
    exact honce
  · exact hissued
  · rw [hpings]
    exact hflag

/-- A ping is sent, and none is outstanding. -/
theorem Beating.ping (hs : Beating k s) (hpong : s.pongReceived = true) :
    Beating k { s.emit (.write s.serverFd (messageTypePing, [])
      (frameBytes (messageTypePing, [])).length) with pongReceived := false } := by
  refine ⟨hs.closed, hs.up, fun hcon => ?_, fun hcon hpend hr => ?_, hs.write _ _ fun _ => hpong,
    hs.prompt⟩
  · have hb := hs.beats hcon
    have heq : pings s.log = pongs s.log := hb.flag.1 hpong
    have hpings : pings (.write s.serverFd (messageTypePing, [])
        (frameBytes (messageTypePing, [])).length :: s.log) = pings s.log + 1 := by
      show (transmitted s.log ++ [(messageTypePing, [])]).countP isPing = pings s.log + 1
      rw [List.countP_append]
      rfl
    have hpongs : pongs (.write s.serverFd (messageTypePing, [])
        (frameBytes (messageTypePing, [])).length :: s.log) = pongs s.log := rfl
    constructor <;> simp only [Client.emit_log, hpings, hpongs, heq]
    · omega
    · exact le_rfl
    · exact hb.issued
    · simp
  · have hnot : s.pongReceived = false := (hs.overdue hcon hpend hr).1
    exact absurd (hpong.symm.trans hnot) nofun

/-- A message is handled; if it is a pong, a ping is outstanding. -/
theorem Beating.message (hs : Beating k s) (m : Message) (hup : s.serverFd ≠ -1)
    (hdue : Event.Due k s.log (.handleMessage m)) :
    Beating k { s.emit (.handleMessage m) with pongReceived := isPong m || s.pongReceived } := by
  refine ⟨hs.closed, hs.up, fun hcon => ?_, fun hcon hpend hr => absurd (hs.closed hpend) hup,
    trivial, hs.prompt⟩
  obtain ⟨hle, honce, hissued, hflag⟩ := hs.beats hcon
  have hpings : pings (.handleMessage m :: s.log) = pings s.log := rfl
  cases hpong : isPong m with
  | false =>
    have hpongs : pongs (.handleMessage m :: s.log) = pongs s.log := by
      simp [pongs, handled, hpong]
    constructor <;> simp only [Client.emit_log, hpings, hpongs, Bool.false_or]
    · exact hle
    · exact honce
    · exact hissued
    · exact hflag
  | true =>
    obtain ⟨hlt, hltk⟩ := hdue hcon hpong
    have hpongs : pongs (.handleMessage m :: s.log) = pongs s.log + 1 := by
      simp [pongs, handled, hpong]
    constructor <;> simp only [Client.emit_log, hpings, hpongs, Bool.true_or, true_iff]
    · exact hlt
    · omega
    · exact hltk
    · omega

theorem prompt_onDisconnected {r : DisconnectReason} {fd : ℤ}
    (h : r = .keepAliveTimeout → connects l ≠ 0 → Overdue k l) :
    Event.Prompt k l (.onDisconnected r fd) := by
  cases r <;> first | exact trivial | exact h rfl

/-- `on_disconnected` is called. -/
theorem Beating.dropped (hs : Beating k s) (hpend : s.pendingDisconnect = true) :
    Beating k ((LinuxClient.disconnect s).emit (.onDisconnected
      (LinuxClient.disconnect s).disconnectReason (LinuxClient.disconnect s).serverFd)) := by
  have hd := hs.disconnect
  obtain ⟨evs, hevs, hlog⟩ := disconnect_still s
  have hl := bare_still (l := s.log) hevs
  have hreason : (LinuxClient.disconnect s).disconnectReason = s.disconnectReason := by
    show (pendingDisconnect s .messageEncodeError).disconnectReason = s.disconnectReason
    rcases pendingDisconnect_spec s .messageEncodeError with ⟨-, h⟩ | ⟨hnot, -⟩
    · rw [h]
    · exact absurd (hpend.symm.trans hnot) nofun
  refine ⟨hd.closed, hd.up, fun hcon => ?_, nofun, prompt_onDisconnected fun hr hcon => ?_,
    hd.prompt⟩
  · obtain ⟨hle, honce, hissued, hflag⟩ := hd.beats hcon
    exact ⟨hle, honce, hissued, hflag⟩
  · rw [hlog, hl.connects] at hcon
    rw [hlog, hl.overdue]
    exact (hs.overdue hcon hpend (hreason.symm.trans hr)).2

theorem Move.beating (h : Move s t) (hs : Beating k s)
    (hc : Always (fun _ => Event.ConnectedClear) t.log) (hdue : Always (Event.Due k) t.log) :
    Beating k t := by
  have hclosed := h.closed hs.closed hc
  cases h with
  | bare evs hevs h =>
    have hl := bare_still (l := s.log) hevs
    have hp := bare_prompt hevs hs.prompt
    exact (hs.still (t := { s with log := evs ++ s.log }) hl hp hs.closed id rfl hs.overdue).agree h
  | readTimer fd ok h => exact (hs.readTimer fd ok).agree h
  | pending r hr h => exact (hs.pending r fun _ heq => absurd heq hr).agree h
  | timeout fd l last pong h =>
    refine (hs.pending _ fun hcon _ => ⟨pong, ?_⟩).agree h
    obtain ⟨hle, honce, hissued, hflag⟩ := hs.beats hcon
    rw [last] at hle honce hissued hflag ⊢
    have hb : Beats k s.pongReceived l := ⟨hle, honce, hissued, hflag⟩
    show outstanding k l ≠ 0
    rw [Ne, hb.outstanding_iff, pong]
    exact nofun
  | user payload up h =>
    exact (hs.other (messageTypeClientToServerUser, payload) _ (Or.inl rfl) nofun).agree h
  | ping up pong h => exact (hs.ping pong).agree h
  | short m n hn down pong r hr h =>
    have hw := hs.other m n (Or.inr hn.ne) pong
    exact (hw.pending r fun _ heq => absurd heq hr).agree h
  | message m up h =>
    rw [h.log] at hdue
    exact (hs.message m up hdue.1).agree h
  | disconnect h => exact hs.disconnect.agree h
  | dropped pending h => exact (hs.dropped pending).agree h
  | connected fd evs l hevs opened h =>
    rw [h.log] at hc
    have hclear : t.pendingDisconnect = false := h.pendingDisconnect.trans hc.1
    refine ⟨hclosed, fun _ => ?_, fun _ => ?_, fun _ hp => ?_, ?_⟩
    · rw [h.log]
      exact Nat.succ_ne_zero _
    · rw [h.log, h.pongReceived]
      exact ⟨le_rfl, Nat.zero_le _, Nat.zero_le _, by simp [pings, pongs, transmitted, handled]⟩
    · exact absurd (hclear.symm.trans hp) nofun
    · rw [h.log]
      exact ⟨trivial, hs.prompt⟩

/-- Unless a connection is made while a disconnect is pending, or a pong comes before its ping. -/
theorem Moves.beating (h : Moves s t) (hs : Beating k s)
    (hc : Always (fun _ => Event.ConnectedClear) t.log) (hdue : Always (Event.Due k) t.log) :
    Beating k t := by
  induction h with
  | refl => exact hs
  | tail _ h ih =>
    have hlog := h.log_suffix
    exact h.beating (ih (hc.suffix hlog) (hdue.suffix hlog)) hc hdue

theorem clientInit_beating (m : Client) (sz n : ℕ) : Beating k (clientInit m sz n) :=
  ⟨nofun, fun hup => absurd rfl hup, fun hcon => absurd rfl hcon, fun hcon => absurd rfl hcon,
    trivial⟩

/-! ## The only connection -/

/-- A pong that is handled on the only connection counts. -/
theorem pongs_lt {m : Message} (hl : .handleMessage m :: l <:+ l') (hone : connects l' ≤ 1)
    (hcon : connects l ≠ 0) (hpong : isPong m = true) : pongs l < pongs l' := by
  have hpongs : pongs (.handleMessage m :: l) = pongs l + 1 := by
    simp [pongs, handled, hpong]
  have hsame : connects l' = connects (.handleMessage m :: l) :=
    le_antisymm (hone.trans (Nat.pos_of_ne_zero hcon)) (connects_mono hl)
  have hmono := (counts_mono hl hsame).2
  rwa [hpongs] at hmono

theorem due_none (hone : connects l ≤ 1) (hnone : pongs l = 0) : Always (Event.Due k) l := by
  refine Always.extend (l := []) trivial List.nil_suffix fun e r hr _ => ?_
  cases e
  case handleMessage m =>
    intro hcon hpong
    have hlt := pongs_lt hr hone hcon hpong
    omega
  all_goals exact trivial

/-- The pongs that have been handled in the meantime are due if their pings were sent before. -/
theorem due_extend (h : Always (Event.Due k') l) (hl : l <:+ l') (hone : connects l = 1)
    (hone' : connects l' = 1) (hp : pongs l' ≤ pings l) (hk : pongs l' ≤ k) :
    Always (Event.Due k) l' := by
  refine Always.extend (l := []) trivial List.nil_suffix fun e r hr _ => ?_
  cases e
  case handleMessage m =>
    intro hcon hpong
    have hlt := pongs_lt hr hone'.le hcon hpong
    refine ⟨?_, hlt.trans_le hk⟩
    rcases List.suffix_or_suffix_of_suffix hr hl with hold | hnew
    · exact (h.event hold hcon hpong).1
    rcases List.suffix_cons_iff.1 hnew with rfl | hnew
    · exact (h.1 hcon hpong).1
    · have hsame : connects r = connects l := by
        have hle := connects_mono hnew
        have hle' := connects_mono ((List.suffix_cons _ r).trans hr)
        omega
      exact (hlt.trans_le hp).trans_le (counts_mono hnew hsame).1
  all_goals exact trivial

theorem clear_extend (h : Always (fun _ => Event.ConnectedClear) l) (hl : l <:+ l')
    (hone : connects l = 1) (hone' : connects l' = 1) :
    Always (fun _ => Event.ConnectedClear) l' := by
  refine h.extend hl fun e r hr hnew => ?_
  cases e
  case onConnected fd pending =>
    have hle : connects r + 1 ≤ connects l' := connects_mono hr
    have hle' := connects_mono hnew
    omega
  all_goals exact trivial

end

end Messi.LinuxClient
