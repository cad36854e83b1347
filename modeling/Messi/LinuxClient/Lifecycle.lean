import Messi.Base.Trace
import Messi.LinuxClient.Timers

/-!
# The lifecycle of a connection

`pending_disconnect` is raised for a client that has no connection when a message is sent while it
is disconnected, when descriptor `-1` is processed, and when the descriptor that a failed
`connect_to_server()` has left in `keep_alive_timer_fd` is processed. In every run without such
calls, `on_connected` and `on_disconnected` alternate, and a connection is closed when it is
reported (`lifecycle`).
-/

namespace Messi.LinuxClient

open Trace Sample

/-- Nothing is sent while the client is disconnected; and what is processed, unless a disconnect is
pending, is not `-1`, and is the keep alive timer only if the client is connected. -/
def Event.CallOk : Event → Prop
  | .send serverFd pending => serverFd ≠ -1 ∨ pending = true
  | .process fd serverFd keepAliveTimerFd pending => pending = true ∨
    fd ≠ -1 ∧ (fd = keepAliveTimerFd → fd ≠ serverFd → serverFd ≠ -1)
  | _ => True

instance : DecidablePred Event.CallOk := fun e => by
  rcases e <;> unfold Event.CallOk <;> infer_instance

abbrev CallsOk : List Event → Prop := Always fun _ => Event.CallOk

/-- There is no connection. -/
structure Down (s : Client) : Prop where
  link : link s.log = some .down
  nodup : (openFds s.log).Nodup
  serverFd : s.serverFd = -1
  pending : s.pendingDisconnect = false

/-- There is a connection with the given socket, which is closed if a disconnect is pending. -/
structure Up (fd : ℤ) (s : Client) : Prop where
  link : link s.log = some (.up fd)
  nodup : (openFds s.log).Nodup
  reconnect : s.reconnectTimerFd = -1
  connected : s.pendingDisconnect = false → s.serverFd = fd ∧ fd ≠ -1
  pending : s.pendingDisconnect = true → s.serverFd = -1 ∧ fd ∉ openFds s.log

/-- There is a connection. -/
def IsUp (s : Client) : Prop := ∃ fd, Up fd s

/-- There is no connection, unless a call should not have been made. -/
def DownIfOk (s : Client) : Prop := CallsOk s.log → Down s

section

variable {fd : ℤ} {l : List Event} {s t : Client} {e : Event}

/-! ## Events that are neither calls nor callbacks -/

/-- The event says nothing about the connection, and neither opens nor closes a descriptor. -/
def Event.plain : Event → Bool
  | .onConnected .. | .onDisconnected .. | .opened .. | .closed _ => false
  | _ => true

theorem link_cons (he : e.plain = true) :
    link (e :: l) = link l ∧ openFds (e :: l) = openFds l := by
  cases e <;> first | exact ⟨rfl, rfl⟩ | cases he

theorem link_onDisconnected {serverFd : ℤ} (r : DisconnectReason) (h : link l = some (.up fd)) :
    link (.onDisconnected r serverFd :: l) =
      if fd ∉ openFds l ∧ serverFd = -1 then some .down else none := by
  unfold link
  rw [h]

theorem Down.emit (h : Down s) (e : Event) (he : e.plain = true) : Down (s.emit e) := by
  obtain ⟨hl, ho⟩ := link_cons (l := s.log) he
  exact ⟨hl.trans h.link, ho.symm ▸ h.nodup, h.serverFd, h.pending⟩

theorem Up.emit (h : Up fd s) (e : Event) (he : e.plain = true) : Up fd (s.emit e) := by
  obtain ⟨hl, ho⟩ := link_cons (l := s.log) he
  refine ⟨hl.trans h.link, ho.symm ▸ h.nodup, h.reconnect, h.connected, fun hp => ?_⟩
  obtain ⟨hserver, hfd⟩ := h.pending hp
  exact ⟨hserver, ho.symm ▸ hfd⟩

theorem Down.opened (h : Down s) (what : Descriptor) (hfd : fd ∉ openFds s.log) :
    Down (s.emit (.opened what fd)) :=
  ⟨h.link, List.nodup_cons.2 ⟨hfd, h.nodup⟩, h.serverFd, h.pending⟩

theorem Down.closed (h : Down s) (fd : ℤ) : Down (s.emit (.closed fd)) :=
  ⟨h.link, h.nodup.erase fd, h.serverFd, h.pending⟩

theorem Down.closeFd (h : Down s) (fd : ℤ) : Down (closeFd s fd) := (h.emit _ rfl).closed fd

/-! ## A connected client -/

theorem pendingDisconnect_up (h : Up fd s) (r : DisconnectReason) :
    Up fd (pendingDisconnect s r) := by
  unfold pendingDisconnect
  split_ifs with hp
  · exact h
  · obtain ⟨hserver, -⟩ := h.connected (Bool.eq_false_of_not_eq_true hp)
    refine ⟨h.link, h.nodup.erase _, h.reconnect, nofun, fun _ => ⟨rfl, ?_⟩⟩
    show fd ∉ (openFds s.log).erase s.serverFd
    rw [hserver]
    exact h.nodup.not_mem_erase

theorem IsUp.emit (h : IsUp s) (e : Event) (he : e.plain = true) : IsUp (s.emit e) :=
  h.imp fun _ h => h.emit e he

theorem timer_up : TimerKeeps (Up fd) where
  send _ hs := hs.emit _ rfl
  write _ _ _ hs := hs.emit _ rfl
  pending _ r hs := pendingDisconnect_up hs r
  read _ _ hs := hs.emit _ rfl
  settime _ _ hs := hs.emit _ rfl
  ping _ hs := ⟨hs.link, hs.nodup, hs.reconnect, hs.connected, hs.pending⟩

theorem sends_up (fd : ℤ) (cb : Callbacks Call) : CallsKeep (Up fd) sends cb where
  start h := nomatch h
  stop h := nomatch h
  send enc res _ hs := timer_up.clientSend enc res hs

variable {α : Type*} {cb : Callbacks α}

theorem loop_up (hcb : ∀ fd, CallbacksKeep (Up fd) cb) : LoopKeeps (Up fd) cb where
  step s t h hs := by
    obtain ⟨hserver, -, hrec, hpend, hlog⟩ := h
    have hcongr : ∀ u : Client, Up fd u → u.serverFd = s.serverFd →
        u.reconnectTimerFd = s.reconnectTimerFd → u.pendingDisconnect = s.pendingDisconnect →
        t.log = u.log → Up fd t := by
      intro u hu h1 h2 h3 hl
      obtain ⟨hlink, hnodup, hr, hc, hp⟩ := hu
      constructor
      · rwa [hl]
      · rwa [hl]
      · rwa [hrec, ← h2]
      · rwa [hpend, hserver, ← h1, ← h3]
      · rwa [hpend, hserver, hl, ← h1, ← h3]
    rcases hlog with hlog | ⟨e, he, hlog⟩
    · exact hcongr s hs rfl rfl rfl hlog
    · have hemit : Up fd (s.emit e) := by
        cases e <;> first | exact hs.emit _ rfl | cases he
      exact hcongr _ hemit rfl rfl rfl hlog
  pending _ r hs := pendingDisconnect_up hs r
  message l s hs := ((hcb fd).message l s hs).emit (.returned .onMessage _) rfl

/-! ## A client that is not connected -/

theorem startReconnectTimer_down (h : Down s) (e : TimerEnv) : Down (startReconnectTimer s e) := by
  have hnew := sysOpen_spec (openFds s.log) e.create
  unfold startReconnectTimer
  generalize sysOpen (openFds s.log) e.create = fd at hnew
  have hset : Down { s with reconnectTimerFd := fd } := ⟨h.link, h.nodup, h.serverFd, h.pending⟩
  dsimp only
  split_ifs with hfd
  · exact hset.emit _ rfl
  · have hclosed :=
      (((hset.opened .reconnectTimer (hnew hfd)).emit (.epollCtl .add fd e.add) rfl).closed
      fd).emit (.reconnectTimer false) rfl
    exact ⟨hclosed.link, hclosed.nodup, hclosed.serverFd, hclosed.pending⟩
  · exact (((hset.opened .reconnectTimer (hnew hfd)).emit (.epollCtl .add fd e.add) rfl).emit
      (.settime fd e.settime) rfl).emit (.reconnectTimer e.settime) rfl

theorem connectToServer_up (hcb : ∀ fd, CallbacksKeep (Up fd) cb) (h : Down s)
    (hrec : s.reconnectTimerFd = -1) (e : ConnectEnv α) :
    (∀ t, connectToServer cb e s = (true, t) → IsUp t) ∧
      ∀ t, connectToServer cb e s = (false, t) → Down t := by
  have hnew := sysOpen_spec (openFds s.log) e.socket
  unfold connectToServer
  generalize sysOpen (openFds s.log) e.socket = fd at hnew
  dsimp only
  by_cases hfd : fd = -1
  · rw [if_pos hfd]
    refine ⟨nofun, fun t ht => ?_⟩
    cases ht
    exact h
  rw [if_neg hfd]
  have hopen := h.opened .socket (hnew hfd)
  have hrec' : (s.emit (.opened .socket fd)).reconnectTimerFd = -1 := hrec
  generalize s.emit (.opened .socket fd) = t at hopen hrec'
  have hadd : Down (epollCtlAdd t fd e.addSocket) := hopen.emit _ rfl
  replace hrec' : (epollCtlAdd t fd e.addSocket).reconnectTimerFd = -1 := hrec'
  generalize epollCtlAdd t fd e.addSocket = u at hadd hrec'
  have hnewTimer := sysOpen_spec (openFds u.log) e.timer
  generalize sysOpen (openFds u.log) e.timer = timer at hnewTimer
  have hset : Down { u with keepAliveTimerFd := timer } :=
    ⟨hadd.link, hadd.nodup, hadd.serverFd, hadd.pending⟩
  split_ifs with hcon hblock hadd' ht hat hst <;> refine ⟨fun v hv => ?_, fun v hv => ?_⟩ <;>
    cases hv
  · exact hopen.closed fd
  · exact hopen.closed fd
  · exact hadd.closed fd
  · exact hset.closeFd fd
  all_goals
    have htimer := (hset.opened .keepAliveTimer (hnewTimer ht)).emit
      (.epollCtl .add timer e.addTimer) rfl
  · exact (htimer.closed timer).closeFd fd
  · exact ((htimer.emit (.settime timer e.settime) rfl).closeFd timer).closeFd fd
  · have hstart := htimer.emit (.settime timer e.settime) rfl
    refine ⟨fd, ((hcb fd).connected e.callback _ ?_).emit (.returned .onConnected _) rfl⟩
    refine ⟨if_pos hstart.link, hstart.nodup, hrec', fun _ => ⟨rfl, hfd⟩, fun hp => ?_⟩
    exact absurd (hstart.pending.symm.trans hp) nofun

/-- `connect_to_server()`, and `start_reconnect_timer()` if it fails. -/
theorem connectOrRetry_up (hcb : ∀ fd, CallbacksKeep (Up fd) cb) (h : Down s)
    (hrec : s.reconnectTimerFd = -1) (e : StartEnv α)
    (ht : t = match connectToServer cb e.connect s with
      | (true, s) => s
      | (false, s) => startReconnectTimer s e.reconnect) : Down t ∨ IsUp t := by
  obtain ⟨hcon, hfail⟩ := connectToServer_up hcb h hrec e.connect
  generalize connectToServer cb e.connect s = r at hcon hfail ht
  obtain ⟨ok, u⟩ := r
  cases ok with
  | true => exact Or.inr (ht ▸ hcon u rfl)
  | false => exact Or.inl (ht ▸ startReconnectTimer_down (hfail u rfl) e.reconnect)

/-! ## Calls -/

theorem sends_down (cb : Callbacks Call) : CallsKeep DownIfOk sends cb where
  start h := nomatch h
  stop h := nomatch h
  send enc res s hs hok := by
    have hcall : CallsOk (s.emit (.send s.serverFd s.pendingDisconnect)).log :=
      hok.suffix (clientSend_called s enc res).log_suffix
    obtain ⟨-, -, hserver, hpending⟩ := hs hcall.2
    rcases hcall.1 with hfd | hp
    · exact absurd hserver hfd
    · exact absurd (hpending.symm.trans hp) nofun

/-- The connection is reported, and it has been closed. -/
theorem disconnect_down (h : Up fd s) (hp : s.pendingDisconnect = true) :
    Down ((disconnect s).emit
      (.onDisconnected (disconnect s).disconnectReason (disconnect s).serverFd)) := by
  obtain ⟨hserver, hfd⟩ := h.pending hp
  have hpend : pendingDisconnect s .messageEncodeError = s := if_pos hp
  unfold disconnect
  rw [hpend]
  refine ⟨?_, h.nodup.erase _, hserver, rfl⟩
  have hclosed : fd ∉ (openFds s.log).erase s.keepAliveTimerFd := fun hmem =>
    hfd (List.mem_of_mem_erase hmem)
  have hlink : link (closeFd s s.keepAliveTimerFd).log = some (.up fd) := h.link
  exact (link_onDisconnected _ hlink).trans (if_pos ⟨hclosed, hserver⟩)

theorem clientProcess_lifecycle (hq : CallbacksQuiet cb) (hcb : ∀ fd, CallbacksKeep (Up fd) cb)
    (hcd : CallbacksKeep DownIfOk cb) (fd : ℤ) (e : ProcessEnv α) (h : Down s ∨ IsUp s)
    (hok : CallsOk (clientProcess cb fd e s).log) :
    Down (clientProcess cb fd e s) ∨ IsUp (clientProcess cb fd e s) := by
  have hcall := (hok.suffix (clientProcess_steps hq fd e s).log_suffix).1
  have hemit := h.imp
    (fun h => h.emit (.process fd s.serverFd s.keepAliveTimerFd s.pendingDisconnect) rfl)
    fun h => IsUp.emit h (.process fd s.serverFd s.keepAliveTimerFd s.pendingDisconnect) rfl
  revert hok
  unfold clientProcess
  have hcall' : Event.CallOk (.process fd (s.emit (.process fd s.serverFd s.keepAliveTimerFd
      s.pendingDisconnect)).serverFd (s.emit (.process fd s.serverFd s.keepAliveTimerFd
      s.pendingDisconnect)).keepAliveTimerFd (s.emit (.process fd s.serverFd s.keepAliveTimerFd
      s.pendingDisconnect)).pendingDisconnect) := hcall
  generalize s.emit (.process fd s.serverFd s.keepAliveTimerFd s.pendingDisconnect) = t
    at hemit hcall'
  dsimp only
  have hevent : ∀ u, u =
      (if fd = t.serverFd then processSocket cb e.reads t
      else if fd = t.keepAliveTimerFd then processKeepAliveTimer t e.keepAlive
      else if fd = t.reconnectTimerFd then processReconnectTimer cb e.start t
      else t) → Down u ∨ IsUp u := by
    rintro u rfl
    rcases hemit with hdown | ⟨sock, hup⟩
    · have hfd := hcall'.resolve_left fun hp => absurd (hdown.pending.symm.trans hp) nofun
      have hserver : fd ≠ t.serverFd := hdown.serverFd ▸ hfd.1
      have hkeep : fd ≠ t.keepAliveTimerFd := fun he => hfd.2 he hserver hdown.serverFd
      rw [if_neg hserver, if_neg hkeep]
      split_ifs
      · have hclosed : Down { closeFd t t.reconnectTimerFd with reconnectTimerFd := -1 } := by
          obtain ⟨hlink, hnodup, hserver', hpending⟩ := hdown.closeFd t.reconnectTimerFd
          exact ⟨hlink, hnodup, hserver', hpending⟩
        exact connectOrRetry_up hcb hclosed rfl e.start rfl
      · exact Or.inl hdown
    · right
      split_ifs with hserver hkeep hrec
      · exact ⟨sock, (loop_up hcb).processSocket e.reads hup⟩
      · exact ⟨sock, timer_up.processKeepAliveTimer e.keepAlive hup⟩
      · have hfd : fd = -1 := hrec.trans hup.reconnect
        rcases hcall' with hp | ⟨hne, -⟩
        · exact absurd (hfd.trans (hup.pending hp).1.symm) hserver
        · exact absurd hfd hne
      · exact ⟨sock, hup⟩
  generalize (if fd = t.serverFd then processSocket cb e.reads t
    else if fd = t.keepAliveTimerFd then processKeepAliveTimer t e.keepAlive
    else if fd = t.reconnectTimerFd then processReconnectTimer cb e.start t
    else t) = u at hevent
  split_ifs with hpending
  · intro hok
    rcases hevent u rfl with hdown | ⟨sock, hup⟩
    · exact absurd (hdown.pending.symm.trans hpending) nofun
    · left
      have hcalled : DownIfOk _ := fun _ => disconnect_down hup hpending
      have hback := hcd.disconnected e.disconnected _ hcalled
      generalize cb.onDisconnected e.disconnected _ = w at hback hok
      have hlog := (startReconnectTimer_kept (w.emit (.returned .onDisconnected
        w.pendingDisconnect)) e.reconnect).log_suffix
      have hdown := hback (hok.suffix hlog).2
      exact startReconnectTimer_down (hdown.emit (.returned .onDisconnected _) rfl) e.reconnect
  · exact fun _ => hevent u rfl

/-- The callbacks have alternated, and each connection was closed when it was reported. -/
def Alternating (s : Client) : Prop := link s.log ≠ none

theorem alternating_of (h : Down s ∨ IsUp s) : Alternating s := by
  unfold Alternating
  rcases h with h | ⟨fd, h⟩
  · rw [h.link]
    exact nofun
  · rw [h.link]
    exact nofun

/-- In every run of one start and any number of sends and processed events in which nothing is sent
while the client is disconnected, and neither `-1` nor, while it is disconnected, its keep alive
timer is processed, `on_connected` and `on_disconnected` alternate, and a connection has been closed
when it is reported. -/
theorem lifecycle (m : Client) (sz k : ℕ) (n : ℕ) (e : StartEnv Call) (calls : List Call)
    (hok : CallsOk (run sends sends n calls
      (clientStart (callbacks sends n) e (clientInit m sz k))).log) :
    Alternating (run sends sends n calls
      (clientStart (callbacks sends n) e (clientInit m sz k))) := by
  have hcb : ∀ fd, CallbacksKeep (Up fd) (callbacks sends n) := fun fd =>
    callbacks_keep (fun cb _ => sends_up fd cb) n
  have hcd := callbacks_keep (fun cb _ => sends_down cb) n
  have hq := callbacks_quiet sends n
  have hinit : Down ((clientInit m sz k).emit .start) := ⟨rfl, List.nodup_nil, rfl, rfl⟩
  have hstart := connectOrRetry_up hcb hinit rfl e rfl
  have hsends : CallsKeep (fun s => CallsOk s.log → Down s ∨ IsUp s) sends (callbacks sends n) :=
    { start := fun h => nomatch h
      stop := fun h => nomatch h
      send := fun enc res s hs hok => by
        rcases hs (hok.suffix (clientSend_kept s enc res).log_suffix) with hdown | ⟨fd, hup⟩
        · exact Or.inl ((sends_down (callbacks sends n)).send enc res s (fun _ => hdown) hok)
        · exact Or.inr ⟨fd, timer_up.clientSend enc res hup⟩ }
  have hprocess : ∀ fd e s, (CallsOk s.log → Down s ∨ IsUp s) →
      CallsOk (clientProcess (callbacks sends n) fd e s).log →
      Down (clientProcess (callbacks sends n) fd e s) ∨
        IsUp (clientProcess (callbacks sends n) fd e s) := by
    intro fd e s hs hok
    have hlog := (List.suffix_cons _ _).trans (clientProcess_steps hq fd e s).log_suffix
    exact clientProcess_lifecycle hq hcb hcd fd e (hs (hok.suffix hlog)) hok
  exact alternating_of (run_keeps hsends hprocess calls (fun _ => hstart) hok)

/-- The server refuses, then accepts; a message cannot be sent, and another one is sent before the
client disconnects; then the client connects again. -/
def reconnectCalls : List Call :=
  [.process 7 { nothing with start := accepts 5 6 }, .send (fun _ => none) .error,
    .send (fun _ => none) .error, receive 6 [] 7, reconnect 7 5 6]

set_option maxRecDepth 4000 in
theorem lifecycle_reconnectCalls :
    Alternating (run sends sends 1 reconnectCalls
      (clientStart (callbacks sends 1) (refuses 5 7) (client 16))) :=
  lifecycle memory 16 64 1 (refuses 5 7) reconnectCalls (by decide)

/-- A message is sent while the client is disconnected, and another descriptor is processed. -/
def sendDownCalls : List Call :=
  [.send (fun _ => none) .error, .process 100 { nothing with reconnect := timer 8 }]

/-- `on_disconnected` is called, and there was no connection. -/
theorem not_alternating_sendDownCalls :
    ¬ Alternating (run sends sends 1 sendDownCalls
      (clientStart (callbacks sends 1) (refuses 5 7) (client 16))) := by
  unfold Alternating
  decide

end

end Messi.LinuxClient
