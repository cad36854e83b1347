import Messi.Base.Trace
import Messi.LinuxClient.Rules

/-!
# Stopping the client

`NAME_client_stop()` closes the descriptors, but the code that it returns to goes on: the loop of
`process_socket()` reads from descriptor `-1` and raises a pending disconnect, and
`NAME_client_process()` starts the reconnect timer after `on_disconnected`. Also a later
`NAME_client_process()` of descriptor `-1`, or after a `NAME_client_send()`, disconnects once more.
In every run in which the client is left alone once it is stopped, stop is final (`stop_final`).
-/

namespace Messi.LinuxClient

open Trace Sample

/-- The client has been stopped, and has not been started since. -/
def stopped : List Event → Bool
  | [] => false
  | .start :: _ => false
  | .stop :: _ => true
  | _ :: l => stopped l

/-- The client opens nothing and calls neither `on_connected` nor `on_disconnected` when it is
stopped. -/
def Event.NotStopped (l : List Event) : Event → Prop
  | .opened .. | .onConnected .. | .onDisconnected .. => stopped l = false
  | _ => True

/-- A stopped client does not resume: a callback that leaves the client stopped is `on_connected`,
and no disconnect is pending then; and a descriptor that is processed is neither `-1` nor
`server_fd`, and no disconnect is pending. -/
def Event.LeftAlone (l : List Event) : Event → Prop
  | .returned callback pending => stopped l = true → callback = .onConnected ∧ pending = false
  | .process fd serverFd _ pending => stopped l = true → fd ≠ -1 ∧ fd ≠ serverFd ∧ pending = false
  | _ => True

instance (l : List Event) : DecidablePred (Event.NotStopped l) := fun e => by
  rcases e <;> unfold Event.NotStopped <;> infer_instance

instance (l : List Event) : DecidablePred (Event.LeftAlone l) := fun e => by
  rcases e <;> unfold Event.LeftAlone <;> infer_instance

abbrev StopFinal : List Event → Prop := Always Event.NotStopped

/-- The client is not stopped. -/
def Running (s : Client) : Prop :=
  Always Event.LeftAlone s.log → StopFinal s.log ∧ stopped s.log = false

/-- If the client is stopped, it has no timers. -/
def Settled (s : Client) : Prop :=
  Always Event.LeftAlone s.log → StopFinal s.log ∧
    (stopped s.log = true → s.keepAliveTimerFd = -1 ∧ s.reconnectTimerFd = -1)

/-- If the client is stopped, it has no timers and no disconnect is pending. -/
def Calm (s : Client) : Prop :=
  Always Event.LeftAlone s.log → StopFinal s.log ∧ (stopped s.log = true →
    s.keepAliveTimerFd = -1 ∧ s.reconnectTimerFd = -1 ∧ s.pendingDisconnect = false)

section

variable {l : List Event} {s t : Client}

theorem Running.calm (hs : Running s) : Calm s := fun hc =>
  ⟨(hs hc).1, fun hst => absurd ((hs hc).2.symm.trans hst) nofun⟩

theorem Calm.settled (hs : Calm s) : Settled s := fun hc =>
  ⟨(hs hc).1, fun hst => ⟨((hs hc).2 hst).1, ((hs hc).2 hst).2.1⟩⟩

theorem Running.of_log (hs : Running s) (hlog : t.log = s.log) : Running t := by
  unfold Running
  rwa [hlog]

/-- Whatever happens while the client is not stopped may happen then. -/
theorem Running.emit (hs : Running s) (e : Event)
    (he : ∀ l, stopped (e :: l) = stopped l) : Running (s.emit e) := by
  intro hc
  obtain ⟨hfinal, hst⟩ := hs hc.2
  refine ⟨⟨?_, hfinal⟩, (he s.log).trans hst⟩
  cases e <;> first | exact trivial | exact hst

theorem Settled.emit (hs : Settled s) (e : Event) (ho : ∀ l, e.NotStopped l)
    (he : ∀ l, stopped (e :: l) = stopped l) : Settled (s.emit e) := by
  intro hc
  obtain ⟨hfinal, hst⟩ := hs hc.2
  exact ⟨⟨ho _, hfinal⟩, fun h => hst ((he s.log).symm.trans h)⟩

/-! ## A client that is not stopped -/

theorem pendingDisconnect_running (hs : Running s) (r : DisconnectReason) :
    Running (pendingDisconnect s r) := by
  have hclosed :=
    (hs.emit (.epollCtl .del s.serverFd true) fun _ => rfl).emit (.closed s.serverFd) fun _ => rfl
  unfold pendingDisconnect
  split_ifs
  · exact hs
  · exact hclosed.of_log rfl

theorem disconnect_running (hs : Running s) : Running (disconnect s) := by
  have hpend := pendingDisconnect_running hs .messageEncodeError
  unfold disconnect
  generalize pendingDisconnect s .messageEncodeError = t at hpend
  have hclosed := (hpend.emit (.epollCtl .del t.keepAliveTimerFd true) fun _ => rfl).emit
    (.closed t.keepAliveTimerFd) fun _ => rfl
  exact hclosed.of_log rfl

theorem timer_running : TimerKeeps Running where
  send _ hs := hs.emit _ fun _ => rfl
  write _ _ _ hs := hs.emit _ fun _ => rfl
  pending _ r hs := pendingDisconnect_running hs r
  read _ _ hs := hs.emit _ fun _ => rfl
  settime _ _ hs := hs.emit _ fun _ => rfl
  ping _ hs := hs.of_log rfl

theorem startReconnectTimer_running (hs : Running s) (e : TimerEnv) :
    Running (startReconnectTimer s e) := by
  unfold startReconnectTimer
  generalize sysOpen (openFds s.log) e.create = fd
  have hadd :=
    (hs.emit (.opened .reconnectTimer fd) fun _ => rfl).emit (.epollCtl .add fd e.add) fun _ => rfl
  dsimp only
  split_ifs
  · exact (hs.emit (.reconnectTimer false) fun _ => rfl).of_log rfl
  · exact ((hadd.emit (.closed fd) fun _ => rfl).emit (.reconnectTimer false) fun _ => rfl).of_log
      rfl
  · exact ((hadd.emit (.settime fd e.settime) fun _ => rfl).emit
      (.reconnectTimer e.settime) fun _ => rfl).of_log rfl

/-! ## Callbacks -/

/-- After a message callback, or after `on_disconnected`, the client is not stopped. -/
theorem Settled.returned (hs : Settled s) {callback : Callback} (hne : callback ≠ .onConnected)
    (pending : Bool) : Running (s.emit (.returned callback pending)) := by
  intro hc
  obtain ⟨hfinal, -⟩ := hs hc.2
  refine ⟨⟨trivial, hfinal⟩, ?_⟩
  show stopped s.log = false
  refine Bool.eq_false_iff.2 fun hst => ?_
  exact hne (hc.1 hst).1

/-- After `on_connected` no disconnect is pending if the client is stopped. -/
theorem Settled.returned_calm (hs : Settled s) :
    Calm (s.emit (.returned .onConnected s.pendingDisconnect)) := by
  intro hc
  obtain ⟨hfinal, htimers⟩ := hs hc.2
  refine ⟨⟨trivial, hfinal⟩, fun hst => ?_⟩
  obtain ⟨hkeep, hrec⟩ := htimers hst
  exact ⟨hkeep, hrec, (hc.1 hst).2⟩

variable {α : Type*} {cb : Callbacks α}

theorem loop_running (hcb : CallbacksKeep Settled cb) : LoopKeeps Running cb where
  step s t h hs := by
    rcases h.log with hlog | ⟨e, he, hlog⟩
    · exact hs.of_log hlog
    · have hemit : Running (s.emit e) := by
        cases e <;> first | exact hs.emit _ fun _ => rfl | cases he
      exact hemit.of_log hlog
  pending _ r hs := pendingDisconnect_running hs r
  message l s hs := by
    have hne : Callback.onMessage ≠ .onConnected := nofun
    exact (hcb.message l s hs.calm.settled).returned hne _

theorem connectToServer_calm (hcb : CallbacksKeep Settled cb) (e : ConnectEnv α)
    (hs : Running s) : (∀ t, connectToServer cb e s = (true, t) → Calm t) ∧
      ∀ t, connectToServer cb e s = (false, t) → Running t := by
  unfold connectToServer
  generalize sysOpen (openFds s.log) e.socket = fd
  have hopen := hs.emit (.opened .socket fd) fun _ => rfl
  dsimp only
  generalize s.emit (.opened .socket fd) = t at hopen
  have hadd : Running (epollCtlAdd t fd e.addSocket) := hopen.emit _ fun _ => rfl
  generalize epollCtlAdd t fd e.addSocket = u at hadd
  generalize sysOpen (openFds u.log) e.timer = timer
  have hset : Running { u with keepAliveTimerFd := timer } := hadd
  generalize { u with keepAliveTimerFd := timer } = u at hset
  have htimer : Running (epollCtlAdd (u.emit (.opened .keepAliveTimer timer)) timer e.addTimer) :=
    (hset.emit (.opened .keepAliveTimer timer) fun _ => rfl).emit _ fun _ => rfl
  generalize epollCtlAdd (u.emit (.opened .keepAliveTimer timer)) timer e.addTimer = w at htimer
  have hstart : Running (startKeepAliveTimer w e.settime) := htimer.emit (.settime _ _) fun _ => rfl
  generalize startKeepAliveTimer w e.settime = x at hstart
  split_ifs <;> refine ⟨fun v hv => ?_, fun v hv => ?_⟩ <;> cases hv
  · exact hs
  · exact hopen.emit (.closed fd) fun _ => rfl
  · exact hopen.emit (.closed fd) fun _ => rfl
  · exact hadd.emit (.closed fd) fun _ => rfl
  · exact (hset.emit (.epollCtl .del fd true) fun _ => rfl).emit (.closed fd) fun _ => rfl
  · exact ((htimer.emit (.closed timer) fun _ => rfl).emit
      (.epollCtl .del fd true) fun _ => rfl).emit (.closed fd) fun _ => rfl
  · exact (((hstart.emit (.epollCtl .del timer true) fun _ => rfl).emit
      (.closed timer) fun _ => rfl).emit
      (.epollCtl .del fd true) fun _ => rfl).emit (.closed fd) fun _ => rfl
  · have hcon : Running ({ x with serverFd := fd, pongReceived := true }.emit
        (.onConnected fd x.pendingDisconnect)) := Running.emit hstart _ fun _ => rfl
    exact (hcb.connected e.callback _ hcon.calm.settled).returned_calm

/-- `connect_to_server()`, and `start_reconnect_timer()` if it fails. -/
theorem connectOrRetry_calm (hcb : CallbacksKeep Settled cb) (e : StartEnv α)
    (hs : Running s) : Calm (match connectToServer cb e.connect s with
      | (true, s) => s
      | (false, s) => startReconnectTimer s e.reconnect) := by
  obtain ⟨hcon, hfail⟩ := connectToServer_calm hcb e.connect hs
  generalize connectToServer cb e.connect s = r at hcon hfail
  obtain ⟨ok, t⟩ := r
  cases ok with
  | true => exact hcon t rfl
  | false => exact (startReconnectTimer_running (hfail t rfl) e.reconnect).calm

/-! ## Calls -/

theorem clientStart_settled (hcb : CallbacksKeep Settled cb) (e : StartEnv α) (hs : Settled s) :
    Settled (clientStart cb e s) := by
  have hstart : Running (s.emit .start) := fun hc => ⟨⟨trivial, (hs hc.2).1⟩, rfl⟩
  exact (connectOrRetry_calm hcb e hstart).settled

theorem pendingDisconnect_settled (hs : Settled s) (r : DisconnectReason) :
    Settled (pendingDisconnect s r) := by
  have hclosed := (hs.emit (.epollCtl .del s.serverFd true) (fun _ => trivial) fun _ => rfl).emit
    (.closed s.serverFd) (fun _ => trivial) fun _ => rfl
  unfold pendingDisconnect
  split_ifs
  · exact hs
  · exact hclosed

theorem send_settled : SendKeeps Settled where
  send _ hs := hs.emit _ (fun _ => trivial) fun _ => rfl
  write _ _ _ hs := hs.emit _ (fun _ => trivial) fun _ => rfl
  pending _ r hs := pendingDisconnect_settled hs r

theorem clientStop_settled (hs : Settled s) : Settled (clientStop s) := by
  have hpend := pendingDisconnect_settled hs .messageEncodeError
  unfold clientStop disconnect
  generalize pendingDisconnect s .messageEncodeError = t at hpend
  dsimp only
  split_ifs with hrec
  · exact fun hc => ⟨⟨trivial, trivial, trivial, trivial, trivial, (hpend hc.2.2.2.2.2).1⟩,
      fun _ => ⟨rfl, rfl⟩⟩
  · exact fun hc => ⟨⟨trivial, trivial, trivial, (hpend hc.2.2.2).1⟩,
      fun _ => ⟨rfl, not_not.1 hrec⟩⟩

/-- Nothing is done for a stopped client. -/
theorem clientProcess_stopped {fd : ℤ} (hfd : fd ≠ -1) (hserver : fd ≠ s.serverFd)
    (hkeep : s.keepAliveTimerFd = -1) (hrec : s.reconnectTimerFd = -1)
    (hpending : s.pendingDisconnect = false) (e : ProcessEnv α) : clientProcess cb fd e s =
      s.emit (.process fd s.serverFd s.keepAliveTimerFd s.pendingDisconnect) := by
  unfold clientProcess
  have hkeep' : fd ≠ s.keepAliveTimerFd := hkeep ▸ hfd
  have hrec' : fd ≠ s.reconnectTimerFd := hrec ▸ hfd
  simp only [Client.emit_serverFd, Client.emit_keepAliveTimerFd, Client.emit_reconnectTimerFd,
    if_neg hserver, if_neg hkeep', if_neg hrec', Client.emit_pendingDisconnect, hpending]
  rfl

theorem clientProcess_settled (hq : CallbacksQuiet cb) (hcb : CallbacksKeep Settled cb) (fd : ℤ)
    (e : ProcessEnv α) (hs : Settled s) : Settled (clientProcess cb fd e s) := by
  by_cases hst : stopped s.log = true
  · intro hc
    have hcall := hc.suffix (clientProcess_steps hq fd e s).log_suffix
    obtain ⟨hne, hserver, hpending⟩ := hcall.1 hst
    obtain ⟨hfinal, htimers⟩ := hs hcall.2
    obtain ⟨hkeep, hrec⟩ := htimers hst
    rw [clientProcess_stopped hne hserver hkeep hrec hpending]
    exact ⟨⟨trivial, hfinal⟩, fun _ => ⟨hkeep, hrec⟩⟩
  · have hrun : Running s := fun hc => ⟨(hs hc).1, Bool.eq_false_iff.2 hst⟩
    have hcall :=
      hrun.emit (.process fd s.serverFd s.keepAliveTimerFd s.pendingDisconnect) fun _ => rfl
    unfold clientProcess
    generalize s.emit (.process fd s.serverFd s.keepAliveTimerFd s.pendingDisconnect) = t at hcall
    dsimp only
    have hevent : Calm
        (if fd = t.serverFd then processSocket cb e.reads t
        else if fd = t.keepAliveTimerFd then processKeepAliveTimer t e.keepAlive
        else if fd = t.reconnectTimerFd then processReconnectTimer cb e.start t
        else t) := by
      split_ifs
      · exact ((loop_running hcb).processSocket e.reads hcall).calm
      · exact (timer_running.processKeepAliveTimer e.keepAlive hcall).calm
      · have hclosed := (hcall.emit (.epollCtl .del t.reconnectTimerFd true) fun _ => rfl).emit
          (.closed t.reconnectTimerFd) fun _ => rfl
        exact connectOrRetry_calm hcb e.start (hclosed.of_log rfl)
      · exact hcall.calm
    generalize (if fd = t.serverFd then processSocket cb e.reads t
      else if fd = t.keepAliveTimerFd then processKeepAliveTimer t e.keepAlive
      else if fd = t.reconnectTimerFd then processReconnectTimer cb e.start t
      else t) = u at hevent
    split_ifs with hpending
    · -- A client with a pending disconnect is not stopped here.
      have hrun' : Running u := fun hc => by
        obtain ⟨hfinal, hcalm⟩ := hevent hc
        refine ⟨hfinal, Bool.eq_false_iff.2 fun hst' => ?_⟩
        exact absurd (hpending.symm.trans (hcalm hst').2.2) nofun
      have hne : Callback.onDisconnected ≠ .onConnected := nofun
      have hcalled := (disconnect_running hrun').emit
        (.onDisconnected (disconnect u).disconnectReason (disconnect u).serverFd) fun _ => rfl
      have hback := (hcb.disconnected e.disconnected _ hcalled.calm.settled).returned hne
      exact (startReconnectTimer_running (hback _) e.reconnect).calm.settled
    · exact hevent.settled

theorem calls_settled (may : Rights) {cb : Callbacks Call} (hcb : CallbacksKeep Settled cb) :
    CallsKeep Settled may cb where
  start _ e _ hs := clientStart_settled hcb e hs
  stop _ _ hs := clientStop_settled hs
  send enc res _ hs := send_settled.clientSend enc res hs

/-- In every run in which the client is left alone while it is stopped, it then opens nothing, and
calls neither `on_connected` nor `on_disconnected`, until it is started again. -/
theorem stop_final (m : Client) (sz k : ℕ) (top inner : Rights) (n : ℕ) (calls : List Call)
    (halone : Always Event.LeftAlone (run top inner n calls (clientInit m sz k)).log) :
    StopFinal (run top inner n calls (clientInit m sz k)).log := by
  have hcb := callbacks_keep (fun _ => calls_settled inner) n
  have hinit : Settled (clientInit m sz k) := fun _ => ⟨trivial, nofun⟩
  have hrun := run_keeps (calls_settled top hcb)
    (fun fd e _ => clientProcess_settled (callbacks_quiet inner n) hcb fd e) calls hinit
  exact (hrun halone).1

/-- The client is stopped at top level, an event of its old socket is processed, and the client is
started and stopped in `on_connected`. -/
def restartCalls : List Call :=
  [.start (accepts 5 6), .stop, receive 5 [] 7,
    .start ⟨{ (accepts 5 6).connect with callback := [.stop] }, timer 7⟩, receive 6 [] 7]

set_option maxRecDepth 4000 in
theorem stop_final_restartCalls :
    StopFinal (run anything anything 1 restartCalls (client 16)).log :=
  stop_final memory 16 64 anything anything 1 restartCalls (by decide)

/-- The message callback stops the client. -/
def stopInMessageCalls : List Call :=
  [.start (accepts 5 6), receive 5 [read (.data [2, 0, 0, 0]) [.stop]] 7]

set_option maxRecDepth 4000 in
/-- `on_disconnected` is called, and the reconnect timer is created. -/
theorem not_stopFinal_stopInMessageCalls :
    ¬ StopFinal (run anything anything 1 stopInMessageCalls (client 16)).log := by
  decide

end

end Messi.LinuxClient
