import Messi.Base.Trace
import Messi.AsyncClient.Rules

/-!
# Stopping the async client

`NAME_client_stop()` leaves `is_connected` as it is, and does not take back a call of
`on_disconnected()` that the framework has been asked to make. A run keeps a stopped client quiet
exactly if no such call is made while the client is stopped, and the `on_disconnected` callback
does not leave it stopped (`async_stop_final`).
-/

namespace Messi.AsyncClient

open Trace Sample

/-- A stopped client does not connect, does not start the reconnect timer, and calls neither
`on_connected` nor `on_disconnected`. -/
def Event.NotStopped (l : List Event) : Event → Prop
  | .connect | .timerStart .reconnect | .onConnected | .onDisconnected _ => stopped l = false
  | _ => True

/-- The framework makes no call of `on_disconnected()` while the client is stopped, and the
`on_disconnected` callback does not leave it stopped. -/
def Event.Heeded (l : List Event) : Event → Prop
  | .called | .returned => stopped l = false
  | _ => True

instance (l : List Event) : DecidablePred (Event.NotStopped l) := fun e => by
  rcases e with _ | _ | (_ | _) | _ <;> unfold Event.NotStopped <;> infer_instance

instance (l : List Event) : DecidablePred (Event.Heeded l) := fun e => by
  rcases e <;> unfold Event.Heeded <;> infer_instance

abbrev StopFinal : List Event → Prop := Always Event.NotStopped

/-- The client is not stopped. -/
def Running (s : Client) : Prop :=
  Always Event.Heeded s.log → StopFinal s.log ∧ stopped s.log = false

/-- If the client is stopped, the framework has nothing to deliver but calls. -/
def Settled (s : Client) : Prop :=
  Always Event.Heeded s.log → StopFinal s.log ∧
    (stopped s.log = true → s.stcp = ⟨0, false⟩ ∧ ∀ timer, s.armed timer = false)

section

variable {s t : Client}

/-! ## A client that is not stopped -/

theorem Running.settled (hs : Running s) : Settled s := fun hc =>
  ⟨(hs hc).1, fun hst => absurd ((hs hc).2.symm.trans hst) nofun⟩

theorem Running.of_log (hs : Running s) (hlog : t.log = s.log) : Running t := by
  unfold Running
  rwa [hlog]

/-- Whatever happens while the client is not stopped may happen then. -/
theorem Running.emit (hs : Running s) (e : Event)
    (he : ∀ l, stopped (e :: l) = stopped l) : Running (s.emit e) := by
  intro hc
  obtain ⟨hfinal, hst⟩ := hs hc.2
  refine ⟨⟨?_, hfinal⟩, (he s.log).trans hst⟩
  unfold Event.NotStopped
  split
  · exact hst
  · exact hst
  · exact hst
  · exact hst
  · trivial

theorem timerStart_running (hs : Running s) (timer : Timer) : Running (timerStart s timer) :=
  (hs.emit (.timerStart timer) fun _ => rfl).of_log rfl

theorem stcpConnect_running (hs : Running s) : Running (stcpConnect s) :=
  (hs.emit .connect fun _ => rfl).of_log rfl

/-- What is delivered to a settled client finds it running. -/
theorem Settled.running (hs : Settled s)
    (hdue : s.stcp ≠ ⟨0, false⟩ ∨ ∃ timer, s.armed timer = true) : Running s := by
  intro hc
  obtain ⟨hfinal, hst⟩ := hs hc
  refine ⟨hfinal, Bool.eq_false_iff.2 fun h => ?_⟩
  obtain ⟨hstcp, harmed⟩ := hst h
  rcases hdue with hne | ⟨timer, htimer⟩
  · exact hne hstcp
  · exact absurd (htimer.symm.trans (harmed timer)) nofun

/-! ## A settled client -/

theorem Settled.emit (hs : Settled s) (e : Event) (ho : ∀ l, e.NotStopped l)
    (he : ∀ l, stopped (e :: l) = stopped l) : Settled (s.emit e) := by
  intro hc
  obtain ⟨hfinal, hst⟩ := hs hc.2
  exact ⟨⟨ho _, hfinal⟩, fun h => hst ((he s.log).symm.trans h)⟩

theorem Settled.of_log (hs : Settled s) (hlog : t.log = s.log)
    (hstcp : s.stcp = ⟨0, false⟩ → t.stcp = ⟨0, false⟩)
    (harmed : ∀ timer, s.armed timer = false → t.armed timer = false) : Settled t := by
  unfold Settled
  rw [hlog]
  intro hc
  obtain ⟨hfinal, hst⟩ := hs hc
  exact ⟨hfinal, fun h => ⟨hstcp (hst h).1, fun timer => harmed timer ((hst h).2 timer)⟩⟩

theorem update_false {f : Timer → Bool} {timer u : Timer} (h : f u = false) :
    Function.update f timer false u = false := by
  by_cases hu : u = timer
  · rw [hu, Function.update_self]
  · rwa [Function.update_of_ne hu]

theorem timerStop_settled (hs : Settled s) (timer : Timer) : Settled (timerStop s timer) :=
  (hs.emit (.timerStop timer) (fun _ => trivial) fun _ => rfl).of_log rfl id fun _ => update_false

theorem stcpDisconnect_settled (hs : Settled s) : Settled (stcpDisconnect s) :=
  (hs.emit .disconnect (fun _ => trivial) fun _ => rfl).of_log rfl (fun _ => rfl) fun _ => id

theorem disconnectAndStartReconnectTimer_settled (hs : Settled s) (r : DisconnectReason) :
    Settled (disconnectAndStartReconnectTimer s r) := by
  have hcause := hs.emit (.cause r) (fun _ => trivial) fun _ => rfl
  unfold disconnectAndStartReconnectTimer
  generalize s.emit (.cause r) = t at hcause
  dsimp only
  split_ifs
  · exact hcause
  · have hdown : Settled { t with isConnected := false } := hcause
    have hend := stcpDisconnect_settled (timerStop_settled hdown .keepAlive)
    generalize stcpDisconnect (timerStop { t with isConnected := false } .keepAlive) = u at hend
    have hreason : Settled { u with disconnectReason := r } := hend
    exact hreason.emit .asyncCall (fun _ => trivial) fun _ => rfl

theorem clientStop_settled (hs : Settled s) : Settled (clientStop (s.emit .stop)) := by
  intro hc
  refine ⟨⟨trivial, trivial, trivial, trivial, (hs hc.2.2.2.2).1⟩, fun _ => ⟨rfl, fun timer => ?_⟩⟩
  cases timer <;> rfl

theorem clientStart_running (hs : Settled s) : Running (clientStart (s.emit .start)) := by
  have hstart : Running (s.emit .start) := fun hc => ⟨⟨trivial, (hs hc.2).1⟩, rfl⟩
  exact stcpConnect_running hstart

theorem calls_settled (may : Rights) : CallsKeep may Settled where
  start _ _ hs := (clientStart_running hs).settled
  stop _ _ hs := clientStop_settled hs
  cause _ r hs := disconnectAndStartReconnectTimer_settled hs r
  write _ _ hs := hs.emit _ (fun _ => trivial) fun _ => rfl

theorem loopStep_settled (s t : Client) (h : LoopStep s t) (hs : Settled s) : Settled t := by
  have hstcp : s.stcp = ⟨0, false⟩ → t.stcp = ⟨0, false⟩ := h.stcp.trans
  have harmed : ∀ timer, s.armed timer = false → t.armed timer = false := fun timer =>
    (congrFun h.armed timer).trans
  rcases h.log with hlog | ⟨e, he, hlog⟩
  · exact hs.of_log hlog hstcp harmed
  · have hemit : Settled (s.emit e) := by
      cases e <;> first | exact hs.emit _ (fun _ => trivial) fun _ => rfl | cases he
    exact hemit.of_log hlog hstcp harmed

/-! ## Runs -/

variable {may : Rights}

theorem onDisconnected_settled (calls : List Call) (hs : Settled s) :
    Settled (onDisconnected may calls (s.emit .called)) := by
  have hrun : Running (s.emit .called) := fun hc => ⟨⟨trivial, (hs hc.2).1⟩, hc.1⟩
  have hback := (calls_settled may).callback calls
    (hrun.emit (.onDisconnected s.disconnectReason) fun _ => rfl).settled
  have hret : Running ((callback may calls ((s.emit .called).emit
      (.onDisconnected s.disconnectReason))).emit .returned) :=
    fun hc => ⟨⟨trivial, (hback hc.2).1⟩, hc.1⟩
  exact (timerStart_running hret .reconnect).settled

theorem onStcpConnected_settled (ok : Bool) (calls : List Call) (hs : Running s) :
    Settled (onStcpConnected may ok calls s) := by
  unfold onStcpConnected
  split_ifs
  · have htimer := timerStart_running hs .keepAlive
    have hup : Running
        { timerStart s .keepAlive with pongReceived := true, isConnected := true } := htimer
    exact (calls_settled may).callback calls (hup.emit .onConnected fun _ => rfl).settled
  · exact (timerStart_running hs .reconnect).settled

theorem onKeepAliveTimeout_settled (hs : Running s) : Settled (onKeepAliveTimeout s) := by
  unfold onKeepAliveTimeout
  split_ifs
  · have htimer : Running { timerStart s .keepAlive with pongReceived := false } :=
      timerStart_running hs .keepAlive
    exact (htimer.emit _ fun _ => rfl).settled
  · exact disconnectAndStartReconnectTimer_settled hs.settled _

theorem steps_settled (may : Rights) : StepKeeps may Settled where
  call _ c hs := (calls_settled may).call hs c
  connected s ok calls hdue hs := by
    have hrun := hs.running (Or.inl fun h => hdue.ne' (congrArg Stcp.connects h))
    exact onStcpConnected_settled ok calls (hrun.of_log rfl)
  disconnected s hdue hs := by
    have hrun := hs.running (Or.inl fun h =>
      absurd (hdue.symm.trans (congrArg Stcp.connected h)) nofun)
    have hdown : Running { s with stcp := { s.stcp with connected := false } } := hrun.of_log rfl
    exact disconnectAndStartReconnectTimer_settled hdown.settled _
  input _ es _ hs := (calls_settled may).onStcpInput loopStep_settled es hs
  keepAlive _ hdue hs := onKeepAliveTimeout_settled ((hs.running (Or.inr ⟨_, hdue⟩)).of_log rfl)
  reconnect s hdue hs := by
    have hrun : Running { s with armed := Function.update s.armed .reconnect false } :=
      (hs.running (Or.inr ⟨_, hdue⟩)).of_log rfl
    exact (stcpConnect_running hrun).settled
  called s calls _ hs := onDisconnected_settled calls (s := { s with calls := s.calls - 1 }) hs

/-! ## The other direction -/

/-- A run in which stop is final heeds every stop. -/
def Heeds (s : Client) : Prop := StopFinal s.log → Always Event.Heeded s.log

theorem Heeds.emit (hs : Heeds s) (e : Event) (he : ∀ l, e.Heeded l) : Heeds (s.emit e) :=
  fun hc => ⟨he _, hs hc.2⟩

theorem disconnectAndStartReconnectTimer_heeds (hs : Heeds s) (r : DisconnectReason) :
    Heeds (disconnectAndStartReconnectTimer s r) := by
  have hcause := hs.emit (.cause r) fun _ => trivial
  unfold disconnectAndStartReconnectTimer
  generalize s.emit (.cause r) = t at hcause
  dsimp only
  split_ifs
  · exact hcause
  · exact fun hc => ⟨trivial, trivial, trivial, hcause hc.2.2.2⟩

theorem calls_heeds (may : Rights) : CallsKeep may Heeds where
  start _ _ hs hc := ⟨trivial, trivial, hs hc.2.2⟩
  stop _ _ hs hc := ⟨trivial, trivial, trivial, trivial, hs hc.2.2.2.2⟩
  cause _ r hs := disconnectAndStartReconnectTimer_heeds hs r
  write _ _ hs := hs.emit _ fun _ => trivial

theorem loopStep_heeds (s t : Client) (h : LoopStep s t) (hs : Heeds s) : Heeds t := by
  unfold Heeds
  rcases h.log with hlog | ⟨e, he, hlog⟩ <;> rw [hlog]
  · exact hs
  · cases e <;> first | exact hs.emit _ fun _ => trivial | cases he

/-- The call, and the start of the reconnect timer after the callback, betray a client that is
stopped. -/
theorem onDisconnected_heeds (calls : List Call) (hs : Heeds s) :
    Heeds (onDisconnected may calls (s.emit .called)) := by
  have hcalled : Heeds ((s.emit .called).emit (.onDisconnected s.disconnectReason)) :=
    fun hc => ⟨trivial, hc.1, hs hc.2.2⟩
  have hback := (calls_heeds may).callback calls hcalled
  exact fun hc => ⟨trivial, hc.1, hback hc.2.2⟩

theorem steps_heeds (may : Rights) : StepKeeps may Heeds where
  call _ c hs := (calls_heeds may).call hs c
  connected s ok calls _ hs := by
    unfold onStcpConnected
    split_ifs
    · exact (calls_heeds may).callback calls fun hc => ⟨trivial, trivial, hs hc.2.2⟩
    · exact fun hc => ⟨trivial, hs hc.2⟩
  disconnected s _ hs :=
    disconnectAndStartReconnectTimer_heeds
      (s := { s with stcp := { s.stcp with connected := false } }) hs _
  input _ es _ hs := (calls_heeds may).onStcpInput loopStep_heeds es hs
  keepAlive s _ hs := by
    have hexpired : Heeds { s with armed := Function.update s.armed .keepAlive false } := hs
    unfold onKeepAliveTimeout
    split_ifs
    · exact fun hc => ⟨trivial, trivial, hs hc.2.2⟩
    · exact disconnectAndStartReconnectTimer_heeds hexpired _
  reconnect _ _ hs hc := ⟨trivial, hs hc.2⟩
  called s calls _ hs := onDisconnected_heeds calls (s := { s with calls := s.calls - 1 }) hs

/-- Stop is final in a run exactly if no call of `on_disconnected()` is made while the client is
stopped, and no `on_disconnected` callback leaves it stopped. -/
theorem async_stop_final (m : Client) (inSize outSize : ℕ) (may : Rights) (steps : List Step) :
    StopFinal (run may steps (clientInit m inSize outSize)).log ↔
      Always Event.Heeded (run may steps (clientInit m inSize outSize)).log := by
  refine ⟨?_, fun hheeded => ?_⟩
  · exact (steps_heeds may).run steps (s := clientInit m inSize outSize) fun _ => trivial
  · have hinit : Settled (clientInit m inSize outSize) := fun _ => ⟨trivial, nofun⟩
    exact ((steps_settled may).run steps hinit hheeded).1

/-- The server closes the connection, and the client is stopped before `on_disconnected()` is
called. -/
def stopQueuedSteps : List Step :=
  connectSteps ++ [.disconnected, .call .stop, .called [], .timeout .reconnect]

/-- The client is stopped while connected, and a message then fails to encode. -/
def sendStoppedSteps : List Step :=
  connectSteps ++ [.call .stop, .call (.send fun _ => none), .called []]

/-- `on_disconnected` is called, the reconnect timer started, and the client connects. -/
theorem not_stopFinal_stopQueuedSteps :
    ¬ StopFinal (run anything stopQueuedSteps (client 64)).log ∧
      ¬ StopFinal (run anything sendStoppedSteps (client 64)).log := by
  decide

end

end Messi.AsyncClient
