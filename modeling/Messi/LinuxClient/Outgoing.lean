import Messi.Base.Trace
import Messi.LinuxClient.Rules

/-!
# What the client writes

A frame that is not accepted as a whole makes the client close its socket, unless a disconnect is
pending already; `connect_to_server()` does not clear `pending_disconnect`. In every run in which no
connection is made while a disconnect is pending, what a socket accepts is a prefix of whole frames,
and nothing is written after a short write (`frames_whole`).
-/

namespace Messi.LinuxClient

open Trace Sample

/-- The messages written to a descriptor since it was opened. -/
def written (fd : ℤ) : List Event → List Message
  | [] => []
  | .opened _ fd' :: l => if fd' = fd then [] else written fd l
  | .write fd' m _ :: l => if fd' = fd then written fd l ++ [m] else written fd l
  | _ :: l => written fd l

/-- The bytes that a descriptor has accepted since it was opened. -/
def sent (fd : ℤ) : List Event → List UInt8
  | [] => []
  | .opened _ fd' :: l => if fd' = fd then [] else sent fd l
  | .write fd' m n :: l => if fd' = fd then sent fd l ++ (frameBytes m).take n else sent fd l
  | _ :: l => sent fd l

/-- Every frame written to a descriptor since it was opened has been accepted as a whole. -/
def Whole (fd : ℤ) : List Event → Prop
  | [] => True
  | .opened _ fd' :: l => fd' = fd ∨ Whole fd l
  | .write fd' m n :: l => (fd' = fd → n = (frameBytes m).length) ∧ Whole fd l
  | _ :: l => Whole fd l

/-- Nothing is written to a socket after a short write. -/
def Event.AfterWhole (l : List Event) : Event → Prop
  | .write fd _ _ => fd = -1 ∨ Whole fd l
  | _ => True

/-- A connection is made when no disconnect is pending. -/
def Event.ConnectedClear : Event → Prop
  | .onConnected _ pending => pending = false
  | _ => True

instance : DecidablePred Event.ConnectedClear := fun e => by
  rcases e <;> unfold Event.ConnectedClear <;> infer_instance

/-- What has been written is framed, and a pending disconnect has closed the socket. -/
structure Framed (fd : ℤ) (pending : Bool) (l : List Event) : Prop where
  clear : pending = true → fd = -1
  whole : fd = -1 ∨ Whole fd l
  events : Always Event.AfterWhole l

/-- The same, unless a connection was made while a disconnect was pending. -/
def FramedIfClear (s : Client) : Prop :=
  Always (fun _ => Event.ConnectedClear) s.log → Framed s.serverFd s.pendingDisconnect s.log

section

variable {fd : ℤ} {pending : Bool} {l : List Event} {s t : Client} {e : Event}

def Event.isWrite : Event → Bool
  | .write .. => true
  | _ => false

theorem Whole.cons (h : Whole fd l) (he : e.isWrite = false) : Whole fd (e :: l) := by
  cases e <;> first | exact h | exact Or.inr h | cases he

theorem Framed.cons (h : Framed fd pending l) (he : e.isWrite = false) :
    Framed fd pending (e :: l) := by
  refine ⟨h.clear, h.whole.imp_right fun hw => hw.cons he, ?_, h.events⟩
  cases e <;> first | exact trivial | cases he

theorem FramedIfClear.of (hs : FramedIfClear s) (hlog : s.log <:+ t.log)
    (h : Framed s.serverFd s.pendingDisconnect s.log →
      Framed t.serverFd t.pendingDisconnect t.log) : FramedIfClear t :=
  fun hc => h (hs (hc.suffix hlog))

theorem FramedIfClear.emit (hs : FramedIfClear s) (e : Event) (he : e.isWrite = false) :
    FramedIfClear (s.emit e) :=
  hs.of (List.suffix_cons _ _) fun hf => hf.cons he

/-! ## Writing -/

/-- The socket is closed, or has been. -/
theorem pendingDisconnect_framed (clear : s.pendingDisconnect = true → s.serverFd = -1)
    (events : Always Event.AfterWhole s.log) (r : DisconnectReason) :
    Framed (pendingDisconnect s r).serverFd (pendingDisconnect s r).pendingDisconnect
      (pendingDisconnect s r).log := by
  unfold pendingDisconnect
  split_ifs with hp
  · exact ⟨clear, Or.inl (clear hp), events⟩
  · exact ⟨fun _ => rfl, Or.inl rfl, trivial, trivial, events⟩

/-- A frame is written, and the socket is closed if it was not accepted as a whole. -/
theorem writeMessage_framed (hs : Framed s.serverFd s.pendingDisconnect s.log) (m : Message)
    (res : WriteRes) (r : DisconnectReason) :
    (∀ t, writeMessage s m res = (true, t) → Framed t.serverFd t.pendingDisconnect t.log) ∧
      ∀ t, writeMessage s m res = (false, t) →
        Framed (pendingDisconnect t r).serverFd (pendingDisconnect t r).pendingDisconnect
          (pendingDisconnect t r).log := by
  constructor
  · intro t ht
    obtain ⟨n, -, rfl, hok⟩ := writeMessage_spec ht
    obtain ⟨rfl, -⟩ := hok rfl
    exact ⟨hs.clear, hs.whole.imp_right fun hw => ⟨fun _ => rfl, hw⟩, hs.whole, hs.events⟩
  · intro t ht
    obtain ⟨n, -, rfl, -⟩ := writeMessage_spec ht
    have hevents : Always Event.AfterWhole (s.emit (.write s.serverFd m n)).log :=
      ⟨hs.whole, hs.events⟩
    exact pendingDisconnect_framed (s := s.emit (.write s.serverFd m n)) hs.clear hevents r

theorem FramedIfClear.pendingDisconnect (hs : FramedIfClear s) (r : DisconnectReason) :
    FramedIfClear (pendingDisconnect s r) :=
  hs.of (pendingDisconnect_kept s r).log_suffix fun hf =>
    pendingDisconnect_framed hf.clear hf.events r

theorem clientSend_framed (hs : FramedIfClear s) (enc : Encoder) (res : WriteRes) :
    FramedIfClear (clientSend s enc res) := by
  have hsend := hs.emit (.send s.serverFd s.pendingDisconnect) rfl
  unfold clientSend
  generalize s.emit (.send s.serverFd s.pendingDisconnect) = t at hsend
  dsimp only
  split
  · exact hsend.pendingDisconnect _
  · rename_i payload _
    have hlog := (writeMessage_kept t (messageTypeClientToServerUser, payload) res).log_suffix
    cases hwrite : writeMessage t (messageTypeClientToServerUser, payload) res with
    | mk ok u =>
      rw [hwrite] at hlog
      cases ok with
      | true => exact hsend.of hlog fun hf => (writeMessage_framed hf _ _ .generalError).1 u hwrite
      | false =>
        refine hsend.of (hlog.trans (pendingDisconnect_kept u _).log_suffix) fun hf => ?_
        exact (writeMessage_framed hf _ _ _).2 u hwrite

theorem processKeepAliveTimer_framed (hs : FramedIfClear s) (e : KeepAliveEnv) :
    FramedIfClear (processKeepAliveTimer s e) := by
  unfold processKeepAliveTimer
  dsimp only
  generalize sysReadTimer s.keepAliveTimerFd e.read = read
  have hread := hs.emit (.readTimer s.keepAliveTimerFd read) rfl
  generalize s.emit (.readTimer s.keepAliveTimerFd read) = t at hread
  have htime : FramedIfClear (startKeepAliveTimer t e.settime) := hread.emit (.settime _ _) rfl
  split_ifs
  · exact hread.pendingDisconnect _
  · exact hread.pendingDisconnect _
  · generalize startKeepAliveTimer t e.settime = u at htime
    have hlog := (writeMessage_kept u (messageTypePing, []) e.write).log_suffix
    cases hwrite : writeMessage u (messageTypePing, []) e.write with
    | mk ok w =>
      rw [hwrite] at hlog
      cases ok with
      | true => exact htime.of hlog fun hf => (writeMessage_framed hf _ _ .generalError).1 w hwrite
      | false =>
        refine htime.of (hlog.trans (pendingDisconnect_kept w _).log_suffix) fun hf => ?_
        exact (writeMessage_framed hf _ _ _).2 w hwrite
  · exact htime.pendingDisconnect _

/-! ## Everything else -/

theorem disconnect_framed (hs : FramedIfClear s) : FramedIfClear (disconnect s) := by
  have hpend := hs.pendingDisconnect .messageEncodeError
  have hfd : (LinuxClient.pendingDisconnect s .messageEncodeError).pendingDisconnect = true := by
    unfold LinuxClient.pendingDisconnect
    split_ifs with hp
    · exact hp
    · rfl
  unfold disconnect
  generalize LinuxClient.pendingDisconnect s .messageEncodeError = t at hpend hfd
  refine hpend.of ⟨[_, _], rfl⟩ fun hf => ?_
  have hclosed : Framed t.serverFd t.pendingDisconnect (closeFd t t.keepAliveTimerFd).log :=
    (hf.cons rfl).cons rfl
  exact ⟨nofun, hclosed.whole, hclosed.events⟩

theorem clientStop_framed (hs : FramedIfClear s) : FramedIfClear (clientStop s) := by
  have hdis := disconnect_framed hs
  unfold clientStop
  generalize disconnect s = t at hdis
  dsimp only
  split_ifs
  · exact hdis.of ⟨[_, _, _], rfl⟩ fun hf => ((hf.cons rfl).cons rfl).cons rfl
  · exact hdis.emit .stop rfl

theorem startReconnectTimer_framed (hs : FramedIfClear s) (e : TimerEnv) :
    FramedIfClear (startReconnectTimer s e) := by
  refine hs.of (startReconnectTimer_kept s e).log_suffix fun hf => ?_
  unfold startReconnectTimer
  dsimp only
  split_ifs
  · exact hf.cons rfl
  · exact (((hf.cons rfl).cons rfl).cons rfl).cons rfl
  · exact (((hf.cons rfl).cons rfl).cons rfl).cons rfl

theorem LoopStep.framed (h : LoopStep s t) (hs : FramedIfClear s) : FramedIfClear t := by
  obtain ⟨hserver, -, -, hpending, hlog⟩ := h
  rcases hlog with hlog | ⟨e, he, hlog⟩
  · refine hs.of (hlog ▸ List.suffix_rfl) fun hf => ?_
    rwa [hserver, hpending, hlog]
  · refine hs.of (hlog ▸ List.suffix_cons e s.log) fun hf => ?_
    rw [hserver, hpending, hlog]
    refine hf.cons ?_
    cases e <;> first | rfl | cases he

variable {α : Type*} {cb : Callbacks α}

theorem connectToServer_framed (hcb : CallbacksKeep FramedIfClear cb) (e : ConnectEnv α)
    (hs : FramedIfClear s) : FramedIfClear (connectToServer cb e s).2 := by
  unfold connectToServer
  generalize sysOpen (openFds s.log) e.socket = fd
  have hopen := hs.emit (.opened .socket fd) rfl
  have hwhole : Whole fd (s.emit (.opened .socket fd)).log := Or.inl rfl
  dsimp only
  generalize s.emit (.opened .socket fd) = t at hopen hwhole
  have hadd : FramedIfClear (epollCtlAdd t fd e.addSocket) := hopen.emit _ rfl
  replace hwhole : Whole fd (epollCtlAdd t fd e.addSocket).log := hwhole.cons rfl
  generalize epollCtlAdd t fd e.addSocket = u at hadd hwhole
  generalize sysOpen (openFds u.log) e.timer = timer
  have hset : FramedIfClear { u with keepAliveTimerFd := timer } := hadd
  replace hwhole : Whole fd { u with keepAliveTimerFd := timer }.log := hwhole
  generalize { u with keepAliveTimerFd := timer } = u at hset hwhole
  have htimer : FramedIfClear (epollCtlAdd (u.emit (.opened .keepAliveTimer timer)) timer
      e.addTimer) := (hset.emit (.opened .keepAliveTimer timer) rfl).emit _ rfl
  replace hwhole : Whole fd (epollCtlAdd (u.emit (.opened .keepAliveTimer timer)) timer
      e.addTimer).log := Or.inr hwhole
  generalize epollCtlAdd (u.emit (.opened .keepAliveTimer timer)) timer e.addTimer = w
    at htimer hwhole
  have hstart : FramedIfClear (startKeepAliveTimer w e.settime) := htimer.emit (.settime _ _) rfl
  replace hwhole : Whole fd (startKeepAliveTimer w e.settime).log := hwhole.cons rfl
  generalize startKeepAliveTimer w e.settime = x at hstart hwhole
  split_ifs
  · exact hs
  · exact hopen.emit (.closed fd) rfl
  · exact hopen.emit (.closed fd) rfl
  · exact hadd.emit (.closed fd) rfl
  · exact (hset.emit (.epollCtl .del fd true) rfl).emit (.closed fd) rfl
  · exact ((htimer.emit (.closed timer) rfl).emit (.epollCtl .del fd true) rfl).emit
      (.closed fd) rfl
  · exact (((hstart.emit (.epollCtl .del timer true) rfl).emit (.closed timer) rfl).emit
      (.epollCtl .del fd true) rfl).emit (.closed fd) rfl
  · refine (hcb.connected e.callback _ fun hc => ?_).emit (.returned .onConnected _) rfl
    obtain ⟨-, -, hevents⟩ := hstart hc.2
    have hclear : x.pendingDisconnect = false := hc.1
    exact ⟨fun hp => absurd (hclear.symm.trans hp) nofun, Or.inr hwhole, trivial, hevents⟩

/-- `connect_to_server()`, and `start_reconnect_timer()` if it fails. -/
theorem connectOrRetry_framed (hcb : CallbacksKeep FramedIfClear cb) (e : StartEnv α)
    (hs : FramedIfClear s) : FramedIfClear (match connectToServer cb e.connect s with
      | (true, s) => s
      | (false, s) => startReconnectTimer s e.reconnect) := by
  have hcon := connectToServer_framed hcb e.connect hs
  generalize connectToServer cb e.connect s = r at hcon
  obtain ⟨ok, t⟩ := r
  cases ok with
  | true => exact hcon
  | false => exact startReconnectTimer_framed hcon e.reconnect

theorem processReconnectTimer_framed (hcb : CallbacksKeep FramedIfClear cb) (e : StartEnv α)
    (hs : FramedIfClear s) : FramedIfClear (processReconnectTimer cb e s) :=
  connectOrRetry_framed hcb e (hs.of ⟨[_, _], rfl⟩ fun hf => (hf.cons rfl).cons rfl)

theorem loop_framed (hcb : CallbacksKeep FramedIfClear cb) : LoopKeeps FramedIfClear cb where
  step _ _ h hs := h.framed hs
  pending _ r hs := hs.pendingDisconnect r
  message l s hs := (hcb.message l s hs).emit (.returned .onMessage _) rfl

theorem clientProcess_framed (hcb : CallbacksKeep FramedIfClear cb) (fd : ℤ) (e : ProcessEnv α)
    (hs : FramedIfClear s) : FramedIfClear (clientProcess cb fd e s) := by
  have hcall := hs.emit (.process fd s.serverFd s.keepAliveTimerFd s.pendingDisconnect) rfl
  unfold clientProcess
  generalize s.emit (.process fd s.serverFd s.keepAliveTimerFd s.pendingDisconnect) = t at hcall
  dsimp only
  have hevent : FramedIfClear
      (if fd = t.serverFd then processSocket cb e.reads t
      else if fd = t.keepAliveTimerFd then processKeepAliveTimer t e.keepAlive
      else if fd = t.reconnectTimerFd then processReconnectTimer cb e.start t
      else t) := by
    split_ifs
    · exact (loop_framed hcb).processSocket e.reads hcall
    · exact processKeepAliveTimer_framed hcall e.keepAlive
    · exact processReconnectTimer_framed hcb e.start hcall
    · exact hcall
  generalize (if fd = t.serverFd then processSocket cb e.reads t
    else if fd = t.keepAliveTimerFd then processKeepAliveTimer t e.keepAlive
    else if fd = t.reconnectTimerFd then processReconnectTimer cb e.start t
    else t) = u at hevent
  split_ifs
  · have hcalled := (disconnect_framed hevent).emit
      (.onDisconnected (disconnect u).disconnectReason (disconnect u).serverFd) rfl
    have hback := hcb.disconnected e.disconnected _ hcalled
    exact startReconnectTimer_framed (hback.emit (.returned .onDisconnected _) rfl) e.reconnect
  · exact hevent

theorem calls_framed (may : Rights) {cb : Callbacks Call} (hcb : CallbacksKeep FramedIfClear cb) :
    CallsKeep FramedIfClear may cb where
  start _ e _ hs := connectOrRetry_framed hcb e (hs.emit .start rfl)
  stop _ _ hs := clientStop_framed hs
  send enc res _ hs := clientSend_framed hs enc res

/-! ## Runs -/

theorem sent_of_whole (h : Whole fd l) : sent fd l = (written fd l).flatMap frameBytes := by
  induction l with
  | nil => rfl
  | cons e l ih =>
    cases e
    case opened what fd' =>
      unfold sent written
      split_ifs with hfd
      · rfl
      · exact ih (h.resolve_left hfd)
    case write fd' m n =>
      obtain ⟨hn, hw⟩ := h
      unfold sent written
      split_ifs with hfd
      · rw [List.flatMap_append, List.flatMap_singleton, ih hw, hn hfd, List.take_length]
      · exact ih hw
    all_goals exact ih h

/-- The bytes that a socket has accepted are the first ones of whole frames. -/
theorem sent_prefix_frames (h : Always Event.AfterWhole l) (hfd : fd ≠ -1) :
    sent fd l <+: (written fd l).flatMap frameBytes := by
  induction l with
  | nil => exact List.prefix_rfl
  | cons e l ih =>
    obtain ⟨he, hl⟩ := h
    cases e
    case opened what fd' =>
      unfold sent written
      split_ifs
      · exact List.prefix_rfl
      · exact ih hl
    case write fd' m n =>
      unfold sent written
      split_ifs with heq
      · have hwhole : Whole fd l := (heq ▸ he).resolve_left hfd
        rw [List.flatMap_append, List.flatMap_singleton, sent_of_whole hwhole]
        exact (List.prefix_append_right_inj _).2 (List.take_prefix n _)
      · exact ih hl
    all_goals exact ih hl

/-- In every run in which no connection is made while a disconnect is pending, the bytes that each
socket has accepted are at every moment the first ones of the frames written to it, and nothing is
written to it after a frame that it has not accepted as a whole. -/
theorem frames_whole (m : Client) (sz k : ℕ) (top inner : Rights) (n : ℕ) (calls : List Call)
    (hclear : Always (fun _ => Event.ConnectedClear)
      (run top inner n calls (clientInit m sz k)).log) :
    (∀ l, l <:+ (run top inner n calls (clientInit m sz k)).log → ∀ fd, fd ≠ -1 →
      sent fd l <+: (written fd l).flatMap frameBytes) ∧
    Always Event.AfterWhole (run top inner n calls (clientInit m sz k)).log := by
  have hcb := callbacks_keep (fun _ => calls_framed inner) n
  have hinit : FramedIfClear (clientInit m sz k) := fun _ => ⟨nofun, Or.inl rfl, trivial⟩
  have hframed := run_keeps (calls_framed top hcb) (fun fd e _ => clientProcess_framed hcb fd e)
    calls hinit hclear
  refine ⟨fun l hl fd hfd => ?_, hframed.events⟩
  exact sent_prefix_frames (hframed.events.suffix hl) hfd

/-- An encoder that puts the given payload into the output buffer. -/
def encodes (payload : List UInt8) : Encoder := fun _ => some payload

/-- A whole frame is sent, and five bytes of another one; then the client connects again. -/
def shortCalls : List Call :=
  [.start (accepts 5 6), .send (encodes [1, 2]) (.accepted 6), .send (encodes [3, 4]) (.accepted 5),
    receive 6 [] 7, reconnect 7 5 6, .send (encodes [5]) (.accepted 5)]

set_option maxRecDepth 4000 in
theorem frames_whole_shortCalls :
    (∀ l, l <:+ (run anything anything 1 shortCalls (client 16)).log → ∀ fd, fd ≠ -1 →
      sent fd l <+: (written fd l).flatMap frameBytes) ∧
    Always Event.AfterWhole (run anything anything 1 shortCalls (client 16)).log :=
  frames_whole memory 16 64 anything anything 1 shortCalls (by decide)

/-- A frame is not accepted as a whole, and the client is started again before it has been told to
process anything; then two frames are sent, and the first one is not accepted as a whole either. -/
def pendingCalls : List Call :=
  [.start (accepts 5 6), .send (encodes [1, 2]) (.accepted 5), .start (accepts 8 9),
    .send (encodes [3, 4]) (.accepted 5), .send (encodes [5]) (.accepted 5)]

/-- A whole frame follows the five bytes of the one before. -/
theorem not_afterWhole_pendingCalls :
    ¬ Always Event.AfterWhole (run anything anything 1 pendingCalls (client 16)).log := by
  intro h
  have hwhole : Whole 8 _ := h.1.resolve_left (by decide)
  exact absurd (hwhole.1 rfl) (by decide)

end

end Messi.LinuxClient
