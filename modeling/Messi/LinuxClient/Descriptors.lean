import Messi.Base.Trace
import Messi.LinuxClient.Rules

/-!
# The descriptors of the client

`connect_to_server()` closes the keep alive timer if it cannot be added to epoll or started, but
leaves its number in `keep_alive_timer_fd`. In every run in which that does not happen, the three
fields hold different descriptors that the client has opened and not closed, and the client uses no
other ones (`fields_owned`).
-/

namespace Messi.LinuxClient

open Trace Sample

/-- The descriptor of a system call is `-1`, or open. -/
def Event.Owned (l : List Event) : Event → Prop
  | .closed fd | .epollCtl _ fd _ | .settime fd _ | .readTimer fd _ | .read fd .. | .write fd .. =>
    fd = -1 ∨ fd ∈ openFds l
  | _ => True

instance (l : List Event) : DecidablePred (Event.Owned l) := fun e => by
  rcases e <;> unfold Event.Owned <;> infer_instance

/-- A keep alive timer that has been created is added to epoll and started. -/
def TimerSet : List Event → Event → Prop
  | .opened .keepAliveTimer _ :: _, .epollCtl .add _ ok => ok = true
  | .epollCtl .add _ _ :: .opened .keepAliveTimer _ :: _, .settime _ ok => ok = true
  | _, _ => True

instance (l : List Event) : DecidablePred (TimerSet l) := fun e => by
  unfold TimerSet
  split <;> infer_instance

/-- Three fields that hold `-1` or different descriptors, all of them open. -/
structure Ledger (l : List ℤ) (a b c : ℤ) : Prop where
  left : a = -1 ∨ a ∈ l
  mid : b = -1 ∨ b ∈ l
  right : c = -1 ∨ c ∈ l
  left_mid : a = b → a = -1
  mid_right : b = c → b = -1
  right_left : c = a → c = -1

/-- The three fields of the client. -/
def FieldsOwned (s : Client) : Prop :=
  Ledger (openFds s.log) s.serverFd s.keepAliveTimerFd s.reconnectTimerFd

/-- The client has used its own descriptors only, and holds nothing else. -/
structure Owns (s : Client) : Prop where
  fields : FieldsOwned s
  events : Always Event.Owned s.log

/-- The same, unless a keep alive timer could not be set. -/
def OwnsIfSet (s : Client) : Prop := Always TimerSet s.log → Owns s

section

variable {l : List ℤ} {a b c x : ℤ} {s t : Client} {e : Event}

/-! ## Three fields -/

theorem Ledger.rotate (h : Ledger l a b c) : Ledger l b c a :=
  ⟨h.mid, h.right, h.left, h.mid_right, h.right_left, h.left_mid⟩

theorem Ledger.close (h : Ledger l a b c) : Ledger (l.erase a) (-1) b c := by
  have hkeep : ∀ y, (y = -1 ∨ y ∈ l) → (y = a → y = -1) → y = -1 ∨ y ∈ l.erase a := by
    rintro y (hy | hy) hne
    · exact Or.inl hy
    · by_cases hya : y = a
      · exact Or.inl (hne hya)
      · exact Or.inr ((List.mem_erase_of_ne hya).2 hy)
  refine ⟨Or.inl rfl, hkeep b h.mid ?_, hkeep c h.right h.right_left, fun _ => rfl, h.mid_right, id⟩
  rintro rfl
  exact h.left_mid rfl

theorem Ledger.forget (h : Ledger l a b c) : Ledger l (-1) b c :=
  ⟨Or.inl rfl, h.mid, h.right, fun _ => rfl, h.mid_right, id⟩

theorem Ledger.weaken (h : Ledger l a b c) (x : ℤ) : Ledger (x :: l) a b c :=
  ⟨h.left.imp_right (List.mem_cons_of_mem x), h.mid.imp_right (List.mem_cons_of_mem x),
    h.right.imp_right (List.mem_cons_of_mem x), h.left_mid, h.mid_right, h.right_left⟩

/-- A descriptor that is open already is none of those the other fields hold. -/
theorem Ledger.set (h : Ledger l a b c) (hx : x ∈ l) (hb : x ≠ b) (hc : x ≠ c) : Ledger l x b c :=
  ⟨Or.inr hx, h.mid, h.right, fun he => absurd he hb, h.mid_right, fun he => absurd he.symm hc⟩

theorem Ledger.ne (h : Ledger l a b c) (hx : x ∉ l) (hne : x ≠ -1) : x ≠ a ∧ x ≠ b ∧ x ≠ c := by
  have hfield : ∀ y, (y = -1 ∨ y ∈ l) → x ≠ y := by
    rintro y (rfl | hy)
    · exact hne
    · exact fun he => hx (he ▸ hy)
  exact ⟨hfield a h.left, hfield b h.mid, hfield c h.right⟩

/-! ## Steps that open and close nothing -/

theorem Owns.congr (hs : Owns s) (server : t.serverFd = s.serverFd)
    (keepAlive : t.keepAliveTimerFd = s.keepAliveTimerFd)
    (reconnect : t.reconnectTimerFd = s.reconnectTimerFd) (log : t.log = s.log) : Owns t := by
  obtain ⟨hf, he⟩ := hs
  unfold FieldsOwned at hf
  constructor
  · unfold FieldsOwned
    rwa [server, keepAlive, reconnect, log]
  · rwa [log]

theorem Owns.emit (hs : Owns s) (e : Event) (ho : e.Owned s.log)
    (hopen : openFds (e :: s.log) = openFds s.log) : Owns (s.emit e) := by
  obtain ⟨hf, he⟩ := hs
  refine ⟨?_, ho, he⟩
  unfold FieldsOwned at hf ⊢
  rwa [Client.emit_log, hopen]

theorem closeFd_owns {fd : ℤ} (he : Always Event.Owned s.log) (hfd : fd = -1 ∨ fd ∈ openFds s.log) :
    Always Event.Owned (closeFd s fd).log :=
  ⟨hfd, hfd, he⟩

theorem pendingDisconnect_owns (hs : Owns s) (r : DisconnectReason) :
    Owns (pendingDisconnect s r) := by
  unfold pendingDisconnect
  split_ifs
  · exact hs
  · exact ⟨hs.fields.close, closeFd_owns hs.events hs.fields.left⟩

theorem disconnect_owns (hs : Owns s) : Owns (disconnect s) := by
  have hpend := pendingDisconnect_owns hs .messageEncodeError
  unfold disconnect
  generalize pendingDisconnect s .messageEncodeError = t at hpend
  exact ⟨hpend.fields.rotate.close.rotate.rotate, closeFd_owns hpend.events hpend.fields.mid⟩

theorem clientStop_owns (hs : Owns s) : Owns (clientStop s) := by
  have hdis := disconnect_owns hs
  unfold clientStop
  generalize disconnect s = t at hdis
  dsimp only
  split_ifs
  · refine ⟨?_, trivial, closeFd_owns hdis.events hdis.fields.right⟩
    exact hdis.fields.rotate.rotate.close.rotate
  · exact hdis.emit .stop trivial rfl

theorem timer_owns : TimerKeeps Owns where
  send _ hs := hs.emit _ trivial rfl
  write _ _ _ hs := hs.emit _ hs.fields.left rfl
  pending _ r hs := pendingDisconnect_owns hs r
  read _ _ hs := hs.emit _ hs.fields.mid rfl
  settime _ _ hs := hs.emit _ hs.fields.mid rfl
  ping _ hs := hs.congr rfl rfl rfl rfl

theorem LoopStep.owns (h : LoopStep s t) (hs : Owns s) : Owns t := by
  obtain ⟨hserver, hkeep, hrec, -, hlog⟩ := h
  rcases hlog with hlog | ⟨e, he, hlog⟩
  · exact hs.congr hserver hkeep hrec hlog
  · have hemit : Owns (s.emit e) := by
      cases e <;> first
        | exact hs.emit _ (he ▸ hs.fields.left) rfl
        | exact hs.emit _ trivial rfl
        | cases he
    exact hemit.congr hserver hkeep hrec hlog

/-! ## Opening -/

theorem startReconnectTimer_owns (hs : Owns s) (e : TimerEnv) : Owns (startReconnectTimer s e) := by
  unfold startReconnectTimer
  have hnew := sysOpen_spec (openFds s.log) e.create
  generalize sysOpen (openFds s.log) e.create = fd at hnew
  have hforget := hs.fields.rotate.rotate.forget
  dsimp only
  split_ifs with hfd hadd
  · subst hfd
    exact ⟨hforget.rotate, trivial, hs.events⟩
  · have hopen : fd ∈ openFds (.opened .reconnectTimer fd :: s.log) := List.mem_cons_self
    refine ⟨?_, trivial, Or.inr hopen, Or.inr hopen, trivial, hs.events⟩
    show Ledger ((fd :: openFds s.log).erase fd) s.serverFd s.keepAliveTimerFd (-1)
    rw [List.erase_cons_head]
    exact hforget.rotate
  · have hopen : fd ∈ openFds (.opened .reconnectTimer fd :: s.log) := List.mem_cons_self
    obtain ⟨hserver, hkeep, -⟩ := hs.fields.ne (hnew hfd) hfd
    refine ⟨?_, trivial, Or.inr hopen, Or.inr hopen, trivial, hs.events⟩
    exact ((hforget.weaken fd).set List.mem_cons_self hserver hkeep).rotate

theorem OwnsIfSet.of (hs : OwnsIfSet s) (hlog : s.log <:+ t.log)
    (h : Always TimerSet t.log → Owns s → Owns t) : OwnsIfSet t :=
  fun hset => h hset (hs (hset.suffix hlog))

theorem OwnsIfSet.emit (hs : OwnsIfSet s) (e : Event) (ho : ∀ l, e.Owned l)
    (hopen : openFds (e :: s.log) = openFds s.log) : OwnsIfSet (s.emit e) :=
  hs.of (List.suffix_cons _ _) fun _ hs => hs.emit e (ho _) hopen

variable {α : Type*} {cb : Callbacks α}

theorem connectToServer_owns (hcb : CallbacksKeep OwnsIfSet cb) (e : ConnectEnv α)
    (hs : OwnsIfSet s) : OwnsIfSet (connectToServer cb e s).2 := by
  unfold connectToServer
  have hnew := sysOpen_spec (openFds s.log) e.socket
  generalize sysOpen (openFds s.log) e.socket = fd at hnew
  dsimp only
  have hnewTimer : sysOpen (openFds (epollCtlAdd (s.emit (.opened .socket fd)) fd
      e.addSocket).log) e.timer ≠ -1 → sysOpen (openFds (epollCtlAdd (s.emit
      (.opened .socket fd)) fd e.addSocket).log) e.timer ∉ fd :: openFds s.log := sysOpen_spec _ _
  generalize sysOpen (openFds (epollCtlAdd (s.emit (.opened .socket fd)) fd e.addSocket).log)
    e.timer = timer at hnewTimer
  have hsocket : fd ∈ openFds (.opened .socket fd :: s.log) := List.mem_cons_self
  have hclosed : (fd :: openFds s.log).erase fd = openFds s.log := List.erase_cons_head _ _
  have hfields : Owns s → Ledger ((fd :: openFds s.log).erase fd) s.serverFd s.keepAliveTimerFd
      s.reconnectTimerFd := fun hs => hclosed.symm ▸ hs.fields
  split_ifs with hfd hcon hblock hadd htimer haddTimer hset
  · exact hs
  · exact hs.of ⟨[_, _], rfl⟩ fun _ hs => ⟨hfields hs, Or.inr hsocket, trivial, hs.events⟩
  · exact hs.of ⟨[_, _], rfl⟩ fun _ hs => ⟨hfields hs, Or.inr hsocket, trivial, hs.events⟩
  · exact hs.of ⟨[_, _, _], rfl⟩ fun _ hs =>
      ⟨hfields hs, Or.inr hsocket, Or.inr hsocket, trivial, hs.events⟩
  · refine hs.of ⟨[_, _, _, _], rfl⟩ fun _ hs =>
      ⟨?_, Or.inr hsocket, Or.inr hsocket, Or.inr hsocket, trivial, hs.events⟩
    show Ledger ((fd :: openFds s.log).erase fd) s.serverFd timer _
    rw [hclosed, htimer]
    exact hs.fields.rotate.forget.rotate.rotate
  · intro hc
    have hok : e.addTimer = true := hc.2.2.2.1
    simp [hok] at haddTimer
  · intro hc
    have hok : e.settime = true := hc.2.2.2.2.1
    simp [hok] at hset
  · have htimerFd : timer ∈ openFds (.opened .keepAliveTimer timer ::
        .epollCtl .add fd e.addSocket :: .opened .socket fd :: s.log) := List.mem_cons_self
    refine (hcb.connected e.callback _ ?_).emit (.returned .onConnected _) (fun _ => trivial) rfl
    refine hs.of ⟨[_, _, _, _, _, _], rfl⟩ fun _ hs => ⟨?_, trivial, Or.inr htimerFd,
      Or.inr htimerFd, trivial, Or.inr hsocket, trivial, hs.events⟩
    show Ledger (timer :: fd :: openFds s.log) fd timer s.reconnectTimerFd
    obtain ⟨-, hkeep, hrec⟩ := hs.fields.ne (hnew hfd) hfd
    have hserver := (hs.fields.weaken fd).set List.mem_cons_self hkeep hrec
    obtain ⟨hne, -, hrec'⟩ := hserver.ne (hnewTimer htimer) htimer
    have htimers := (hserver.weaken timer).rotate.set List.mem_cons_self hrec' hne
    exact htimers.rotate.rotate

theorem startReconnectTimer_ownsIfSet (hs : OwnsIfSet s) (e : TimerEnv) :
    OwnsIfSet (startReconnectTimer s e) :=
  hs.of (startReconnectTimer_kept s e).log_suffix fun _ hs => startReconnectTimer_owns hs e

/-- `connect_to_server()`, and `start_reconnect_timer()` if it fails. -/
theorem connectOrRetry_owns (hcb : CallbacksKeep OwnsIfSet cb) (e : StartEnv α)
    (hs : OwnsIfSet s) : OwnsIfSet (match connectToServer cb e.connect s with
      | (true, s) => s
      | (false, s) => startReconnectTimer s e.reconnect) := by
  have hcon := connectToServer_owns hcb e.connect hs
  generalize connectToServer cb e.connect s = r at hcon
  obtain ⟨ok, t⟩ := r
  cases ok with
  | true => exact hcon
  | false => exact startReconnectTimer_ownsIfSet hcon e.reconnect

theorem processReconnectTimer_owns (hcb : CallbacksKeep OwnsIfSet cb) (e : StartEnv α)
    (hs : OwnsIfSet s) : OwnsIfSet (processReconnectTimer cb e s) := by
  refine connectOrRetry_owns hcb e ?_
  exact hs.of ⟨[_, _], rfl⟩ fun _ hs =>
    ⟨hs.fields.rotate.rotate.close.rotate, closeFd_owns hs.events hs.fields.right⟩

/-! ## Runs -/

theorem loop_owns (hcb : CallbacksKeep OwnsIfSet cb) : LoopKeeps OwnsIfSet cb where
  step s t h hs := by
    refine hs.of ?_ fun _ hs => h.owns hs
    rcases h.log with hlog | ⟨e, -, hlog⟩
    · exact hlog ▸ List.suffix_rfl
    · exact hlog ▸ List.suffix_cons e s.log
  pending s r hs :=
    hs.of (pendingDisconnect_kept s r).log_suffix fun _ hs => pendingDisconnect_owns hs r
  message l s hs := (hcb.message l s hs).emit (.returned .onMessage _) (fun _ => trivial) rfl

theorem clientProcess_owns (hcb : CallbacksKeep OwnsIfSet cb) (fd : ℤ) (e : ProcessEnv α)
    (hs : OwnsIfSet s) : OwnsIfSet (clientProcess cb fd e s) := by
  have hcall := hs.emit (.process fd s.serverFd s.keepAliveTimerFd s.pendingDisconnect)
    (fun _ => trivial) rfl
  unfold clientProcess
  generalize s.emit (.process fd s.serverFd s.keepAliveTimerFd s.pendingDisconnect) = t at hcall
  dsimp only
  have hevent : OwnsIfSet
      (if fd = t.serverFd then processSocket cb e.reads t
      else if fd = t.keepAliveTimerFd then processKeepAliveTimer t e.keepAlive
      else if fd = t.reconnectTimerFd then processReconnectTimer cb e.start t
      else t) := by
    split_ifs
    · exact (loop_owns hcb).processSocket e.reads hcall
    · exact hcall.of (processKeepAliveTimer_kept t e.keepAlive).log_suffix fun _ hs =>
        timer_owns.processKeepAliveTimer e.keepAlive hs
    · exact processReconnectTimer_owns hcb e.start hcall
    · exact hcall
  generalize (if fd = t.serverFd then processSocket cb e.reads t
    else if fd = t.keepAliveTimerFd then processKeepAliveTimer t e.keepAlive
    else if fd = t.reconnectTimerFd then processReconnectTimer cb e.start t
    else t) = u at hevent
  split_ifs
  · have hdown := hevent.of (disconnect_kept u).log_suffix fun _ hs => disconnect_owns hs
    have hcalled := hdown.emit
      (.onDisconnected (disconnect u).disconnectReason (disconnect u).serverFd) (fun _ => trivial)
      rfl
    have hback := hcb.disconnected e.disconnected _ hcalled
    exact startReconnectTimer_ownsIfSet
      (hback.emit (.returned .onDisconnected _) (fun _ => trivial) rfl) e.reconnect
  · exact hevent

theorem calls_own (may : Rights) {cb : Callbacks Call} (hcb : CallbacksKeep OwnsIfSet cb) :
    CallsKeep OwnsIfSet may cb where
  start _ e _ hs := connectOrRetry_owns hcb e (hs.emit .start (fun _ => trivial) rfl)
  stop _ s hs := hs.of (clientStop_kept s).log_suffix fun _ hs => clientStop_owns hs
  send enc res s hs := hs.of (clientSend_kept s enc res).log_suffix fun _ hs =>
    timer_owns.clientSend enc res hs

/-- In every run in which every keep alive timer that is created is also added to epoll and started,
each of the three fields holds `-1` or a descriptor that the client has opened and not closed, no
two of them hold the same one, and the client has used no other descriptor. -/
theorem fields_owned (m : Client) (sz k : ℕ) (top inner : Rights) (n : ℕ) (calls : List Call)
    (hset : Always TimerSet (run top inner n calls (clientInit m sz k)).log) :
    FieldsOwned (run top inner n calls (clientInit m sz k)) ∧
      Always Event.Owned (run top inner n calls (clientInit m sz k)).log := by
  have hcb := callbacks_keep (fun _ => calls_own inner) n
  have hinit : OwnsIfSet (clientInit m sz k) := fun _ =>
    ⟨⟨Or.inl rfl, Or.inl rfl, Or.inl rfl, fun _ => rfl, fun _ => rfl, fun _ => rfl⟩, trivial⟩
  obtain ⟨hfields, hevents⟩ := run_keeps (calls_own top hcb)
    (fun fd e _ => clientProcess_owns hcb fd e) calls hinit hset
  exact ⟨hfields, hevents⟩

/-- The server refuses, then accepts, sends half a header and goes away; then the client is
stopped. -/
def refusedCalls : List Call :=
  [.start (refuses 5 7), reconnect 7 5 6, receive 5 [read (.data [2, 0]) [], read (.data []) []] 7,
    .stop]

set_option maxRecDepth 4000 in
theorem fields_owned_refusedCalls :
    FieldsOwned (run anything anything 1 refusedCalls (client 16)) ∧
      Always Event.Owned (run anything anything 1 refusedCalls (client 16)).log :=
  fields_owned memory 16 64 anything anything 1 refusedCalls (by decide)

/-- The keep alive timer cannot be started, and the reconnect timer gets its number. -/
def unsetCalls : List Call :=
  [.start ⟨⟨some 5, true, true, true, some 6, true, false, []⟩, timer 6⟩]

/-- The keep alive timer that has been closed and the reconnect timer are the same descriptor. -/
theorem not_fieldsOwned_unsetCalls :
    ¬ FieldsOwned (run anything anything 1 unsetCalls (client 16)) := by
  intro h
  exact absurd (h.mid_right (by decide)) (by decide)

end

end Messi.LinuxClient
