import Messi.LinuxClient.Rules

/-!
# The client is never stuck

All timers are one-shot, and are closed and created again on every transition. What a descriptor is,
whether epoll watches it and whether it is armed are read off the log; after every call one of the
two timers of a client that has been started is alive (`never_stuck`).
-/

namespace Messi.LinuxClient

open Sample

/-- What an open descriptor is. -/
def ownerOf (fd : ℤ) : List Event → Option Descriptor
  | [] => none
  | .opened what fd' :: l => if fd' = fd then some what else ownerOf fd l
  | .closed fd' :: l => if fd' = fd then none else ownerOf fd l
  | _ :: l => ownerOf fd l

/-- The descriptor has been added to epoll. -/
def registered (fd : ℤ) : List Event → Bool
  | [] => false
  | .opened _ fd' :: l | .closed fd' :: l | .epollCtl .del fd' _ :: l =>
    if fd' = fd then false else registered fd l
  | .epollCtl .add fd' ok :: l => if fd' = fd then ok || registered fd l else registered fd l
  | _ :: l => registered fd l

/-- The timer is armed, or it has expired and has not been read since. -/
def armed (fd : ℤ) : List Event → Bool
  | [] => false
  | .opened _ fd' :: l | .closed fd' :: l => if fd' = fd then false else armed fd l
  | .settime fd' ok :: l => if fd' = fd then ok || armed fd l else armed fd l
  | .readTimer fd' ok :: l => if fd' = fd then !ok && armed fd l else armed fd l
  | _ :: l => armed fd l

/-- An open timer that epoll watches, and that will expire or has expired. -/
structure Alive (l : List Event) (fd : ℤ) : Prop where
  timer : ownerOf fd l = some .keepAliveTimer ∨ ownerOf fd l = some .reconnectTimer
  registered : registered fd l = true
  armed : armed fd l = true

/-- One of the client's timers is alive. -/
def NotStuck (s : Client) : Prop :=
  Alive s.log s.keepAliveTimerFd ∨ Alive s.log s.reconnectTimerFd

/-- What the client keeps also while it changes its timers: its socket is none of them. -/
structure Steady (s : Client) : Prop where
  noFd : ownerOf (-1) s.log = none
  socket : s.serverFd = -1 ∨ ownerOf s.serverFd s.log = some .socket
  keepAlive : s.serverFd ≠ -1 → s.keepAliveTimerFd ≠ s.serverFd

/-- The client will be told to process something. -/
structure Watched (s : Client) : Prop where
  steady : Steady s
  notStuck : NotStuck s

/-- The event opens, closes, watches, arms or reads the descriptor. -/
def Event.concerns (fd : ℤ) : Event → Prop
  | .opened _ fd' | .closed fd' | .epollCtl _ fd' _ | .settime fd' _ | .readTimer fd' _ => fd' = fd
  | _ => False

section

variable {fd : ℤ} {l : List Event} {s t : Client} {e : Event}

/-! ## What the log says about a descriptor -/

theorem ownerOf_cons (he : ¬ e.concerns fd) : ownerOf fd (e :: l) = ownerOf fd l := by
  cases e <;> first | rfl | exact if_neg he

theorem registered_cons (he : ¬ e.concerns fd) : registered fd (e :: l) = registered fd l := by
  cases e
  case epollCtl op fd' ok => cases op <;> first | rfl | exact if_neg he
  all_goals first | rfl | exact if_neg he

theorem armed_cons (he : ¬ e.concerns fd) : armed fd (e :: l) = armed fd l := by
  cases e <;> first | rfl | exact if_neg he

theorem Alive.cons (h : Alive l fd) (he : ¬ e.concerns fd) : Alive (e :: l) fd := by
  obtain ⟨htimer, hreg, harmed⟩ := h
  refine ⟨?_, ?_, ?_⟩
  · rwa [ownerOf_cons he]
  · rwa [registered_cons he]
  · rwa [armed_cons he]

theorem mem_openFds_of_ownerOf {what : Descriptor} (h : ownerOf fd l = some what) :
    fd ∈ openFds l := by
  induction l with
  | nil => cases h
  | cons e l ih =>
    cases e
    case opened kind fd' =>
      unfold ownerOf at h
      split_ifs at h with hfd
      · exact hfd ▸ List.mem_cons_self
      · exact List.mem_cons_of_mem fd' (ih h)
    case closed fd' =>
      unfold ownerOf at h
      split_ifs at h with hfd
      exact (List.mem_erase_of_ne (Ne.symm hfd)).2 (ih h)
    all_goals exact ih h

/-- A live timer is a descriptor, and is not the client's socket. -/
theorem Steady.ne (h : Steady s) (ha : Alive s.log fd) : fd ≠ -1 ∧ fd ≠ s.serverFd := by
  have hne : fd ≠ -1 := by
    rintro rfl
    rcases ha.timer with ht | ht
    · exact absurd (h.noFd.symm.trans ht) nofun
    · exact absurd (h.noFd.symm.trans ht) nofun
  refine ⟨hne, ?_⟩
  rintro rfl
  have hsocket := h.socket.resolve_left hne
  rcases ha.timer with ht | ht
  · exact absurd (hsocket.symm.trans ht) nofun
  · exact absurd (hsocket.symm.trans ht) nofun

/-- What is new is not the client's socket. -/
theorem Steady.ne_new (h : Steady s) (hfd : fd ∉ openFds s.log) (hs : s.serverFd ≠ -1) :
    fd ≠ s.serverFd := by
  rintro rfl
  exact hfd (mem_openFds_of_ownerOf (h.socket.resolve_left hs))

/-- An event about something else than the socket. -/
theorem Steady.emit (h : Steady s) (e : Event) (he : s.serverFd ≠ -1 → ¬ e.concerns s.serverFd)
    (hopen : ∀ what fd, e = .opened what fd → fd ≠ -1) : Steady (s.emit e) := by
  refine ⟨?_, ?_, h.keepAlive⟩
  · show ownerOf (-1) (e :: s.log) = none
    cases e
    case opened what fd => exact (if_neg (hopen what fd rfl)).trans h.noFd
    case closed fd =>
      unfold ownerOf
      split_ifs
      · rfl
      · exact h.noFd
    all_goals exact h.noFd
  · by_cases hfd : s.serverFd = -1
    · exact Or.inl hfd
    · refine Or.inr ?_
      rw [Client.emit_log, Client.emit_serverFd, ownerOf_cons (he hfd)]
      exact h.socket.resolve_left hfd

/-- An event that is about no descriptor. -/
theorem Watched.emit (h : Watched s) (e : Event) (he : ∀ fd, ¬ e.concerns fd) :
    Watched (s.emit e) := by
  refine ⟨h.steady.emit e (fun _ => he _) ?_, ?_⟩
  · rintro what fd rfl
    exact absurd rfl (he fd)
  · exact h.notStuck.imp (fun ha => ha.cons (he _)) fun ha => ha.cons (he _)

/-! ## Disconnecting -/

theorem pendingDisconnect_steady (h : Steady s) (r : DisconnectReason) :
    Steady (pendingDisconnect s r) := by
  unfold pendingDisconnect
  split_ifs
  · exact h
  · refine ⟨?_, Or.inl rfl, fun hne => absurd rfl hne⟩
    show ownerOf (-1) (.closed s.serverFd :: .epollCtl .del s.serverFd true :: s.log) = none
    unfold ownerOf
    split_ifs
    · rfl
    · exact h.noFd

theorem pendingDisconnect_notStuck (h : Watched s) (r : DisconnectReason) :
    NotStuck (pendingDisconnect s r) := by
  have hkeep : ∀ fd, Alive s.log fd →
      Alive (.closed s.serverFd :: .epollCtl .del s.serverFd true :: s.log) fd := fun fd ha => by
    have hne := (h.steady.ne ha).2.symm
    have hdel : Alive (.epollCtl .del s.serverFd true :: s.log) fd := ha.cons hne
    exact hdel.cons hne
  unfold pendingDisconnect
  split_ifs
  · exact h.notStuck
  · exact h.notStuck.imp (hkeep _) (hkeep _)

theorem pendingDisconnect_watched (h : Watched s) (r : DisconnectReason) :
    Watched (pendingDisconnect s r) :=
  ⟨pendingDisconnect_steady h.steady r, pendingDisconnect_notStuck h r⟩

theorem pendingDisconnect_pending (s : Client) (r : DisconnectReason) :
    (pendingDisconnect s r).pendingDisconnect = true := by
  unfold pendingDisconnect
  split_ifs with h
  · exact h
  · rfl

theorem disconnect_steady (h : Steady s) : Steady (disconnect s) := by
  have hpend := pendingDisconnect_steady h .messageEncodeError
  unfold disconnect
  generalize pendingDisconnect s .messageEncodeError = t at hpend
  have hdel : Steady (epollCtlDel t t.keepAliveTimerFd) :=
    hpend.emit (.epollCtl .del t.keepAliveTimerFd true) hpend.keepAlive fun _ _ => nofun
  have hclosed : Steady (closeFd t t.keepAliveTimerFd) :=
    hdel.emit (.closed t.keepAliveTimerFd) hpend.keepAlive fun _ _ => nofun
  exact ⟨hclosed.noFd, hclosed.socket, fun hne => hne.symm⟩

/-! ## Sending -/

theorem Steady.emitOther (h : Steady s) (e : Event) (he : ∀ fd, ¬ e.concerns fd) :
    Steady (s.emit e) := by
  refine h.emit e (fun _ => he _) ?_
  rintro what fd rfl
  exact absurd rfl (he fd)

theorem send_steady : SendKeeps Steady where
  send _ hs := hs.emitOther _ fun _ => id
  write _ _ _ hs := hs.emitOther _ fun _ => id
  pending _ r hs := pendingDisconnect_steady hs r

theorem send_watched : SendKeeps Watched where
  send _ hs := hs.emit _ fun _ => id
  write _ _ _ hs := hs.emit _ fun _ => id
  pending _ r hs := pendingDisconnect_watched hs r

/-- The user sends in the callbacks, and neither starts nor stops the client. -/
def sends : Rights := ⟨false, false⟩

theorem sends_steady (cb : Callbacks Call) : CallsKeep Steady sends cb where
  start h := nomatch h
  stop h := nomatch h
  send enc res _ hs := send_steady.clientSend enc res hs

theorem sends_watched (cb : Callbacks Call) : CallsKeep Watched sends cb where
  start h := nomatch h
  stop h := nomatch h
  send enc res _ hs := send_watched.clientSend enc res hs

/-! ## Timers -/

/-- The reconnect timer has been started. -/
theorem startReconnectTimer_watched (h : Steady s) (e : TimerEnv)
    (hok : .reconnectTimer false ∉ (startReconnectTimer s e).log) :
    Watched (startReconnectTimer s e) := by
  have hnew := sysOpen_spec (openFds s.log) e.create
  revert hok
  unfold startReconnectTimer
  generalize sysOpen (openFds s.log) e.create = fd at hnew
  dsimp only
  split_ifs with hfd hadd
  · intro hok
    exact absurd List.mem_cons_self hok
  · intro hok
    exact absurd List.mem_cons_self hok
  · intro hok
    have hset : e.settime = true := by
      by_contra hset
      rw [Bool.eq_false_of_not_eq_true hset] at hok
      exact hok List.mem_cons_self
    have hadd' : e.add = true := by simpa using hadd
    have hne : s.serverFd ≠ -1 → ¬ Event.concerns s.serverFd (.opened .reconnectTimer fd) :=
      h.ne_new (hnew hfd)
    have hopen := h.emit (.opened .reconnectTimer fd) hne fun _ _ he => by cases he; exact hfd
    have hwatch := hopen.emit (.epollCtl .add fd e.add) hne fun _ _ => nofun
    have harm := hwatch.emit (.settime fd e.settime) hne fun _ _ => nofun
    have hlast := harm.emitOther (.reconnectTimer e.settime) fun _ => id
    refine ⟨⟨hlast.noFd, hlast.socket, hlast.keepAlive⟩, Or.inr ⟨Or.inr ?_, ?_, ?_⟩⟩
    · exact if_pos rfl
    · show registered fd (.epollCtl .add fd e.add :: .opened .reconnectTimer fd :: s.log) = true
      rw [hadd']
      exact if_pos rfl
    · show armed fd (.settime fd e.settime :: _) = true
      rw [hset]
      exact if_pos rfl

/-- A timer that is read and started again is alive, and other timers stay so. -/
theorem Alive.again (h : Alive l fd) (fd' : ℤ) (ok : Bool) :
    Alive (.settime fd' true :: .readTimer fd' ok :: l) fd := by
  by_cases hfd : fd' = fd
  · exact ⟨h.timer, h.registered, if_pos hfd⟩
  · have hread : Alive (.readTimer fd' ok :: l) fd := h.cons hfd
    exact hread.cons hfd

theorem startReconnectTimer_steady (h : Steady s) (e : TimerEnv) :
    Steady (startReconnectTimer s e) := by
  have hnew := sysOpen_spec (openFds s.log) e.create
  unfold startReconnectTimer
  generalize sysOpen (openFds s.log) e.create = fd at hnew
  have hset : Steady { s with reconnectTimerFd := fd } := ⟨h.noFd, h.socket, h.keepAlive⟩
  dsimp only
  by_cases hfd : fd = -1
  · rw [if_pos hfd]
    exact hset.emitOther _ fun _ => id
  rw [if_neg hfd]
  have hne := h.ne_new (hnew hfd)
  have hopen : Steady ({ s with reconnectTimerFd := fd }.emit (.opened .reconnectTimer fd)) :=
    hset.emit _ hne fun _ _ he => by cases he; exact hfd
  have hadd := hopen.emit (.epollCtl .add fd e.add) hne fun _ _ => nofun
  split_ifs
  · have hclosed := (hadd.emit (.closed fd) hne fun _ _ => nofun).emitOther
      (.reconnectTimer false) fun _ => id
    exact ⟨hclosed.noFd, hclosed.socket, hclosed.keepAlive⟩
  · exact (hadd.emit (.settime fd e.settime) hne fun _ _ => nofun).emitOther _ fun _ => id

/-- The keep alive timer has been started again, or the client will disconnect. -/
theorem processKeepAliveTimer_watched (h : Watched s) (e : KeepAliveEnv) :
    Steady (processKeepAliveTimer s e) ∧
      ((processKeepAliveTimer s e).pendingDisconnect = true ∨
        NotStuck (processKeepAliveTimer s e)) := by
  have hfail : ∀ {s : Client} (r : DisconnectReason), Steady s → Steady (pendingDisconnect s r) ∧
      ((pendingDisconnect s r).pendingDisconnect = true ∨ NotStuck (pendingDisconnect s r)) :=
    fun r hs => ⟨pendingDisconnect_steady hs r, Or.inl (pendingDisconnect_pending _ r)⟩
  unfold processKeepAliveTimer
  dsimp only
  generalize sysReadTimer s.keepAliveTimerFd e.read = read
  have hread : Steady (s.emit (.readTimer s.keepAliveTimerFd read)) :=
    h.steady.emit _ h.steady.keepAlive fun _ _ => nofun
  have htime : Steady (startKeepAliveTimer (s.emit (.readTimer s.keepAliveTimerFd read))
      e.settime) := hread.emit _ h.steady.keepAlive fun _ _ => nofun
  have halive : e.settime = true → NotStuck (startKeepAliveTimer
      (s.emit (.readTimer s.keepAliveTimerFd read)) e.settime) := fun hset =>
    h.notStuck.imp (fun ha => hset ▸ ha.again _ _) fun ha => hset ▸ ha.again _ _
  generalize s.emit (.readTimer s.keepAliveTimerFd read) = t at hread htime halive
  split_ifs with hr hpong hset
  · exact hfail _ hread
  · exact hfail _ hread
  · have hwatched : Watched (startKeepAliveTimer t e.settime) := ⟨htime, halive hset⟩
    generalize startKeepAliveTimer t e.settime = u at hwatched
    cases hwrite : writeMessage u (messageTypePing, []) e.write with
    | mk ok w =>
      obtain ⟨n, -, rfl, -⟩ := writeMessage_spec hwrite
      have hwritten := hwatched.emit (.write u.serverFd (messageTypePing, []) n) fun _ => id
      cases ok with
      | true => exact ⟨⟨hwritten.steady.noFd, hwritten.steady.socket, hwritten.steady.keepAlive⟩,
          Or.inr hwritten.notStuck⟩
      | false => exact hfail _ hwritten.steady
  · exact hfail _ htime

variable {α : Type*} {cb : Callbacks α}

/-- The client has a new socket, and its descriptor is not in a field yet. -/
structure Opening (fd : ℤ) (s : Client) : Prop where
  steady : Steady s
  owner : ownerOf fd s.log = some .socket
  ne : s.serverFd ≠ -1 → fd ≠ s.serverFd

theorem Opening.closed (h : Opening fd s) : Steady (s.emit (.closed fd)) :=
  h.steady.emit _ h.ne fun _ _ => nofun

theorem Opening.closeFd (h : Opening fd s) :
    Steady ((s.emit (.epollCtl .del fd true)).emit (.closed fd)) := by
  have hdel : Steady (s.emit (.epollCtl .del fd true)) := h.steady.emit _ h.ne fun _ _ => nofun
  exact hdel.emit _ h.ne fun _ _ => nofun

/-- The keep alive timer is created; it is neither the new socket nor the old one. -/
theorem Opening.timer (h : Opening fd s) {timer : ℤ} (hnew : timer ≠ -1 → timer ∉ openFds s.log) :
    Opening fd { s with keepAliveTimerFd := timer } ∧
      (timer ≠ -1 → timer ≠ fd ∧ (s.serverFd ≠ -1 → timer ≠ s.serverFd)) := by
  have hne : timer ≠ -1 → s.serverFd ≠ -1 → timer ≠ s.serverFd := fun ht =>
    h.steady.ne_new (hnew ht)
  refine ⟨⟨⟨h.steady.noFd, h.steady.socket, fun hs => ?_⟩, h.owner, h.ne⟩, fun ht => ⟨?_, hne ht⟩⟩
  · by_cases ht : timer = -1
    · exact fun he => hs (he.symm.trans ht)
    · exact hne ht hs
  · rintro rfl
    exact hnew ht (mem_openFds_of_ownerOf h.owner)

/-- An event about the timer. -/
theorem Opening.emit (h : Opening fd s) (e : Event) (hfd : ¬ e.concerns fd)
    (hne : s.serverFd ≠ -1 → ¬ e.concerns s.serverFd)
    (hopen : ∀ what fd, e = .opened what fd → fd ≠ -1) : Opening fd (s.emit e) := by
  refine ⟨h.steady.emit e hne hopen, ?_, h.ne⟩
  rw [Client.emit_log, ownerOf_cons hfd]
  exact h.owner

/-- A connected client has a keep alive timer. -/
theorem connectToServer_watched (hcb : CallbacksKeep Watched cb) (h : Steady s) (e : ConnectEnv α) :
    (∀ t, connectToServer cb e s = (true, t) → Watched t) ∧
      ∀ t, connectToServer cb e s = (false, t) → Steady t := by
  have hnew := sysOpen_spec (openFds s.log) e.socket
  unfold connectToServer
  generalize sysOpen (openFds s.log) e.socket = fd at hnew
  dsimp only
  by_cases hfd : fd = -1
  · rw [if_pos hfd]
    refine ⟨nofun, fun t ht => ?_⟩
    cases ht
    exact h
  rw [if_neg hfd]
  have hopen : Opening fd (s.emit (.opened .socket fd)) := by
    have hne := h.ne_new (hnew hfd)
    exact ⟨h.emit _ hne fun _ _ he => by cases he; exact hfd, if_pos rfl, hne⟩
  generalize s.emit (.opened .socket fd) = t at hopen
  have hadd : Opening fd (epollCtlAdd t fd e.addSocket) :=
    ⟨hopen.steady.emit _ hopen.ne fun _ _ => nofun, hopen.owner, hopen.ne⟩
  generalize epollCtlAdd t fd e.addSocket = u at hadd
  have hnewTimer := sysOpen_spec (openFds u.log) e.timer
  generalize sysOpen (openFds u.log) e.timer = timer at hnewTimer
  obtain ⟨hset, htimer⟩ := hadd.timer hnewTimer
  have hserver : u.serverFd = { u with keepAliveTimerFd := timer }.serverFd := rfl
  have hkeep : { u with keepAliveTimerFd := timer }.keepAliveTimerFd = timer := rfl
  rw [hserver] at htimer
  generalize { u with keepAliveTimerFd := timer } = u at hset htimer hkeep
  by_cases ht : timer = -1
  · simp only [if_pos ht]
    split_ifs <;> refine ⟨nofun, fun v hv => ?_⟩ <;> cases hv
    · exact hopen.closed
    · exact hopen.closed
    · exact hadd.closed
    · exact hset.closeFd
  obtain ⟨htfd, hts⟩ := htimer ht
  have hcreated : Opening fd (u.emit (.opened .keepAliveTimer timer)) :=
    hset.emit _ htfd hts fun _ _ he => by cases he; exact ht
  have hwatch : Opening fd (epollCtlAdd (u.emit (.opened .keepAliveTimer timer)) timer
      e.addTimer) := hcreated.emit _ htfd hts fun _ _ => nofun
  have halive : e.addTimer = true → e.settime = true → Alive (startKeepAliveTimer
      (epollCtlAdd (u.emit (.opened .keepAliveTimer timer)) timer e.addTimer) e.settime).log
      timer := fun hat hst => by
    refine ⟨Or.inl (if_pos rfl), ?_, ?_⟩
    · show registered timer (.epollCtl .add timer e.addTimer :: _) = true
      rw [hat]
      exact if_pos rfl
    · show armed timer (.settime u.keepAliveTimerFd e.settime :: _) = true
      rw [hst]
      exact if_pos hkeep
  have hkeep' : (epollCtlAdd (u.emit (.opened .keepAliveTimer timer)) timer
      e.addTimer).keepAliveTimerFd = timer := hkeep
  have hts' : (epollCtlAdd (u.emit (.opened .keepAliveTimer timer)) timer e.addTimer).serverFd ≠ -1
      → timer ≠ (epollCtlAdd (u.emit (.opened .keepAliveTimer timer)) timer
        e.addTimer).serverFd := hts
  generalize epollCtlAdd (u.emit (.opened .keepAliveTimer timer)) timer e.addTimer = w
    at hwatch halive hkeep' hts'
  have hstart : Opening fd (startKeepAliveTimer w e.settime) :=
    hwatch.emit _ (hkeep' ▸ htfd) (hkeep' ▸ hts') fun _ _ => nofun
  simp only [if_neg ht]
  split_ifs with hcon hblock hadd' hat hst <;> refine ⟨fun v hv => ?_, fun v hv => ?_⟩ <;> cases hv
  · exact hopen.closed
  · exact hopen.closed
  · exact hadd.closed
  · have hclosed : Opening fd (w.emit (.closed timer)) :=
      hwatch.emit _ htfd hts' fun _ _ => nofun
    exact hclosed.closeFd
  · have hdel : Opening fd ((startKeepAliveTimer w e.settime).emit (.epollCtl .del timer true)) :=
      hstart.emit _ htfd hts' fun _ _ => nofun
    have hclosed : Opening fd (((startKeepAliveTimer w e.settime).emit
        (.epollCtl .del timer true)).emit (.closed timer)) :=
      hdel.emit _ htfd hts' fun _ _ => nofun
    exact hclosed.closeFd
  · rw [Bool.not_eq_true, Bool.not_eq_false'] at hat hst
    have hconnected : Watched { startKeepAliveTimer w e.settime with
        serverFd := fd
        pongReceived := true } :=
      ⟨⟨hstart.steady.noFd, Or.inr hstart.owner, fun _ => (hkeep'.symm ▸ htfd :)⟩,
        Or.inl (hkeep'.symm ▸ halive hat hst :)⟩
    exact (hcb.connected e.callback _ (hconnected.emit (.onConnected fd _) fun _ => id)).emit
      (.returned .onConnected _) fun _ => id

/-! ## Runs -/

theorem closeFd_steady (h : Steady s) (hne : s.serverFd ≠ -1 → fd ≠ s.serverFd) :
    Steady (closeFd s fd) := by
  have hdel : Steady (epollCtlDel s fd) := h.emit _ hne fun _ _ => nofun
  exact hdel.emit _ hne fun _ _ => nofun

/-- `connect_to_server()`, and `start_reconnect_timer()` if it fails. -/
theorem connectOrRetry_watched (hcb : CallbacksKeep Watched cb) (h : Steady s) (e : StartEnv α)
    (ht : t = match connectToServer cb e.connect s with
      | (true, s) => s
      | (false, s) => startReconnectTimer s e.reconnect) :
    Steady t ∧ (.reconnectTimer false ∉ t.log → Watched t) := by
  obtain ⟨hcon, hfail⟩ := connectToServer_watched hcb h e.connect
  generalize connectToServer cb e.connect s = r at hcon hfail ht
  obtain ⟨ok, u⟩ := r
  cases ok with
  | true =>
    subst ht
    exact ⟨(hcon t rfl).steady, fun _ => hcon t rfl⟩
  | false =>
    subst ht
    exact ⟨startReconnectTimer_steady (hfail u rfl) e.reconnect,
      startReconnectTimer_watched (hfail u rfl) e.reconnect⟩

theorem loop_watched (hcb : CallbacksKeep Watched cb) : LoopKeeps Watched cb where
  step s t h hs := by
    obtain ⟨hserver, hkeep, hrec, -, hlog⟩ := h
    have hcongr : ∀ u : Client, Watched u → u.serverFd = s.serverFd →
        u.keepAliveTimerFd = s.keepAliveTimerFd → u.reconnectTimerFd = s.reconnectTimerFd →
        t.log = u.log → Watched t := by
      intro u hu hs1 hs2 hs3 hl
      obtain ⟨⟨hno, hsock, hka⟩, hns⟩ := hu
      unfold NotStuck at hns
      refine ⟨⟨?_, ?_, ?_⟩, ?_⟩
      · rwa [hl]
      · rwa [hserver, ← hs1, hl]
      · rwa [hserver, hkeep, ← hs1, ← hs2]
      · unfold NotStuck
        rwa [hkeep, hrec, ← hs2, ← hs3, hl]
    rcases hlog with hlog | ⟨e, he, hlog⟩
    · exact hcongr s hs rfl rfl rfl hlog
    · have hemit : Watched (s.emit e) := by
        cases e <;> first | exact hs.emit _ fun _ => id | cases he
      exact hcongr _ hemit rfl rfl rfl hlog
  pending _ r hs := pendingDisconnect_watched hs r
  message l s hs := (hcb.message l s hs).emit (.returned .onMessage _) fun _ => id

theorem clientProcess_watched (hcb : CallbacksKeep Watched cb) (hcs : CallbacksKeep Steady cb)
    (fd : ℤ) (e : ProcessEnv α) (h : Watched s)
    (hok : .reconnectTimer false ∉ (clientProcess cb fd e s).log) :
    Watched (clientProcess cb fd e s) := by
  have hcall := h.emit (.process fd s.serverFd s.keepAliveTimerFd s.pendingDisconnect) fun _ => id
  revert hok
  unfold clientProcess
  generalize s.emit (.process fd s.serverFd s.keepAliveTimerFd s.pendingDisconnect) = t at hcall
  dsimp only
  have hevent : ∀ u, u =
      (if fd = t.serverFd then processSocket cb e.reads t
      else if fd = t.keepAliveTimerFd then processKeepAliveTimer t e.keepAlive
      else if fd = t.reconnectTimerFd then processReconnectTimer cb e.start t
      else t) → Steady u ∧ (.reconnectTimer false ∉ u.log →
        u.pendingDisconnect = true ∨ NotStuck u) := by
    intro u hu
    split_ifs at hu with hserver hkeep hrec
    · have hloop := (loop_watched hcb).processSocket e.reads hcall
      subst hu
      exact ⟨hloop.steady, fun _ => Or.inr hloop.notStuck⟩
    · obtain ⟨hsteady, hor⟩ := processKeepAliveTimer_watched hcall e.keepAlive
      subst hu
      exact ⟨hsteady, fun _ => hor⟩
    · have hclosed : Steady { closeFd t t.reconnectTimerFd with reconnectTimerFd := -1 } := by
        obtain ⟨hno, hsock, hka⟩ := closeFd_steady hcall.steady fun _ => hrec ▸ hserver
        exact ⟨hno, hsock, hka⟩
      obtain ⟨hsteady, hwatched⟩ := connectOrRetry_watched hcb hclosed e.start hu
      exact ⟨hsteady, fun hok => Or.inr (hwatched hok).notStuck⟩
    · subst hu
      exact ⟨hcall.steady, fun _ => Or.inr hcall.notStuck⟩
  generalize (if fd = t.serverFd then processSocket cb e.reads t
    else if fd = t.keepAliveTimerFd then processKeepAliveTimer t e.keepAlive
    else if fd = t.reconnectTimerFd then processReconnectTimer cb e.start t
    else t) = u at hevent
  obtain ⟨hsteady, hor⟩ := hevent u rfl
  split_ifs with hpending
  · intro hok
    have hcalled := (disconnect_steady hsteady).emitOther
      (.onDisconnected (disconnect u).disconnectReason (disconnect u).serverFd) fun _ => id
    have hback := hcs.disconnected e.disconnected _ hcalled
    exact startReconnectTimer_watched
      (hback.emitOther (.returned .onDisconnected _) fun _ => id) e.reconnect hok
  · intro hok
    exact ⟨hsteady, (hor hok).resolve_left hpending⟩

theorem clientInit_steady (m : Client) (sz k : ℕ) : Steady (clientInit m sz k) :=
  ⟨rfl, Or.inl rfl, fun h => absurd rfl h⟩

/-- After one start and any number of sends and processed events, if all system calls of
`start_reconnect_timer()` have succeeded, the client has a timer that epoll watches and that will
expire or has expired. -/
theorem never_stuck (m : Client) (sz k : ℕ) (n : ℕ) (e : StartEnv Call) (calls : List Call)
    (hok : .reconnectTimer false ∉ (run sends sends n calls
      (clientStart (callbacks sends n) e (clientInit m sz k))).log) :
    NotStuck (run sends sends n calls (clientStart (callbacks sends n) e (clientInit m sz k))) := by
  have hcb := callbacks_keep (fun cb _ => sends_watched cb) n
  have hcs := callbacks_keep (fun cb _ => sends_steady cb) n
  have hq := callbacks_quiet sends n
  have hstart :
      .reconnectTimer false ∉ (clientStart (callbacks sends n) e (clientInit m sz k)).log →
      Watched (clientStart (callbacks sends n) e (clientInit m sz k)) :=
    (connectOrRetry_watched hcb ((clientInit_steady m sz k).emitOther .start fun _ => id) e rfl).2
  have hsends : CallsKeep (fun s => .reconnectTimer false ∉ s.log → Watched s) sends
      (callbacks sends n) :=
    { start := fun h => nomatch h
      stop := fun h => nomatch h
      send := fun enc res s hs hok => (sends_watched (callbacks sends n)).send enc res s
        (hs fun hmem => hok ((clientSend_kept s enc res).log_suffix.mem hmem)) }
  have hprocess : ∀ fd e s, (.reconnectTimer false ∉ s.log → Watched s) →
      .reconnectTimer false ∉ (clientProcess (callbacks sends n) fd e s).log →
      Watched (clientProcess (callbacks sends n) fd e s) := by
    intro fd e s hs hok
    have hlog := (List.suffix_cons _ _).trans (clientProcess_steps hq fd e s).log_suffix
    exact clientProcess_watched hcb hcs fd e (hs fun hmem => hok (hlog.mem hmem)) hok
  exact (run_keeps hsends hprocess calls hstart hok).notStuck

/-- The server refuses, then accepts; a send fails, and another one while the client is
disconnected. -/
def sendCalls : List Call :=
  [.process 7 { nothing with start := accepts 5 6 }, .send (fun _ => none) .error, receive 6 [] 7,
    .send (fun _ => none) .error,
    .process 7 { nothing with start := refuses 5 7, reconnect := timer 8 }]

set_option maxRecDepth 4000 in
theorem never_stuck_sendCalls :
    NotStuck (run sends sends 1 sendCalls
      (clientStart (callbacks sends 1) (refuses 5 7) (client 16))) :=
  never_stuck memory 16 64 1 (refuses 5 7) sendCalls (by decide)

end

end Messi.LinuxClient
