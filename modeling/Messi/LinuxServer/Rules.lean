import Messi.LinuxServer.Turns

/-!
# Rules

What has to be shown of a relation between the states before and after for every function of
`server.c` to be in it, but for those that open descriptors, and for every run.
-/

namespace Messi.LinuxServer

/-- An event that has no rule of its own. -/
def Event.plain : Event → Bool
  | .opened _ | .closed _ | .epollCtl .add .. | .epollCtl .del .. | .frame .. | .handleMessage ..
  | .onClientConnected _ | .slotStopped _ => false
  | _ => true

/-- A relation that composes, and that holds when something is logged that the server does of
itself: an event, two for a descriptor that is closed, and three when a ping is answered. -/
structure OwnRules (R : Server → Server → Prop) : Prop where
  trans : ∀ {s t u}, R s t → R t u → R s u
  same : ∀ s t, t.log = s.log → t.clientsMax = s.clientsMax → R s t
  emit : ∀ s t e, e.plain = true → t.log = e :: s.log → t.clientsMax = s.clientsMax → R s t
  close : ∀ s t fd, t.log = (closeFd s fd).log → t.clientsMax = s.clientsMax → R s t
  handle : ∀ s c m, R s (s.emit (.handleMessage c m))
  pong : ∀ s c fd payload, R s (((s.emit (.handleMessage c (messageTypePing, payload))).emit
    (.settime fd true)).emit (.frame c (messageTypePong, [])))

/-- It also holds when a message of the user is issued. -/
structure Rules (R : Server → Server → Prop) : Prop extends OwnRules R where
  user : ∀ s c payload, R s (s.emit (.frame c (messageTypeServerToClientUser, payload)))

/-- What the user's code does in the callbacks is in the relation. -/
structure CallbacksIn {α : Type*} (R : Server → Server → Prop) (cb : Callbacks α) : Prop where
  connected : ∀ l s, Exec.Sat (R s) (fun _ => R s) (cb.onClientConnected l s)
  message : ∀ l s, Exec.Sat (R s) (fun _ => R s) (cb.onMessage l s)
  disconnected : ∀ l s, Exec.Sat (R s) (fun _ => R s) (cb.onClientDisconnected l s)

namespace OwnRules

section

variable {R : Server → Server → Prop} {s t : Server} {c : Slot}

theorem refl (h : OwnRules R) (s : Server) : R s s := h.same s s rfl rfl

theorem snoc (h : OwnRules R) (hs : R s t) (e : Event) (he : e.plain = true) :
    R s (t.emit e) :=
  h.trans hs (h.emit t _ e he rfl rfl)

theorem freeItems (h : OwnRules R) (c : Slot) (n : ℕ) (p : Option ℕ) (s : Server) :
    R s (freeItems c n p s) := by
  induction n generalizing p s with
  | zero => exact h.snoc (h.refl s) .outOfFuel rfl
  | succ n ih =>
    cases p with
    | none => exact h.refl s
    | some i =>
      exact h.trans (h.snoc (h.snoc (h.refl s) (.itemUse c i) rfl) (.itemFree c i) rfl) (ih _ _)

theorem clientPendingDisconnect (h : OwnRules R) (s : Server) (c : Slot) :
    R s (clientPendingDisconnect s c) := by
  unfold LinuxServer.clientPendingDisconnect
  split_ifs
  · exact h.refl s
  · have hclose : R s ((closeFd s (s.clientFd c)).setClientFd c (-1)) := h.close s _ _ rfl rfl
    have hfree : R s (freeClientOutput ((closeFd s (s.clientFd c)).setClientFd c (-1)) c) := by
      refine h.trans (h.trans hclose ?_) (h.freeItems c _ _ _)
      exact h.same _ _ rfl rfl
    refine h.snoc (h.trans hfree ?_) (.pendingDisconnect c) rfl
    exact h.emit _ _ (.unlinked c _) rfl rfl rfl

theorem clientOutputAppend (h : OwnRules R) (s : Server) (c : Slot) (buf : List UInt8)
    (e : WriteEnv) : R s (clientOutputAppend s c buf e) := by
  unfold LinuxServer.clientOutputAppend
  have halloc : R s (s.emit (.malloc c (some (s.output c).brk))) := h.snoc (h.refl s) _ rfl
  dsimp only
  split_ifs
  · exact h.snoc (h.refl s) _ rfl
  · split
    · exact h.trans halloc (h.emit _ _ (.epollCtl .mod _ _ _) rfl rfl rfl)
    · split
      · exact h.trans halloc (h.emit _ _ (.itemUse c _) rfl rfl rfl)
      · exact h.trans halloc (h.same _ _ rfl rfl)

theorem writeLoop (h : OwnRules R) (c : Slot) (buf : List UInt8) (e : WriteEnv) (ws : List WriteRes)
    (offset size : ℕ) (s : Server) : R s (writeLoop c buf e ws offset size s) := by
  have hw : ∀ (s : Server) bs, R s (s.emit (.write c (s.clientFd c) bs)) := fun s bs =>
    h.snoc (h.refl s) _ rfl
  induction ws generalizing offset size s with
  | nil =>
    unfold LinuxServer.writeLoop
    split_ifs
    · split
      · exact h.trans (hw s []) (h.clientOutputAppend _ _ _ _)
      · exact h.trans (hw s []) (h.clientPendingDisconnect _ _)
    · exact h.refl s
  | cons w ws ih =>
    unfold LinuxServer.writeLoop
    split_ifs
    · split
      · dsimp only
        split_ifs
        · exact hw s _
        · exact h.trans (hw s _) (ih _ _ _)
        · exact h.trans (hw s _) (h.clientPendingDisconnect _ _)
      · exact h.trans (hw s []) (h.clientOutputAppend _ _ _ _)
      · exact h.trans (hw s []) (h.clientPendingDisconnect _ _)
    · exact h.refl s

theorem clientWrite (h : OwnRules R) (s : Server) (c : Slot) (buf : List UInt8) (e : WriteEnv) :
    R s (clientWrite s c buf e) := by
  unfold LinuxServer.clientWrite
  split_ifs
  · exact h.clientOutputAppend _ _ _ _
  · exact h.writeLoop _ _ _ _ _ _ _

theorem socketOutLoop (h : OwnRules R) (c : Slot) (ws : List WriteRes) (p : Option ℕ) (s : Server) :
    R s (socketOutLoop c ws p s).2 := by
  induction ws generalizing p s with
  | nil =>
    cases p with
    | none => exact h.refl s
    | some i => exact h.snoc (h.snoc (h.refl s) _ rfl) _ rfl
  | cons w ws ih =>
    cases p with
    | none => exact h.refl s
    | some i =>
      have hw : ∀ bs, R s ((s.emit (.itemUse c i)).emit (.write c (s.clientFd c) bs)) :=
        fun bs => h.snoc (h.snoc (h.refl s) _ rfl) _ rfl
      have hset : ∀ t o, R t (t.setOutput c o) := fun t o => h.same _ _ rfl rfl
      rw [LinuxServer.socketOutLoop]
      dsimp only
      split
      · split_ifs
        · exact h.trans (h.snoc (hw _) (.itemFree c i) rfl) (ih _ _)
        · exact h.trans (h.trans (hw _) (hset _ _)) (ih _ _)
        · exact h.trans (hw _) (h.clientPendingDisconnect _ _)
      · exact hw _
      · exact h.trans (hw _) (h.clientPendingDisconnect _ _)

theorem processClientSocketOut (h : OwnRules R) (s : Server) (c : Slot) (ws : List WriteRes)
    (mod : Bool) : R s (processClientSocketOut s c ws mod) := by
  unfold LinuxServer.processClientSocketOut
  have hloop := h.socketOutLoop c ws (s.output c).headP s
  generalize LinuxServer.socketOutLoop c ws (s.output c).headP s = r at hloop
  obtain ⟨p, t⟩ := r
  dsimp only
  split_ifs
  · exact h.trans hloop (h.emit _ _ (.epollCtl .mod _ _ _) rfl rfl rfl)
  · exact h.trans hloop (h.same _ _ rfl rfl)

theorem loadHeader (h : OwnRules R) (s : Server) (c : Slot) : R s (loadHeader s c).2 := by
  unfold LinuxServer.loadHeader
  dsimp only
  split_ifs <;> exact h.same _ _ rfl rfl

/-! ## Events -/

/-- Continue a run that is in the relation. -/
theorem sat {ρ : Type*} {x : Exec Server ρ} (h : OwnRules R) (hs : R s t)
    (hx : Exec.Sat (R t) (fun _ => R t) x) : Exec.Sat (R s) (fun _ => R s) x :=
  hx.mono (fun _ ht => h.trans hs ht) fun _ _ ht => h.trans hs ht

theorem runList {α : Type*} {f : α → Server → Exec Server Unit} (h : OwnRules R)
    (hf : ∀ a s, Exec.Sat (R s) (fun _ => R s) (f a s)) (l : List α) (s : Server) :
    Exec.Sat (R s) (fun _ => R s) (Exec.runList f l s) :=
  Exec.Sat.runList (fun a _ ht => h.sat ht (hf a _)) l (h.refl s)

variable {α : Type*} {cb : Callbacks α}

theorem handleMessage (h : OwnRules R) (hcb : CallbacksIn R cb) (c : Slot) (e : ReadEnv α)
    (s : Server) : Exec.Sat (R s) (fun _ => R s) (handleMessage cb c e s) := by
  unfold LinuxServer.handleMessage
  dsimp only
  have hmsg := h.handle s c ((inputHeader s c).type, (inputBytes s c).drop headerSize)
  split_ifs with huser hping
  · generalize s.emit (.handleMessage c ((inputHeader s c).type,
      (inputBytes s c).drop headerSize)) = t at hmsg
    refine h.sat hmsg ?_
    unfold handleMessageUser
    split_ifs
    · exact h.refl t
    · exact h.refl t
    · have hset : R t (t.setCurrentClientP (some c)) := h.same _ _ rfl rfl
      exact Exec.Sat.bind (h.sat hset (hcb.message _ _)) fun _ u hu =>
        h.trans hu (h.same _ _ rfl rfl)
  · unfold handleMessagePing clientStartKeepAliveTimer
    have hpong := h.pong s c (s.keepAliveTimerFd c) ((inputBytes s c).drop headerSize)
    rw [← hping] at hpong
    cases hset : e.settime with
    | false => exact h.snoc hmsg _ rfl
    | true => exact h.trans hpong (h.clientWrite _ _ _ _)
  · exact hmsg

theorem readBytes (h : OwnRules R) (s : Server) (c : Slot) (bs : List UInt8) :
    R s (readBytes s c bs) :=
  h.emit _ _ (.read c _ _ _ bs) rfl rfl rfl

theorem socketInTurn (h : OwnRules R) (hcb : CallbacksIn R cb) (c : Slot) (e : ReadEnv α)
    (s : Server) : Exec.Sat (R s) (fun _ => R s) (socketInTurn cb c e s) := by
  have hstop : R s (LinuxServer.clientPendingDisconnect (LinuxServer.readBytes s c []) c) :=
    h.trans (h.readBytes s c []) (h.clientPendingDisconnect _ _)
  unfold LinuxServer.socketInTurn
  split
  · exact h.readBytes s c []
  · exact hstop
  · exact hstop
  · dsimp only
    rename_i b bs _
    have hread := h.readBytes s c (b :: bs)
    generalize LinuxServer.readBytes s c (b :: bs) = t at hread
    split_ifs
    · exact hread
    · have hload := h.trans hread (h.loadHeader t c)
      generalize LinuxServer.loadHeader t c = r at hload
      obtain ⟨fit, u⟩ := r
      cases fit with
      | false => exact h.trans hload (h.clientPendingDisconnect _ _)
      | true =>
        dsimp only
        split_ifs
        · refine Exec.Sat.bind (h.sat hload (h.handleMessage hcb c e u)) fun res w hw => ?_
          split_ifs
          · have hreset : R w (clientResetInput w c) := h.same _ _ rfl rfl
            exact h.trans hw hreset
          · exact h.snoc (h.trans hw (h.clientPendingDisconnect _ _)) (.handleFailed c) rfl
        · exact hload

theorem processClientSocketIn (h : OwnRules R) (hcb : CallbacksIn R cb) (c : Slot)
    (es : List (ReadEnv α)) (s : Server) :
    Exec.Sat (R s) (fun _ => R s) (processClientSocketIn cb c es s) := by
  induction es generalizing s with
  | nil => exact h.readBytes s c []
  | cons e es ih =>
    rw [processClientSocketIn_cons]
    refine Exec.Sat.bind (h.socketInTurn hcb c e s) fun again t ht => ?_
    split_ifs
    · exact h.sat ht (ih t)
    · exact ht

theorem processClients (h : OwnRules R) (hcb : CallbacksIn R cb) (fd : ℤ) (events : Events)
    (e : ProcessEnv α) (n : ℕ) (p : Option Slot) (s : Server) :
    Exec.Sat (R s) (fun _ => R s) (processClients cb fd events e n p s) := by
  induction n generalizing p with
  | zero => exact h.snoc (h.refl s) .outOfFuel rfl
  | succ n ih =>
    cases p with
    | none => exact h.refl s
    | some c =>
      rw [LinuxServer.processClients]
      split_ifs
      · unfold processClientSocket
        dsimp only
        have hout : R s (if events.epollOut then
            LinuxServer.processClientSocketOut s c e.writes e.mod else s) := by
          split_ifs
          · exact h.processClientSocketOut _ _ _ _
          · exact h.refl s
        generalize (if events.epollOut then LinuxServer.processClientSocketOut s c e.writes e.mod
          else s) = t at hout
        split_ifs
        · exact h.sat hout (h.processClientSocketIn hcb _ _ _)
        · exact hout
      · exact h.clientPendingDisconnect _ _
      · exact ih _

theorem freePendingDisconnectClient (h : OwnRules R) (s : Server) (c : Slot) :
    R s (freePendingDisconnectClient s c) := by
  have hunlink := h.snoc (h.refl s)
    (.unlinked c (unlinkable s.clientsMax s.clients s.clients.pendingDisconnectListP c)) rfl
  exact h.trans hunlink (h.emit _ _ (.slotFreed c) rfl rfl rfl)

theorem destroyClients (h : OwnRules R) (hcb : CallbacksIn R cb) (e : Slot → List α) (n : ℕ)
    (p : Option Slot) (s : Server) :
    Exec.Sat (R s) (fun _ => R s) (destroyClients cb e n p s) := by
  induction n generalizing p s with
  | zero => exact h.snoc (h.refl s) .outOfFuel rfl
  | succ n ih =>
    cases p with
    | none => exact h.refl s
    | some c =>
      rw [LinuxServer.destroyClients]
      have hclose : R s ((closeFd s (s.keepAliveTimerFd c)).setKeepAliveTimerFd c (-1)) :=
        h.close s _ _ rfl rfl
      have hcall := h.snoc hclose (.onClientDisconnected c) rfl
      refine Exec.Sat.bind (h.sat hcall (hcb.disconnected _ _)) fun _ t ht => ?_
      exact h.sat (h.trans ht (h.freePendingDisconnectClient t c)) (ih _ _)

theorem serverProcess (h : OwnRules R) (hcb : CallbacksIn R cb)
    (hlistener : ∀ e s, Exec.Sat (R s) (fun _ => R s) (processListener cb e s)) (fd : ℤ)
    (events : Events) (e : ProcessEnv α) (s : Server) :
    Exec.Sat (R s) (fun _ => R s) (serverProcess cb fd events e s) := by
  unfold LinuxServer.serverProcess
  refine Exec.Sat.bind (Q := fun _ => R s) ?_ fun _ t ht =>
    h.sat ht (h.destroyClients hcb _ _ _ _)
  split_ifs
  · exact hlistener _ _
  · exact h.processClients hcb _ _ _ _ _ _

/-! ## Accepting -/

theorem noCall (h : OwnRules R) (call : Call) (s : Server) :
    Exec.Sat (R s) (fun _ => R s) (noCall call s) := by
  cases call <;> exact h.refl s

/-- Accepting a client is in the relation if what the callbacks do is. -/
abbrev Accepts (R : Server → Server → Prop) : Prop :=
  ∀ cb : Callbacks Call, CallbacksIn R cb → ∀ e s,
    Exec.Sat (R s) (fun _ => R s) (processListener cb e s)

/-- A relation that holds for everything that is logged when a client is accepted. -/
structure Logs (R : Server → Server → Prop) : Prop where
  opened : ∀ s fd, R s (s.emit (.opened fd))
  closed : ∀ s fd, R s (s.emit (.closed fd))
  epollCtl : ∀ s op fd events ok, R s (s.emit (.epollCtl op fd events ok))
  connected : ∀ s c, R s (s.emit (.onClientConnected c))

theorem allocClient (h : OwnRules R) {r : Option Slot} (ha : allocClient s = (r, t)) : R s t := by
  unfold LinuxServer.allocClient at ha
  split at ha <;> cases ha
  · exact h.refl s
  · exact h.same _ _ rfl rfl

theorem clientInit {α : Type*} (h : OwnRules R) (hl : Logs R) (s : Server) (c : Slot) (fd : ℤ)
    (e : AcceptEnv α) : R s (clientInit s c fd e).2 := by
  unfold LinuxServer.clientInit clientStartKeepAliveTimer
  dsimp only
  generalize sysOpen _ _ = timerFd
  have hset : R s (((LinuxServer.clientResetInput (s.setClientFd c fd) c).setOutput c
      { (LinuxServer.clientResetInput (s.setClientFd c fd) c).output c with
        headP := none }).setKeepAliveTimerFd c timerFd) := h.same _ _ rfl rfl
  generalize ((LinuxServer.clientResetInput (s.setClientFd c fd) c).setOutput c
      { (LinuxServer.clientResetInput (s.setClientFd c fd) c).output c with
        headP := none }).setKeepAliveTimerFd c timerFd = t at hset ⊢
  have htime : R s ((t.emit (.opened timerFd)).emit
      (.settime (t.keepAliveTimerFd c) e.settime)) :=
    h.snoc (h.trans hset (hl.opened t timerFd)) _ rfl
  change R s ((t.emit (.opened timerFd)).emit
    (.settime ((t.emit (.opened timerFd)).keepAliveTimerFd c) e.settime)) at htime
  generalize (t.emit (.opened timerFd)).emit
    (.settime ((t.emit (.opened timerFd)).keepAliveTimerFd c) e.settime) = u at htime ⊢
  have htimer : R s (epollCtlAdd u timerFd e.addTimer) := h.trans htime (hl.epollCtl u _ _ _ _)
  have hclient := h.trans htimer
    (hl.epollCtl (epollCtlAdd u timerFd e.addTimer) .add fd ⟨true, false⟩ e.addClient)
  split_ifs
  · exact hset
  · exact h.trans htime (hl.closed u timerFd)
  · exact h.trans htimer (hl.closed _ timerFd)
  · exact h.trans (h.trans hclient (hl.epollCtl _ .del timerFd _ true)) (hl.closed _ timerFd)
  · exact hclient

theorem processListener {α : Type*} {cb : Callbacks α} (h : OwnRules R) (hl : Logs R)
    (hcb : CallbacksIn R cb) (e : AcceptEnv α) (s : Server) :
    Exec.Sat (R s) (fun _ => R s) (processListener cb e s) := by
  unfold LinuxServer.processListener
  dsimp only
  generalize sysOpen (openFds s.log) e.accept = fd
  have hopen := hl.opened s fd
  split_ifs
  · exact h.refl s
  · exact h.trans hopen (hl.closed _ fd)
  · exact h.trans hopen (hl.closed _ fd)
  · cases ha : LinuxServer.allocClient (s.emit (.opened fd)) with
    | mk r t =>
      have ht := h.trans hopen (h.allocClient ha)
      cases r with
      | none => exact h.trans ht (hl.closed t fd)
      | some c =>
        dsimp only
        have hi := h.trans ht (h.clientInit hl t c fd e)
        generalize LinuxServer.clientInit t c fd e = r at hi
        obtain ⟨ok, u⟩ := r
        cases ok with
        | false =>
          have hfree : R u (freeConnectedClient u c) := h.emit _ _ (.unlinked c _) rfl rfl rfl
          exact h.trans (h.trans hi hfree) (hl.closed _ fd)
        | true => exact h.sat (h.trans hi (hl.connected u c)) (hcb.connected _ _)

theorem accepts (h : OwnRules R) (hl : Logs R) : Accepts R := fun _ hcb =>
  h.processListener hl hcb

end

end OwnRules

/-! ## The user -/

namespace Rules

section

variable {R : Server → Server → Prop} {s t : Server}

theorem issueUser (h : Rules R) (s : Server) (c : Slot) (payload : List UInt8) (e : WriteEnv) :
    R s (issueMessage s c (messageTypeServerToClientUser, payload) e) :=
  h.trans (h.user s c payload) (h.clientWrite _ _ _ _)

theorem serverSend (h : Rules R) (s : Server) (c : Slot) (enc : Encoder) (e : WriteEnv) :
    R s (serverSend s c enc e) := by
  unfold LinuxServer.serverSend
  cases henc : encodeUserMessage s enc with
  | none => exact h.refl s
  | some m =>
    obtain ⟨payload, -, rfl⟩ := encodeInto_some henc
    exact h.issueUser _ _ _ _

theorem broadcastLoop (h : Rules R) (payload : List UInt8) (e : Slot → WriteEnv) (n : ℕ)
    (p : Option Slot) (s : Server) :
    R s (broadcastLoop (messageTypeServerToClientUser, payload) e n p s) := by
  induction n generalizing p s with
  | zero => exact h.snoc (h.refl s) .outOfFuel rfl
  | succ n ih =>
    cases p with
    | none => exact h.refl s
    | some c => exact h.trans (h.issueUser _ _ _ _) (ih _ _)

theorem apiCall (h : Rules R) (call : Call) (s : Server) :
    Exec.Sat (R s) (fun _ => R s) (apiCall call s) := by
  cases call with
  | send c enc e =>
    show R s (if live s c then LinuxServer.serverSend s c enc e else s)
    split_ifs
    · exact h.serverSend _ _ _ _
    · exact h.refl s
  | reply enc e =>
    show R s (serverReply s enc e)
    unfold serverReply
    split
    · exact h.serverSend _ _ _ _
    · exact h.refl s
  | broadcast enc e =>
    show R s (serverBroadcast s enc e)
    unfold serverBroadcast
    cases henc : encodeUserMessage s enc with
    | none => exact h.refl s
    | some m =>
      obtain ⟨payload, -, rfl⟩ := encodeInto_some henc
      exact h.broadcastLoop _ _ _ _ _
  | disconnect p =>
    show R s (if p.all (live s) then serverDisconnect s p else s)
    split_ifs
    · unfold serverDisconnect
      split
      · exact h.refl s
      · exact h.clientPendingDisconnect _ _
    · exact h.refl s
  | process fd events e => exact h.refl s
  | pause => exact h.refl s

theorem callWith {cb : Callbacks Call} (h : Rules R) (hcb : CallbacksIn R cb)
    (hlistener : ∀ e s, Exec.Sat (R s) (fun _ => R s) (processListener cb e s)) (call : Call)
    (s : Server) : Exec.Sat (R s) (fun _ => R s) (callWith cb call s) := by
  cases call with
  | process fd events e => exact h.serverProcess hcb hlistener fd events e s
  | send c enc e => exact h.apiCall (.send c enc e) s
  | reply enc e => exact h.apiCall (.reply enc e) s
  | broadcast enc e => exact h.apiCall (.broadcast enc e) s
  | disconnect p => exact h.apiCall (.disconnect p) s
  | pause => exact h.apiCall .pause s

theorem callbacks (h : Rules R) (hl : OwnRules.Accepts R) (d : Discipline) (n : ℕ) :
    CallbacksIn R (callbacks d n) := by
  have hdisc : ∀ l s, Exec.Sat (R s) (fun _ => R s)
      (Exec.runList (if d.callInDisconnected then LinuxServer.apiCall else LinuxServer.noCall)
        l s) := fun l s => by
    split_ifs
    · exact h.runList h.apiCall l s
    · exact h.runList h.noCall l s
  induction n with
  | zero => exact ⟨h.runList h.apiCall, h.runList h.apiCall, hdisc⟩
  | succ n ih =>
    refine ⟨h.runList (h.callWith ih (hl _ ih)), fun l s => ?_, hdisc⟩
    show Exec.Sat _ _ ((if d.processInMessage then
      Exec.runList (LinuxServer.callWith (LinuxServer.callbacks d n)) else
      Exec.runList LinuxServer.apiCall) l s)
    split_ifs
    · exact h.runList (h.callWith ih (hl _ ih)) l s
    · exact h.runList h.apiCall l s

theorem run (h : Rules R) (hl : OwnRules.Accepts R) (d : Discipline) (n : ℕ) (calls : List Call)
    (s : Server) : Exec.Sat (R s) (fun _ => R s) (run d n calls s) :=
  h.runList (h.callWith (h.callbacks hl d n) (hl _ (h.callbacks hl d n))) calls s

end

end Rules

end Messi.LinuxServer
