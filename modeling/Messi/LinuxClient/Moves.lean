import Messi.LinuxClient.Rules

/-!
# The moves of the client

All that the client does, taken apart into moves. A move is what is done at once to the log, the
socket, `pong_received` and `pending_disconnect`; the input and the timers are left open. Every run
is a chain of moves (`run_moves`), so what every move preserves, every run preserves.
-/

namespace Messi.LinuxClient

open Relation

/-- Nothing is written, handled or said to the user, and no timer has expired. -/
def Event.bare : Event → Bool
  | .readTimer .. | .write .. | .handleMessage _ | .onConnected .. | .onDisconnected .. => false
  | _ => true

/-- The two differ in their input and their timers at most. -/
structure Agree (s t : Client) : Prop where
  disconnectReason : t.disconnectReason = s.disconnectReason
  serverFd : t.serverFd = s.serverFd
  pongReceived : t.pongReceived = s.pongReceived
  pendingDisconnect : t.pendingDisconnect = s.pendingDisconnect
  log : t.log = s.log

inductive Move (s t : Client) : Prop
  | bare (evs : List Event) (hevs : ∀ e ∈ evs, e.bare = true)
    (h : Agree { s with log := evs ++ s.log } t)
  | readTimer (fd : ℤ) (ok : Bool) (h : Agree (s.emit (.readTimer fd ok)) t)
  | pending (r : DisconnectReason) (hr : r ≠ .keepAliveTimeout)
      (h : Agree (pendingDisconnect s r) t)
  /-- The keep alive timer has just expired, and no pong has been received. -/
  | timeout (fd : ℤ) (l : List Event) (last : s.log = .readTimer fd true :: l)
    (pong : s.pongReceived = false) (h : Agree (pendingDisconnect s .keepAliveTimeout) t)
  | user (payload : List UInt8) (up : s.serverFd ≠ -1)
    (h : Agree (s.emit (.write s.serverFd (messageTypeClientToServerUser, payload)
      (frameBytes (messageTypeClientToServerUser, payload)).length)) t)
  | ping (up : s.serverFd ≠ -1) (pong : s.pongReceived = true)
    (h : Agree { s.emit (.write s.serverFd (messageTypePing, [])
      (frameBytes (messageTypePing, [])).length) with pongReceived := false } t)
  /-- A frame is not accepted as a whole. -/
  | short (m : Message) (n : ℕ) (hn : n < (frameBytes m).length) (down : s.serverFd = -1 → n = 0)
    (pong : isPing m = true → s.pongReceived = true) (r : DisconnectReason)
    (hr : r ≠ .keepAliveTimeout)
    (h : Agree (pendingDisconnect (s.emit (.write s.serverFd m n)) r) t)
  | message (m : Message) (up : s.serverFd ≠ -1)
    (h : Agree { s.emit (.handleMessage m) with pongReceived := isPong m || s.pongReceived } t)
  | disconnect (h : Agree (disconnect s) t)
  /-- `on_disconnected` is called. -/
  | dropped (pending : s.pendingDisconnect = true)
    (h : Agree ((LinuxClient.disconnect s).emit (.onDisconnected
      (LinuxClient.disconnect s).disconnectReason (LinuxClient.disconnect s).serverFd)) t)
  /-- `on_connected` is called, with a socket that has been opened for it. -/
  | connected (fd : ℤ) (evs l : List Event) (hevs : ∀ e ∈ evs, e.bare = true)
    (opened : s.log = evs ++ .opened .socket fd :: l)
    (h : Agree ({ s with serverFd := fd, pongReceived := true }.emit
      (.onConnected fd s.pendingDisconnect)) t)

abbrev Moves : Client → Client → Prop := ReflTransGen Move

section

variable {s t u : Client} {fd : ℤ} {e : Event}

theorem Agree.refl (s : Client) : Agree s s := ⟨rfl, rfl, rfl, rfl, rfl⟩

theorem Move.log_suffix (h : Move s t) : s.log <:+ t.log := by
  have hpend : ∀ (s : Client) r, s.log <:+ (pendingDisconnect s r).log :=
    fun s r => (pendingDisconnect_kept s r).log_suffix
  cases h with
  | bare evs hevs h => exact h.log ▸ List.suffix_append _ _
  | readTimer fd ok h => exact h.log ▸ List.suffix_cons _ _
  | pending r hr h => exact h.log ▸ hpend s r
  | timeout fd l last pong h => exact h.log ▸ hpend s _
  | user payload up h => exact h.log ▸ List.suffix_cons _ _
  | ping up pong h => exact h.log ▸ List.suffix_cons _ _
  | short m n hn down pong r hr h =>
    exact h.log ▸ (List.suffix_cons _ _).trans (hpend (s.emit (.write s.serverFd m n)) r)
  | message m up h => exact h.log ▸ List.suffix_cons _ _
  | disconnect h => exact h.log ▸ (disconnect_kept s).log_suffix
  | dropped pending h => exact h.log ▸ (disconnect_kept s).log_suffix.trans (List.suffix_cons _ _)
  | connected fd evs l hevs opened h => exact h.log ▸ List.suffix_cons _ _

theorem Moves.log_suffix (h : Moves s t) : s.log <:+ t.log := by
  induction h with
  | refl => exact List.suffix_rfl
  | tail _ h ih => exact ih.trans h.log_suffix

/-! ## Functions that call nobody back -/

theorem Moves.agree (h : Moves s t) (h' : Agree t u) : Moves s u :=
  h.tail (.bare [] nofun h')

theorem Moves.emit (h : Moves s t) (e : Event) (he : e.bare = true) :
    Moves s (t.emit e) :=
  h.tail (.bare [e] (by simpa using he) (Agree.refl _))

theorem Moves.pending (h : Moves s t) (r : DisconnectReason)
    (hr : r ≠ .keepAliveTimeout := by decide) : Moves s (pendingDisconnect t r) :=
  h.tail (.pending r hr (Agree.refl _))

theorem Moves.disconnect (h : Moves s t) : Moves s (disconnect t) :=
  h.tail (.disconnect (Agree.refl _))

/-- A message of which some has not been accepted. -/
theorem writeMessage_short {m : Message} {res : WriteRes}
    (h : writeMessage s m res = (false, t)) : ∃ n < (frameBytes m).length,
      t = s.emit (.write s.serverFd m n) ∧ (s.serverFd = -1 → n = 0) := by
  have hpos : 0 < (frameBytes m).length := List.length_pos_of_ne_nil (frameBytes_ne_nil m)
  unfold writeMessage sysWrite at h
  by_cases hfd : s.serverFd = -1
  · rw [if_pos hfd] at h
    cases h
    exact ⟨0, hpos, rfl, fun _ => rfl⟩
  · rw [if_neg hfd] at h
    cases res with
    | accepted n =>
      obtain ⟨hne, rfl⟩ := Prod.mk.inj h
      have hlt := lt_of_le_of_ne (Nat.min_le_right n _) (of_decide_eq_false hne)
      exact ⟨_, hlt, rfl, fun hdown => absurd hdown hfd⟩
    | eagain =>
      cases h
      exact ⟨0, hpos, rfl, fun _ => rfl⟩
    | error =>
      cases h
      exact ⟨0, hpos, rfl, fun _ => rfl⟩

theorem clientSend_moves (s : Client) (enc : Encoder) (res : WriteRes) :
    Moves s (clientSend s enc res) := by
  have hsend : Moves s (s.emit (.send s.serverFd s.pendingDisconnect)) := Moves.emit .refl _ rfl
  unfold clientSend
  generalize s.emit (.send s.serverFd s.pendingDisconnect) = t at hsend
  dsimp only
  split
  · exact hsend.pending _
  · rename_i payload _
    cases hwrite : writeMessage t (messageTypeClientToServerUser, payload) res with
    | mk ok u =>
      cases ok with
      | true =>
        obtain ⟨n, -, rfl, hok⟩ := writeMessage_spec hwrite
        obtain ⟨rfl, hup⟩ := hok rfl
        exact hsend.tail (.user payload hup (Agree.refl _))
      | false =>
        obtain ⟨n, hn, rfl, hdown⟩ := writeMessage_short hwrite
        exact hsend.tail (.short _ n hn hdown nofun _ (by decide) (Agree.refl _))

theorem processKeepAliveTimer_moves (s : Client) (e : KeepAliveEnv) :
    Moves s (processKeepAliveTimer s e) := by
  unfold processKeepAliveTimer
  dsimp only
  have hread : Moves s (s.emit (.readTimer s.keepAliveTimerFd
      (sysReadTimer s.keepAliveTimerFd e.read))) := .single (.readTimer _ _ (Agree.refl _))
  cases hok : sysReadTimer s.keepAliveTimerFd e.read with
  | false =>
    rw [hok] at hread
    exact hread.pending _
  | true =>
    rw [hok] at hread
    have hlog : (s.emit (.readTimer s.keepAliveTimerFd true)).log =
      .readTimer s.keepAliveTimerFd true :: s.log := rfl
    generalize s.emit (.readTimer s.keepAliveTimerFd true) = t at hread hlog
    have htime : Moves s (startKeepAliveTimer t e.settime) := hread.emit (.settime _ _) rfl
    rw [if_neg nofun]
    cases hpong : t.pongReceived with
    | false => exact hread.tail (.timeout _ _ hlog hpong (Agree.refl _))
    | true =>
      rw [if_neg nofun]
      split_ifs
      · have hpong' : (startKeepAliveTimer t e.settime).pongReceived = true := hpong
        generalize startKeepAliveTimer t e.settime = u at htime hpong'
        cases hwrite : writeMessage u (messageTypePing, []) e.write with
        | mk ok w =>
          cases ok with
          | true =>
            obtain ⟨n, -, rfl, hok⟩ := writeMessage_spec hwrite
            obtain ⟨rfl, hup⟩ := hok rfl
            exact htime.tail (.ping hup hpong' (Agree.refl _))
          | false =>
            obtain ⟨n, hn, rfl, hdown⟩ := writeMessage_short hwrite
            exact htime.tail (.short _ n hn hdown (fun _ => hpong') _ (by decide) (Agree.refl _))
      · exact htime.pending _

theorem clientStop_moves (s : Client) : Moves s (clientStop s) := by
  have hdis : Moves s (disconnect s) := Moves.disconnect .refl
  unfold clientStop
  generalize disconnect s = t at hdis
  dsimp only
  split_ifs
  · have hclose : Moves s (closeFd t t.reconnectTimerFd) := (hdis.emit _ rfl).emit _ rfl
    generalize closeFd t t.reconnectTimerFd = u at hclose
    have hset : Moves s { u with reconnectTimerFd := -1 } := hclose.agree ⟨rfl, rfl, rfl, rfl, rfl⟩
    exact hset.emit .stop rfl
  · exact hdis.emit .stop rfl

theorem startReconnectTimer_moves (s : Client) (e : TimerEnv) :
    Moves s (startReconnectTimer s e) := by
  unfold startReconnectTimer
  generalize sysOpen (openFds s.log) e.create = fd
  have hset : Moves s { s with reconnectTimerFd := fd } :=
    Moves.agree .refl ⟨rfl, rfl, rfl, rfl, rfl⟩
  dsimp only
  generalize { s with reconnectTimerFd := fd } = t at hset
  have hopen : Moves s (t.emit (.opened .reconnectTimer fd)) := hset.emit _ rfl
  have hadd : Moves s (epollCtlAdd (t.emit (.opened .reconnectTimer fd)) fd e.add) :=
    hopen.emit _ rfl
  split_ifs
  · exact hset.emit _ rfl
  · exact ((hadd.emit (.closed fd) rfl).emit (.reconnectTimer false) rfl).agree
      ⟨rfl, rfl, rfl, rfl, rfl⟩
  · exact (hadd.emit (.settime fd e.settime) rfl).emit (.reconnectTimer e.settime) rfl

/-! ## Connecting -/

variable {α : Type*} {cb : Callbacks α}

/-- What the user's code does in the callbacks is a chain of moves. -/
abbrev CallbacksMove (cb : Callbacks α) : Prop := ∀ s, CallbacksKeep (Moves s) cb

theorem connectToServer_moves (hcb : CallbacksMove cb) (e : ConnectEnv α) (s : Client) :
    Moves s (connectToServer cb e s).2 := by
  unfold connectToServer
  generalize sysOpen (openFds s.log) e.socket = fd
  have hopen : Moves s (s.emit (.opened .socket fd)) := Moves.emit .refl _ rfl
  have hfresh : (s.emit (.opened .socket fd)).log = [] ++ .opened .socket fd :: s.log := rfl
  dsimp only
  generalize s.emit (.opened .socket fd) = t at hopen hfresh
  have hadd : Moves s (epollCtlAdd t fd e.addSocket) := hopen.emit _ rfl
  replace hfresh : (epollCtlAdd t fd e.addSocket).log =
      [.epollCtl .add fd e.addSocket] ++ .opened .socket fd :: s.log :=
    congrArg (List.cons _) hfresh
  generalize epollCtlAdd t fd e.addSocket = u at hadd hfresh
  generalize sysOpen (openFds u.log) e.timer = timer
  have hset : Moves s { u with keepAliveTimerFd := timer } := hadd.agree ⟨rfl, rfl, rfl, rfl, rfl⟩
  replace hfresh : { u with keepAliveTimerFd := timer }.log =
      [.epollCtl .add fd e.addSocket] ++ .opened .socket fd :: s.log := hfresh
  generalize { u with keepAliveTimerFd := timer } = u at hset hfresh
  have htimer : Moves s (epollCtlAdd (u.emit (.opened .keepAliveTimer timer)) timer e.addTimer) :=
    (hset.emit (.opened .keepAliveTimer timer) rfl).emit _ rfl
  have hstart : Moves s (startKeepAliveTimer (epollCtlAdd (u.emit (.opened .keepAliveTimer timer))
    timer e.addTimer) e.settime) := htimer.emit (.settime _ _) rfl
  replace hfresh : (startKeepAliveTimer (epollCtlAdd (u.emit (.opened .keepAliveTimer timer)) timer
      e.addTimer) e.settime).log = [.settime u.keepAliveTimerFd e.settime,
        .epollCtl .add timer e.addTimer, .opened .keepAliveTimer timer,
        .epollCtl .add fd e.addSocket] ++ .opened .socket fd :: s.log := by
    show _ :: _ :: _ :: u.log = _
    rw [hfresh]
    rfl
  generalize hw : epollCtlAdd (u.emit (.opened .keepAliveTimer timer)) timer e.addTimer = w
    at htimer hstart hfresh
  generalize startKeepAliveTimer w e.settime = x at hstart hfresh
  split_ifs
  · exact .refl
  · exact hopen.emit (.closed fd) rfl
  · exact hopen.emit (.closed fd) rfl
  · exact hadd.emit (.closed fd) rfl
  · exact (hset.emit (.epollCtl .del fd true) rfl).emit (.closed fd) rfl
  · exact ((htimer.emit (.closed timer) rfl).emit (.epollCtl .del fd true) rfl).emit
      (.closed fd) rfl
  · exact (((hstart.emit (.epollCtl .del timer true) rfl).emit (.closed timer) rfl).emit
      (.epollCtl .del fd true) rfl).emit (.closed fd) rfl
  · have hcon : Moves s ({ x with serverFd := fd, pongReceived := true }.emit
        (.onConnected fd x.pendingDisconnect)) :=
      hstart.tail (.connected fd _ _ (by simp [Event.bare]) hfresh (Agree.refl _))
    exact ((hcb s).connected _ _ hcon).emit (.returned _ _) rfl

/-- `connect_to_server()`, and `start_reconnect_timer()` if it fails. -/
theorem connectOrRetry_moves (hcb : CallbacksMove cb) (e : StartEnv α) (s : Client) :
    Moves s (match connectToServer cb e.connect s with
      | (true, s) => s
      | (false, s) => startReconnectTimer s e.reconnect) := by
  have hcon := connectToServer_moves hcb e.connect s
  generalize connectToServer cb e.connect s = r at hcon
  obtain ⟨ok, t⟩ := r
  cases ok with
  | true => exact hcon
  | false => exact hcon.trans (startReconnectTimer_moves t e.reconnect)

theorem clientStart_moves (hcb : CallbacksMove cb) (e : StartEnv α) (s : Client) :
    Moves s (clientStart cb e s) := by
  have hcall : Moves s (s.emit .start) := Moves.emit .refl .start rfl
  exact hcall.trans (connectOrRetry_moves hcb e _)

theorem processReconnectTimer_moves (hcb : CallbacksMove cb) (e : StartEnv α) (s : Client) :
    Moves s (processReconnectTimer cb e s) := by
  have hclose : Moves s (closeFd s s.reconnectTimerFd) := (Moves.emit .refl _ rfl).emit _ rfl
  have hset : Moves s { closeFd s s.reconnectTimerFd with reconnectTimerFd := -1 } :=
    hclose.agree ⟨rfl, rfl, rfl, rfl, rfl⟩
  exact hset.trans (connectOrRetry_moves hcb e _)

/-! ## Receiving -/

theorem handleMessage_moves (hcb : CallbacksMove cb) (e : ReadEnv α) (s : Client)
    (hup : s.serverFd ≠ -1) : Moves s (handleMessage cb e s) := by
  unfold handleMessage
  dsimp only
  generalize (inputHeader s).type = type
  generalize (inputBytes s).drop headerSize = payload
  have hmsg : Moves s { s.emit (.handleMessage (type, payload)) with
      pongReceived := isPong (type, payload) || s.pongReceived } :=
    .single (.message _ hup (Agree.refl _))
  by_cases huser : type = messageTypeServerToClientUser
  · subst huser
    rw [if_pos rfl]
    replace hmsg : Moves s (s.emit (.handleMessage (messageTypeServerToClientUser, payload))) :=
      hmsg
    generalize s.emit (.handleMessage (messageTypeServerToClientUser, payload)) = t at hmsg
    unfold handleMessageUser
    dsimp only
    split_ifs
    · exact hmsg.emit .newFailed rfl
    · exact (hmsg.emit (.decode _) rfl).pending _
    · have hdec := hmsg.emit (.decode ((inputBytes t).drop headerSize)) rfl
      have hcall := hdec.emit (.onMessage ((inputBytes t).drop headerSize)) rfl
      exact ((hcb s).message _ _ hcall).emit (.returned _ _) rfl
  · rw [if_neg huser]
    by_cases hpong : type = messageTypePong
    · subst hpong
      exact hmsg
    · rw [if_neg hpong]
      have hnot : isPong (type, payload) = false := decide_eq_false hpong
      rw [hnot] at hmsg
      exact hmsg

theorem readBytes_moves (s : Client) (bs : List UInt8) : Moves s (readBytes s bs) :=
  (Moves.emit .refl (.read s.serverFd s.input.size s.input.left bs) rfl).agree
    ⟨rfl, rfl, rfl, rfl, rfl⟩

theorem loadHeader_moves (s : Client) : Moves s (loadHeader s).2 := by
  have hleft : Moves s { s with input := { s.input with
      left := (headerGetSize (inputHeader s)).toNat } } :=
    Moves.agree .refl ⟨rfl, rfl, rfl, rfl, rfl⟩
  unfold loadHeader
  dsimp only
  split_ifs
  · exact hleft.emit .tooBig rfl
  · exact Moves.agree .refl ⟨rfl, rfl, rfl, rfl, rfl⟩
  · exact .refl

theorem processSocket_moves (hcb : CallbacksMove cb) (es : List (ReadEnv α)) (s : Client) :
    Moves s (processSocket cb es s) := by
  induction es generalizing s with
  | nil =>
    unfold processSocket
    split
    · exact readBytes_moves s []
    · exact (readBytes_moves s []).pending _
  | cons e es ih =>
    unfold processSocket
    split
    · exact readBytes_moves s []
    · exact (readBytes_moves s []).pending _
    · exact (readBytes_moves s []).pending _
    · rename_i b bs hread
      have hbytes := readBytes_moves s (b :: bs)
      have hup : (readBytes s (b :: bs)).serverFd ≠ -1 := (sysRead_data hread).1
      dsimp only
      generalize readBytes s (b :: bs) = t at hbytes hup
      split_ifs
      · exact hbytes.trans (ih t)
      · have hload : Moves s (loadHeader t).2 := hbytes.trans (loadHeader_moves t)
        have hfd := (loadHeader_loopStep t).serverFd
        generalize loadHeader t = r at hload hfd
        obtain ⟨ok, u⟩ := r
        replace hload : Moves s u := hload
        cases ok with
        | false => exact hload.pending _
        | true =>
          dsimp only
          split_ifs
          · have hdone : Moves s (handleMessage cb e u) :=
              hload.trans (handleMessage_moves hcb e u (hfd ▸ hup))
            have hreset : Moves s (resetInputEncoded (handleMessage cb e u)) :=
              hdone.agree ⟨rfl, rfl, rfl, rfl, rfl⟩
            exact hreset.trans (ih _)
          · exact hload.trans (ih u)

/-! ## Runs -/

theorem clientProcess_moves (hcb : CallbacksMove cb) (fd : ℤ) (e : ProcessEnv α) (s : Client) :
    Moves s (clientProcess cb fd e s) := by
  have hcall : Moves s (s.emit (.process fd s.serverFd s.keepAliveTimerFd s.pendingDisconnect)) :=
    Moves.emit .refl _ rfl
  unfold clientProcess
  generalize s.emit (.process fd s.serverFd s.keepAliveTimerFd s.pendingDisconnect) = t at hcall
  dsimp only
  have hevent : Moves s
      (if fd = t.serverFd then processSocket cb e.reads t
      else if fd = t.keepAliveTimerFd then processKeepAliveTimer t e.keepAlive
      else if fd = t.reconnectTimerFd then processReconnectTimer cb e.start t
      else t) := by
    split_ifs
    · exact hcall.trans (processSocket_moves hcb _ _)
    · exact hcall.trans (processKeepAliveTimer_moves _ _)
    · exact hcall.trans (processReconnectTimer_moves hcb _ _)
    · exact hcall
  generalize (if fd = t.serverFd then processSocket cb e.reads t
    else if fd = t.keepAliveTimerFd then processKeepAliveTimer t e.keepAlive
    else if fd = t.reconnectTimerFd then processReconnectTimer cb e.start t
    else t) = u at hevent
  split_ifs with hpend
  · have hdrop : Moves s ((disconnect u).emit
      (.onDisconnected (disconnect u).disconnectReason (disconnect u).serverFd)) :=
      hevent.tail (.dropped hpend (Agree.refl _))
    have hback := (hcb s).disconnected e.disconnected _ hdrop
    generalize cb.onDisconnected e.disconnected _ = w at hback
    have hreturn : Moves s (w.emit (.returned .onDisconnected w.pendingDisconnect)) :=
      hback.emit _ rfl
    exact hreturn.trans (startReconnectTimer_moves _ e.reconnect)
  · exact hevent

theorem calls_move (may : Rights) {cb : Callbacks Call} (hcb : CallbacksMove cb) (s : Client) :
    CallsKeep (Moves s) may cb where
  start _ e t h := h.trans (clientStart_moves hcb e t)
  stop _ t h := h.trans (clientStop_moves t)
  send enc res t h := h.trans (clientSend_moves t enc res)

theorem callbacks_move (may : Rights) (n : ℕ) : CallbacksMove (callbacks may n) := by
  induction n with
  | zero => exact fun s => ⟨fun _ _ h => h, fun _ _ h => h, fun _ _ h => h⟩
  | succ n ih =>
    intro s
    have hcalls : ∀ l t, Moves s t → Moves s (runList (apiCall (callbacks may n) may) l t) :=
      fun l t => runList_keeps (fun call t => (calls_move may ih s).apiCall call) l
    exact ⟨hcalls, hcalls, hcalls⟩

theorem callWith_moves (may inner : Rights) (n : ℕ) (call : Call) (s : Client) :
    Moves s (callWith (callbacks inner n) may call s) := by
  have hcb := callbacks_move inner n
  exact callWith_keeps (calls_move may hcb s)
    (fun fd e t h => h.trans (clientProcess_moves hcb fd e t)) call .refl

/-- Every run is a chain of moves. -/
theorem run_moves (top inner : Rights) (n : ℕ) (calls : List Call) (s : Client) :
    Moves s (run top inner n calls s) := by
  have hcb := callbacks_move inner n
  exact run_keeps (calls_move top hcb s) (fun fd e t h => h.trans (clientProcess_moves hcb fd e t))
    calls .refl

end

end Messi.LinuxClient
