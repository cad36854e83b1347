import Mathlib.Logic.Relation
import Messi.LinuxClient.Api

/-!
# What the client does

The client's calls, taken apart into steps. A `QuietStep` leaves the input alone, or makes a
connection; everything but `process_socket()` consists of quiet steps. A `Step` is one of these or a
turn of the loop of `process_socket()`, with all that happens while a message is handled in it.
Every run is a chain of steps (`run_steps`), so what every step preserves, every run preserves.
-/

namespace Messi.LinuxClient

open Relation

/-- The event is about what the client reads. -/
def Event.ofInput : Event → Bool
  | .read .. | .tooBig | .handleMessage _ | .newFailed | .decode _ | .onMessage _
  | .onConnected .. => true
  | _ => false

/-- From `s` to `t` the input has been left alone, and no connection has been made. -/
structure Kept (s t : Client) : Prop where
  input : t.input = s.input
  inputBuf : t.inputBuf = s.inputBuf
  serverFd : t.serverFd = s.serverFd ∨ t.serverFd = -1
  log : ∃ evs, t.log = evs ++ s.log ∧ ∀ e ∈ evs, e.ofInput = false

inductive QuietStep (s t : Client) : Prop
  | kept (h : Kept s t)
  | connected (fd : ℤ) (pending : Bool) (input : t.input = s.input)
      (inputBuf : t.inputBuf = s.inputBuf)
    (log : t.log = .onConnected fd pending :: s.log)

/-- What the user's code can do in a callback. -/
abbrev Quiet : Client → Client → Prop := ReflTransGen QuietStep

/-- What `handle_message()` does with the message once it is in the log. -/
inductive Handled (m : Message) (s t : Client) : Prop
  | other (type : m.1 ≠ messageTypeServerToClientUser) (h : Quiet s t)
  | newFailed (type : m.1 = messageTypeServerToClientUser) (h : t = s.emit .newFailed)
  | decode (type : m.1 = messageTypeServerToClientUser) (h : Quiet (s.emit (.decode m.2)) t)
  | onMessage (type : m.1 = messageTypeServerToClientUser)
    (h : Quiet ((s.emit (.decode m.2)).emit (.onMessage m.2)) t)

/-- What the client does until it comes back to `read()`. -/
inductive Step (s t : Client) : Prop
  | quiet (h : QuietStep s t)
  /-- There is nothing to be read. -/
  | idle (h : t = readBytes s [])
  /-- A part of what is left is read. -/
  | part (bs : List UInt8) (fd : s.serverFd ≠ -1) (lt : bs.length < s.input.left)
    (h : t = readBytes s bs)
  /-- The header is complete, and announces a message that is too big. -/
  | reject (bs : List UInt8) (fd : s.serverFd ≠ -1) (length : bs.length = s.input.left)
    (h : loadHeader (readBytes s bs) = (false, t))
  /-- The header is complete, and a payload is to follow. -/
  | body (bs : List UInt8) (fd : s.serverFd ≠ -1) (length : bs.length = s.input.left)
    (h : loadHeader (readBytes s bs) = (true, t)) (pos : 0 < t.input.left)
  /-- The message is complete, and is handled. -/
  | message (bs : List UInt8) (u w : Client) (m : Message) (fd : s.serverFd ≠ -1)
    (length : bs.length = s.input.left) (load : loadHeader (readBytes s bs) = (true, u))
    (zero : u.input.left = 0)
    (eq : m = ((inputHeader u).type, (inputBytes u).drop headerSize))
    (h : Handled m (u.emit (.handleMessage m)) w) (reset : t = resetInputEncoded w)

abbrev Steps : Client → Client → Prop := ReflTransGen Step

section

variable {s t u : Client} {fd : ℤ} {e : Event}

/-! ## Quiet steps -/

theorem Kept.refl (s : Client) : Kept s s := ⟨rfl, rfl, Or.inl rfl, [], rfl, nofun⟩

theorem Kept.trans (h : Kept s t) (h' : Kept t u) : Kept s u := by
  obtain ⟨evs, hlog, hevs⟩ := h.log
  obtain ⟨evs', hlog', hevs'⟩ := h'.log
  refine ⟨h'.input.trans h.input, h'.inputBuf.trans h.inputBuf, ?_, evs' ++ evs, ?_, ?_⟩
  · rcases h'.serverFd with hfd | hfd
    · rw [hfd]
      exact h.serverFd
    · exact Or.inr hfd
  · rw [hlog', hlog, List.append_assoc]
  · intro e he
    rcases List.mem_append.1 he with he | he
    · exact hevs' e he
    · exact hevs e he

theorem Kept.emit (h : Kept s t) (e : Event) (he : e.ofInput = false) :
    Kept s (t.emit e) :=
  h.trans ⟨rfl, rfl, Or.inl rfl, [e], rfl, by simpa using he⟩

theorem Kept.quiet (h : Kept s t) : Quiet s t := .single (.kept h)

theorem Quiet.emit (h : Quiet s t) (e : Event) (he : e.ofInput = false) :
    Quiet s (t.emit e) :=
  h.trans ((Kept.refl t).emit e he).quiet

theorem closeFd_kept (s : Client) (fd : ℤ) : Kept s (closeFd s fd) :=
  ((Kept.refl s).emit _ rfl).emit _ rfl

theorem pendingDisconnect_kept (s : Client) (r : DisconnectReason) :
    Kept s (pendingDisconnect s r) := by
  unfold pendingDisconnect
  split_ifs
  · exact Kept.refl s
  · obtain ⟨-, -, -, hlog⟩ := closeFd_kept { s with disconnectReason := r } s.serverFd
    exact ⟨rfl, rfl, Or.inr rfl, hlog⟩

theorem disconnect_kept (s : Client) : Kept s (disconnect s) := by
  have hpend := pendingDisconnect_kept s .messageEncodeError
  unfold disconnect
  generalize pendingDisconnect s .messageEncodeError = t at hpend
  obtain ⟨hin, hbuf, hfd, hlog⟩ := hpend.trans (closeFd_kept t t.keepAliveTimerFd)
  exact ⟨hin, hbuf, hfd, hlog⟩

theorem startReconnectTimer_kept (s : Client) (e : TimerEnv) :
    Kept s (startReconnectTimer s e) := by
  unfold startReconnectTimer
  generalize sysOpen (openFds s.log) e.create = fd
  have hset : Kept s { s with reconnectTimerFd := fd } := ⟨rfl, rfl, Or.inl rfl, [], rfl, nofun⟩
  dsimp only
  split_ifs
  · exact hset.emit _ rfl
  · have hadd := (hset.emit (.opened .reconnectTimer fd) rfl).emit (.epollCtl .add fd e.add) rfl
    have hclose := (hadd.emit (.closed fd) rfl).emit (.reconnectTimer false) rfl
    exact ⟨hclose.input, hclose.inputBuf, hclose.serverFd, hclose.log⟩
  · exact (((hset.emit (.opened .reconnectTimer fd) rfl).emit (.epollCtl .add fd e.add) rfl).emit
      (.settime fd e.settime) rfl).emit (.reconnectTimer e.settime) rfl

theorem writeMessage_kept (s : Client) (m : Message) (res : WriteRes) :
    Kept s (writeMessage s m res).2 := by
  unfold writeMessage
  split
  · exact (Kept.refl s).emit _ rfl
  · exact (Kept.refl s).emit _ rfl

/-- A message of which all has been accepted has been written to a socket. -/
theorem writeMessage_spec {m : Message} {res : WriteRes} {ok : Bool}
    (h : writeMessage s m res = (ok, t)) : ∃ n ≤ (frameBytes m).length,
      t = s.emit (.write s.serverFd m n) ∧
      (ok = true → n = (frameBytes m).length ∧ s.serverFd ≠ -1) := by
  unfold writeMessage sysWrite at h
  by_cases hfd : s.serverFd = -1
  · rw [if_pos hfd] at h
    cases h
    exact ⟨0, Nat.zero_le _, rfl, nofun⟩
  · rw [if_neg hfd] at h
    cases res with
    | accepted n =>
      cases h
      exact ⟨_, Nat.min_le_right _ _, rfl, fun hn => ⟨of_decide_eq_true hn, hfd⟩⟩
    | eagain =>
      cases h
      exact ⟨0, Nat.zero_le _, rfl, nofun⟩
    | error =>
      cases h
      exact ⟨0, Nat.zero_le _, rfl, nofun⟩

/-- `NAME_client_send()` begins with its own event. -/
theorem clientSend_called (s : Client) (enc : Encoder) (res : WriteRes) :
    Kept (s.emit (.send s.serverFd s.pendingDisconnect)) (clientSend s enc res) := by
  unfold clientSend
  generalize s.emit (.send s.serverFd s.pendingDisconnect) = t
  dsimp only
  split
  · exact pendingDisconnect_kept _ _
  · rename_i payload _
    have hwrite := writeMessage_kept t (messageTypeClientToServerUser, payload) res
    generalize writeMessage t (messageTypeClientToServerUser, payload) res = r at hwrite
    obtain ⟨ok, u⟩ := r
    cases ok with
    | true => exact hwrite
    | false => exact hwrite.trans (pendingDisconnect_kept _ _)

theorem clientSend_kept (s : Client) (enc : Encoder) (res : WriteRes) :
    Kept s (clientSend s enc res) :=
  ((Kept.refl s).emit _ rfl).trans (clientSend_called s enc res)

theorem processKeepAliveTimer_kept (s : Client) (e : KeepAliveEnv) :
    Kept s (processKeepAliveTimer s e) := by
  unfold processKeepAliveTimer
  dsimp only
  generalize sysReadTimer s.keepAliveTimerFd e.read = read
  have hread : Kept s (s.emit (.readTimer s.keepAliveTimerFd read)) := (Kept.refl s).emit _ rfl
  generalize s.emit (.readTimer s.keepAliveTimerFd read) = t at hread
  have htime : Kept s (startKeepAliveTimer t e.settime) := hread.emit (.settime _ _) rfl
  split_ifs
  · exact hread.trans (pendingDisconnect_kept _ _)
  · exact hread.trans (pendingDisconnect_kept _ _)
  · generalize startKeepAliveTimer t e.settime = u at htime
    have hwrite := htime.trans (writeMessage_kept u (messageTypePing, []) e.write)
    generalize writeMessage u (messageTypePing, []) e.write = r at hwrite
    obtain ⟨ok, w⟩ := r
    cases ok with
    | true => exact ⟨hwrite.input, hwrite.inputBuf, hwrite.serverFd, hwrite.log⟩
    | false => exact hwrite.trans (pendingDisconnect_kept _ _)
  · exact htime.trans (pendingDisconnect_kept _ _)

theorem clientStop_kept (s : Client) : Kept s (clientStop s) := by
  have hdis := disconnect_kept s
  unfold clientStop
  generalize disconnect s = t at hdis
  dsimp only
  split_ifs
  · have hclose := hdis.trans (closeFd_kept t t.reconnectTimerFd)
    have hset : Kept s { closeFd t t.reconnectTimerFd with reconnectTimerFd := -1 } :=
      ⟨hclose.input, hclose.inputBuf, hclose.serverFd, hclose.log⟩
    exact hset.emit .stop rfl
  · exact hdis.emit .stop rfl

/-- What the user's code does in the callbacks is quiet. -/
structure CallbacksQuiet {α : Type*} (cb : Callbacks α) : Prop where
  connected : ∀ l s, Quiet s (cb.onConnected l s)
  message : ∀ l s, Quiet s (cb.onMessage l s)
  disconnected : ∀ l s, Quiet s (cb.onDisconnected l s)

variable {α : Type*} {cb : Callbacks α}

theorem connectToServer_quiet (hcb : CallbacksQuiet cb) (e : ConnectEnv α) (s : Client) :
    Quiet s (connectToServer cb e s).2 := by
  unfold connectToServer
  generalize sysOpen (openFds s.log) e.socket = fd
  have hopen : Kept s (s.emit (.opened .socket fd)) := (Kept.refl s).emit _ rfl
  dsimp only
  generalize s.emit (.opened .socket fd) = t at hopen
  have hadd : Kept s (epollCtlAdd t fd e.addSocket) := hopen.emit _ rfl
  generalize epollCtlAdd t fd e.addSocket = u at hadd
  generalize sysOpen (openFds u.log) e.timer = timer
  have hset : Kept s { u with keepAliveTimerFd := timer } :=
    ⟨hadd.input, hadd.inputBuf, hadd.serverFd, hadd.log⟩
  generalize { u with keepAliveTimerFd := timer } = u at hset
  have htimer : Kept s (epollCtlAdd (u.emit (.opened .keepAliveTimer timer)) timer e.addTimer) :=
    (hset.emit (.opened .keepAliveTimer timer) rfl).emit _ rfl
  generalize epollCtlAdd (u.emit (.opened .keepAliveTimer timer)) timer e.addTimer = w at htimer
  have hstart : Kept s (startKeepAliveTimer w e.settime) := htimer.emit (.settime _ _) rfl
  generalize startKeepAliveTimer w e.settime = x at hstart
  split_ifs
  · exact (Kept.refl s).quiet
  · exact (hopen.emit (.closed fd) rfl).quiet
  · exact (hopen.emit (.closed fd) rfl).quiet
  · exact (hadd.emit (.closed fd) rfl).quiet
  · exact ((hset.emit (.epollCtl .del fd true) rfl).emit (.closed fd) rfl).quiet
  · exact (((htimer.emit (.closed timer) rfl).emit (.epollCtl .del fd true) rfl).emit
      (.closed fd) rfl).quiet
  · exact ((((hstart.emit (.epollCtl .del timer true) rfl).emit (.closed timer) rfl).emit
      (.epollCtl .del fd true) rfl).emit (.closed fd) rfl).quiet
  · refine Quiet.emit (ReflTransGen.trans (ReflTransGen.tail hstart.quiet ?_)
      (hcb.connected _ _)) (.returned _ _) rfl
    exact .connected fd _ rfl rfl rfl

/-- `connect_to_server()`, and `start_reconnect_timer()` if it fails. -/
theorem connectOrRetry_quiet (hcb : CallbacksQuiet cb) (e : StartEnv α) (s : Client) :
    Quiet s (match connectToServer cb e.connect s with
      | (true, s) => s
      | (false, s) => startReconnectTimer s e.reconnect) := by
  have hcon := connectToServer_quiet hcb e.connect s
  generalize connectToServer cb e.connect s = r at hcon
  obtain ⟨ok, t⟩ := r
  cases ok with
  | true => exact hcon
  | false => exact hcon.trans (startReconnectTimer_kept t e.reconnect).quiet

theorem clientStart_quiet (hcb : CallbacksQuiet cb) (e : StartEnv α) (s : Client) :
    Quiet s (clientStart cb e s) := by
  have hcall : Quiet s (s.emit .start) := ((Kept.refl s).emit .start rfl).quiet
  exact hcall.trans (connectOrRetry_quiet hcb e _)

theorem processReconnectTimer_quiet (hcb : CallbacksQuiet cb) (e : StartEnv α) (s : Client) :
    Quiet s (processReconnectTimer cb e s) := by
  have hclose := closeFd_kept s s.reconnectTimerFd
  have hset : Kept s { closeFd s s.reconnectTimerFd with reconnectTimerFd := -1 } :=
    ⟨hclose.input, hclose.inputBuf, hclose.serverFd, hclose.log⟩
  exact hset.quiet.trans (connectOrRetry_quiet hcb e _)

/-! ## The steps of a run -/

theorem Quiet.steps (h : Quiet s t) : Steps s t := ReflTransGen.mono (fun _ _ => Step.quiet) _ _ h

theorem handleMessage_handled (hcb : CallbacksQuiet cb) (e : ReadEnv α) (s : Client) :
    Handled ((inputHeader s).type, (inputBytes s).drop headerSize)
      (s.emit (.handleMessage ((inputHeader s).type, (inputBytes s).drop headerSize)))
      (handleMessage cb e s) := by
  unfold handleMessage
  dsimp only
  split_ifs with huser hpong
  · unfold handleMessageUser
    split_ifs
    · exact .newFailed huser rfl
    · exact .decode huser (pendingDisconnect_kept _ _).quiet
    · exact .onMessage huser (Quiet.emit (hcb.message _ _) (.returned _ _) rfl)
  · exact .other huser (Kept.quiet ⟨rfl, rfl, Or.inl rfl, [], rfl, nofun⟩)
  · exact .other huser .refl

theorem sysRead_data {want : ℕ} {res : ReadRes} {bs : List UInt8}
    (h : sysRead fd want res = .data bs) : fd ≠ -1 ∧ bs.length ≤ want := by
  unfold sysRead at h
  split_ifs at h with hfd
  refine ⟨hfd, ?_⟩
  cases res with
  | data cs =>
    cases h
    rw [List.length_take]
    exact Nat.min_le_left _ _
  | eagain => cases h
  | error => cases h

theorem processSocket_steps (hcb : CallbacksQuiet cb) (es : List (ReadEnv α)) (s : Client) :
    Steps s (processSocket cb es s) := by
  have hidle : ∀ s : Client, Steps s (readBytes s []) := fun s => .single (.idle rfl)
  have hclose : ∀ s : Client, Steps s (pendingDisconnect (readBytes s []) .connectionClosed) :=
    fun s => (hidle s).trans (pendingDisconnect_kept _ _).quiet.steps
  induction es generalizing s with
  | nil =>
    unfold processSocket
    split
    · exact hidle s
    · exact hclose s
  | cons e es ih =>
    unfold processSocket
    split
    · exact hidle s
    · exact hclose s
    · exact hclose s
    · rename_i b bs hread
      obtain ⟨hfd, hlen⟩ := sysRead_data hread
      dsimp only
      by_cases hleft : 0 < (readBytes s (b :: bs)).input.left
      · rw [if_pos hleft]
        refine ReflTransGen.head (.part (b :: bs) hfd ?_ rfl) (ih _)
        have hsub : 0 < s.input.left - (b :: bs).length := hleft
        omega
      · rw [if_neg hleft]
        have hall : (b :: bs).length = s.input.left := by
          have hsub : ¬ 0 < s.input.left - (b :: bs).length := hleft
          omega
        cases hload : loadHeader (readBytes s (b :: bs)) with
        | mk ok t =>
          cases ok with
          | false =>
            exact (ReflTransGen.single (.reject _ hfd hall hload)).trans
              (pendingDisconnect_kept _ _).quiet.steps
          | true =>
            dsimp only
            by_cases hzero : t.input.left = 0
            · rw [if_pos hzero]
              exact ReflTransGen.head (.message _ t _ _ hfd hall hload hzero rfl
                (handleMessage_handled hcb e t) rfl) (ih _)
            · rw [if_neg hzero]
              exact ReflTransGen.head (.body _ hfd hall hload (Nat.pos_of_ne_zero hzero)) (ih _)

theorem clientProcess_steps (hcb : CallbacksQuiet cb) (fd : ℤ) (e : ProcessEnv α) (s : Client) :
    Steps (s.emit (.process fd s.serverFd s.keepAliveTimerFd s.pendingDisconnect))
      (clientProcess cb fd e s) := by
  unfold clientProcess
  generalize s.emit (.process fd s.serverFd s.keepAliveTimerFd s.pendingDisconnect) = t
  dsimp only
  have hevent : Steps t
      (if fd = t.serverFd then processSocket cb e.reads t
      else if fd = t.keepAliveTimerFd then processKeepAliveTimer t e.keepAlive
      else if fd = t.reconnectTimerFd then processReconnectTimer cb e.start t
      else t) := by
    split_ifs
    · exact processSocket_steps hcb _ _
    · exact (processKeepAliveTimer_kept _ _).quiet.steps
    · exact (processReconnectTimer_quiet hcb _ _).steps
    · exact .refl
  generalize (if fd = t.serverFd then processSocket cb e.reads t
    else if fd = t.keepAliveTimerFd then processKeepAliveTimer t e.keepAlive
    else if fd = t.reconnectTimerFd then processReconnectTimer cb e.start t
    else t) = u at hevent
  split_ifs
  · have hdown : Quiet u ((disconnect u).emit
        (.onDisconnected (disconnect u).disconnectReason (disconnect u).serverFd)) :=
      ((disconnect_kept u).emit (.onDisconnected _ _) rfl).quiet
    have hback : Quiet u _ := hdown.trans (hcb.disconnected e.disconnected _)
    generalize cb.onDisconnected e.disconnected _ = w at hback
    have hreturn := Quiet.emit hback (.returned .onDisconnected w.pendingDisconnect) rfl
    exact hevent.trans
      (Quiet.steps (hreturn.trans (startReconnectTimer_kept _ e.reconnect).quiet))
  · exact hevent

theorem runList_quiet {f : α → Client → Client} (hf : ∀ a s, Quiet s (f a s)) (l : List α)
    (s : Client) : Quiet s (runList f l s) := by
  induction l generalizing s with
  | nil => exact .refl
  | cons a l ih => exact (hf a s).trans (ih _)

theorem apiCall_quiet {cb : Callbacks Call} (hcb : CallbacksQuiet cb) (may : Rights) (call : Call)
    (s : Client) : Quiet s (apiCall cb may call s) := by
  cases call with
  | start e =>
    show Quiet s (if may.start then clientStart cb e s else s)
    split_ifs
    · exact clientStart_quiet hcb e s
    · exact .refl
  | stop =>
    show Quiet s (if may.stop then clientStop s else s)
    split_ifs
    · exact (clientStop_kept s).quiet
    · exact .refl
  | send enc res => exact (clientSend_kept s enc res).quiet
  | process fd e => exact .refl

theorem callbacks_quiet (may : Rights) (n : ℕ) : CallbacksQuiet (callbacks may n) := by
  induction n with
  | zero => exact ⟨fun _ _ => .refl, fun _ _ => .refl, fun _ _ => .refl⟩
  | succ n ih =>
    have hcalls : ∀ l s, Quiet s (runList (apiCall (callbacks may n) may) l s) :=
      runList_quiet (apiCall_quiet ih may)
    exact ⟨hcalls, hcalls, hcalls⟩

theorem callWith_steps {cb : Callbacks Call} (hcb : CallbacksQuiet cb) (may : Rights) (call : Call)
    (s : Client) : Steps s (callWith cb may call s) := by
  cases call with
  | process fd e =>
    exact ReflTransGen.head (.quiet (.kept ((Kept.refl s).emit _ rfl)))
      (clientProcess_steps hcb fd e s)
  | start e => exact (apiCall_quiet hcb may (.start e) s).steps
  | stop => exact (apiCall_quiet hcb may .stop s).steps
  | send enc res => exact (apiCall_quiet hcb may (.send enc res) s).steps

/-- Every run is a chain of steps. -/
theorem run_steps (top inner : Rights) (n : ℕ) (calls : List Call) (s : Client) :
    Steps s (run top inner n calls s) := by
  unfold run runList
  induction calls generalizing s with
  | nil => exact .refl
  | cons call calls ih => exact (callWith_steps (callbacks_quiet inner n) top call s).trans (ih _)

/-! ## What the user's code leaves alone -/

theorem Quiet.input (h : Quiet s t) : t.input = s.input := by
  induction h with
  | refl => rfl
  | tail _ h ih =>
    cases h with
    | kept h => exact h.input.trans ih
    | connected fd pending input inputBuf log => exact input.trans ih

theorem Handled.input {m : Message} (h : Handled m s t) : t.input = s.input := by
  cases h with
  | other type h => exact h.input
  | newFailed type h => exact h ▸ rfl
  | decode type h => exact h.input
  | onMessage type h => exact h.input

/-! ## The log only grows -/

theorem Kept.log_suffix (h : Kept s t) : s.log <:+ t.log := by
  obtain ⟨evs, hlog, -⟩ := h.log
  exact ⟨evs, hlog.symm⟩

theorem QuietStep.log_suffix (h : QuietStep s t) : s.log <:+ t.log := by
  cases h with
  | kept h => exact h.log_suffix
  | connected fd pending input inputBuf log => exact log ▸ List.suffix_cons _ _

theorem Quiet.log_suffix (h : Quiet s t) : s.log <:+ t.log := by
  induction h with
  | refl => exact List.suffix_rfl
  | tail _ h ih => exact ih.trans h.log_suffix

theorem Handled.log_suffix {m : Message} (h : Handled m s t) : s.log <:+ t.log := by
  cases h with
  | other type h => exact h.log_suffix
  | newFailed type h => exact h ▸ List.suffix_cons _ _
  | decode type h => exact (List.suffix_cons _ _).trans h.log_suffix
  | onMessage type h =>
    exact ((List.suffix_cons _ _).trans (List.suffix_cons _ _)).trans h.log_suffix

theorem loadHeader_log {ok : Bool} (h : loadHeader s = (ok, t)) :
    t.log = if ok = true then s.log else .tooBig :: s.log := by
  unfold loadHeader at h
  dsimp only at h
  split_ifs at h <;> cases h <;> rfl

/-- What is done with a header, and with a payload. -/
theorem loadHeader_spec {ok : Bool} (h : loadHeader s = (ok, t)) :
    let n := (headerGetSize (inputHeader s)).toNat
    match ok with
    | false => s.input.state = .header ∧ s.input.dataSize < n + headerSize ∧
        t = { s with input := { s.input with left := n }, log := .tooBig :: s.log }
    | true => (s.input.state = .payload ∧ t = s) ∨
        (s.input.state = .header ∧ n + headerSize ≤ s.input.dataSize ∧
          t = { s with input := { s.input with left := n, state := .payload } }) := by
  unfold loadHeader at h
  dsimp only at h ⊢
  by_cases hstate : s.input.state = .header
  · rw [if_pos hstate] at h
    split_ifs at h with hbig
    · cases h
      exact ⟨hstate, hbig, rfl⟩
    · cases h
      exact Or.inr ⟨hstate, Nat.not_lt.1 hbig, rfl⟩
  · rw [if_neg hstate] at h
    cases h
    refine Or.inl ⟨?_, rfl⟩
    cases hcase : s.input.state with
    | header => exact absurd hcase hstate
    | payload => rfl

theorem loadHeader_payload (h : loadHeader s = (true, t)) : t.input.state = .payload ∧
    t.input.dataSize = s.input.dataSize ∧ t.input.size = s.input.size ∧ t.log = s.log := by
  rcases loadHeader_spec h with ⟨hstate, rfl⟩ | ⟨-, -, rfl⟩
  · exact ⟨hstate, rfl, rfl, rfl⟩
  · exact ⟨rfl, rfl, rfl, rfl⟩

theorem Step.log_suffix (h : Step s t) : s.log <:+ t.log := by
  have hread : ∀ bs, s.log <:+ (readBytes s bs).log := fun bs => List.suffix_cons _ _
  cases h with
  | quiet h => exact h.log_suffix
  | idle h => exact h ▸ hread []
  | part bs fd lt h => exact h ▸ hread bs
  | reject bs fd length h =>
    rw [loadHeader_log h]
    exact (hread bs).trans (List.suffix_cons _ _)
  | body bs fd length h pos =>
    rw [loadHeader_log h]
    exact hread bs
  | message bs u w m fd length load zero eq h reset =>
    have hu := loadHeader_log load
    rw [if_pos rfl] at hu
    rw [reset]
    refine (hread bs).trans (hu ▸ ?_)
    exact (List.suffix_cons _ _).trans h.log_suffix

theorem Steps.log_suffix (h : Steps s t) : s.log <:+ t.log := by
  induction h with
  | refl => exact List.suffix_rfl
  | tail _ h ih => exact ih.trans h.log_suffix

end

end Messi.LinuxClient
