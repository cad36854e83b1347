import Messi.LinuxClient.Steps

/-!
# Rules

What has to be shown of a property of the client for the loop of `process_socket()`, the user's
callbacks and whole runs to keep it.
-/

namespace Messi.LinuxClient

/-- An event of the loop of `process_socket()` when it reads from `fd`. -/
def Event.OfLoop (fd : ℤ) : Event → Prop
  | .read fd' .. => fd' = fd
  | .tooBig | .handleMessage _ | .newFailed | .decode _ | .onMessage _ => True
  | _ => False

/-- The loop has done something that concerns its input only, or has handled a pong. -/
structure LoopStep (s t : Client) : Prop where
  serverFd : t.serverFd = s.serverFd
  keepAliveTimerFd : t.keepAliveTimerFd = s.keepAliveTimerFd
  reconnectTimerFd : t.reconnectTimerFd = s.reconnectTimerFd
  pendingDisconnect : t.pendingDisconnect = s.pendingDisconnect
  log : t.log = s.log ∨ ∃ e, Event.OfLoop s.serverFd e ∧ t.log = e :: s.log

/-- The calls that the user's code makes in the callbacks keep `P`. -/
structure CallbacksKeep {α : Type*} (P : Client → Prop) (cb : Callbacks α) : Prop where
  connected : ∀ l s, P s → P (cb.onConnected l s)
  message : ∀ l s, P s → P (cb.onMessage l s)
  disconnected : ∀ l s, P s → P (cb.onDisconnected l s)

section

variable {α : Type*} {P : Client → Prop} {cb : Callbacks α} {s : Client}

theorem readBytes_loopStep (s : Client) (bs : List UInt8) : LoopStep s (readBytes s bs) :=
  ⟨rfl, rfl, rfl, rfl, Or.inr ⟨.read s.serverFd s.input.size s.input.left bs, rfl, rfl⟩⟩

theorem loadHeader_loopStep (s : Client) : LoopStep s (loadHeader s).2 := by
  unfold loadHeader
  dsimp only
  split_ifs
  · exact ⟨rfl, rfl, rfl, rfl, Or.inr ⟨.tooBig, trivial, rfl⟩⟩
  · exact ⟨rfl, rfl, rfl, rfl, Or.inl rfl⟩
  · exact ⟨rfl, rfl, rfl, rfl, Or.inl rfl⟩

/-- The loop keeps what its own steps, `pending_disconnect()` and the message callbacks keep. -/
structure LoopKeeps (P : Client → Prop) (cb : Callbacks α) : Prop where
  step : ∀ s t, LoopStep s t → P s → P t
  pending : ∀ s r, P s → P (pendingDisconnect s r)
  message : ∀ l s, P s → P ((cb.onMessage l s).emit
    (.returned .onMessage (cb.onMessage l s).pendingDisconnect))

theorem LoopKeeps.handleMessage (h : LoopKeeps P cb) (e : ReadEnv α) (hs : P s) :
    P (handleMessage cb e s) := by
  have hemit : ∀ (s : Client) (e : Event), Event.OfLoop s.serverFd e → P s → P (s.emit e) :=
    fun s e he => h.step s _ ⟨rfl, rfl, rfl, rfl, Or.inr ⟨e, he, rfl⟩⟩
  unfold LinuxClient.handleMessage handleMessageUser
  have hmsg := hemit s (.handleMessage ((inputHeader s).type, (inputBytes s).drop headerSize))
    trivial hs
  dsimp only
  generalize s.emit (.handleMessage ((inputHeader s).type, (inputBytes s).drop headerSize)) = t
    at hmsg
  split_ifs
  · exact hemit t .newFailed trivial hmsg
  · exact h.pending _ _ (hemit t (.decode _) trivial hmsg)
  · exact h.message _ _ (hemit _ (.onMessage _) trivial (hemit t (.decode _) trivial hmsg))
  · exact h.step t _ ⟨rfl, rfl, rfl, rfl, Or.inl rfl⟩ hmsg
  · exact hmsg

theorem LoopKeeps.processSocket (h : LoopKeeps P cb) (es : List (ReadEnv α)) (hs : P s) :
    P (processSocket cb es s) := by
  have hread : ∀ (s : Client) (bs : List UInt8), P s → P (readBytes s bs) := fun s bs =>
    h.step s _ (readBytes_loopStep s bs)
  induction es generalizing s with
  | nil =>
    unfold LinuxClient.processSocket
    split
    · exact hread s [] hs
    · exact h.pending _ _ (hread s [] hs)
  | cons e es ih =>
    unfold LinuxClient.processSocket
    split
    · exact hread s [] hs
    · exact h.pending _ _ (hread s [] hs)
    · exact h.pending _ _ (hread s [] hs)
    · rename_i b bs _
      have hbytes := hread s (b :: bs) hs
      dsimp only
      split_ifs
      · exact ih hbytes
      · have hload := h.step _ _ (loadHeader_loopStep (readBytes s (b :: bs))) hbytes
        generalize loadHeader (readBytes s (b :: bs)) = r at hload
        obtain ⟨ok, t⟩ := r
        cases ok with
        | false => exact h.pending _ _ hload
        | true =>
          dsimp only
          split_ifs
          · refine ih (h.step _ _ ?_ (h.handleMessage e hload))
            exact ⟨rfl, rfl, rfl, rfl, Or.inl rfl⟩
          · exact ih hload

/-! ## Sending -/

/-- What `NAME_client_send()` consists of keeps `P`. -/
structure SendKeeps (P : Client → Prop) : Prop where
  send : ∀ s, P s → P (s.emit (.send s.serverFd s.pendingDisconnect))
  write : ∀ s m n, P s → P (s.emit (.write s.serverFd m n))
  pending : ∀ s r, P s → P (pendingDisconnect s r)

theorem SendKeeps.clientSend (h : SendKeeps P) (enc : Encoder) (res : WriteRes) (hs : P s) :
    P (clientSend s enc res) := by
  have hsend := h.send s hs
  unfold LinuxClient.clientSend
  generalize s.emit (.send s.serverFd s.pendingDisconnect) = t at hsend
  dsimp only
  split
  · exact h.pending _ _ hsend
  · rename_i payload _
    cases hwrite : writeMessage t (messageTypeClientToServerUser, payload) res with
    | mk ok u =>
      obtain ⟨n, -, rfl, -⟩ := writeMessage_spec hwrite
      have hwritten := h.write t (messageTypeClientToServerUser, payload) n hsend
      cases ok with
      | true => exact hwritten
      | false => exact h.pending _ _ hwritten

/-- So does what `process_keep_alive_timer()` consists of. -/
structure TimerKeeps (P : Client → Prop) : Prop extends SendKeeps P where
  read : ∀ s ok, P s → P (s.emit (.readTimer s.keepAliveTimerFd ok))
  settime : ∀ s ok, P s → P (s.emit (.settime s.keepAliveTimerFd ok))
  ping : ∀ s, P s → P { s with pongReceived := false }

theorem TimerKeeps.processKeepAliveTimer (h : TimerKeeps P) (e : KeepAliveEnv) (hs : P s) :
    P (processKeepAliveTimer s e) := by
  unfold LinuxClient.processKeepAliveTimer
  dsimp only
  generalize sysReadTimer s.keepAliveTimerFd e.read = read
  have hread := h.read s read hs
  generalize s.emit (.readTimer s.keepAliveTimerFd read) = t at hread
  have htime : P (startKeepAliveTimer t e.settime) := h.settime t e.settime hread
  split_ifs
  · exact h.pending _ _ hread
  · exact h.pending _ _ hread
  · generalize startKeepAliveTimer t e.settime = u at htime
    cases hwrite : writeMessage u (messageTypePing, []) e.write with
    | mk ok w =>
      obtain ⟨n, -, rfl, -⟩ := writeMessage_spec hwrite
      have hwritten := h.write u (messageTypePing, []) n htime
      cases ok with
      | true => exact h.ping _ hwritten
      | false => exact h.pending _ _ hwritten
  · exact h.pending _ _ htime

/-! ## Runs -/

theorem runList_keeps {f : α → Client → Client} (hf : ∀ a s, P s → P (f a s)) (l : List α)
    (hs : P s) : P (runList f l s) := by
  induction l generalizing s with
  | nil => exact hs
  | cons a l ih => exact ih (hf a s hs)

/-- What the calls of the user's code keep. -/
structure CallsKeep (P : Client → Prop) (may : Rights) (cb : Callbacks Call) : Prop where
  start : may.start → ∀ e s, P s → P (clientStart cb e s)
  stop : may.stop → ∀ s, P s → P (clientStop s)
  send : ∀ enc res s, P s → P (clientSend s enc res)

variable {may top inner : Rights} {cb : Callbacks Call}

theorem CallsKeep.apiCall (h : CallsKeep P may cb) (call : Call) (hs : P s) :
    P (apiCall cb may call s) := by
  cases call with
  | start e =>
    show P (if may.start then clientStart cb e s else s)
    split_ifs with hmay
    · exact h.start hmay e s hs
    · exact hs
  | stop =>
    show P (if may.stop then clientStop s else s)
    split_ifs with hmay
    · exact h.stop hmay s hs
    · exact hs
  | send enc res => exact h.send enc res s hs
  | process fd e => exact hs

/-- Calls keep a property if they do so whenever the calls made in their callbacks do. -/
theorem callbacks_keep (h : ∀ cb, CallbacksKeep P cb → CallsKeep P may cb) (n : ℕ) :
    CallbacksKeep P (callbacks may n) := by
  induction n with
  | zero => exact ⟨fun _ _ hs => hs, fun _ _ hs => hs, fun _ _ hs => hs⟩
  | succ n ih =>
    have hcalls : ∀ l s, P s → P (runList (LinuxClient.apiCall (callbacks may n) may) l s) :=
      fun l s => runList_keeps (fun call s => (h _ ih).apiCall call) l
    exact ⟨hcalls, hcalls, hcalls⟩

theorem callWith_keeps (h : CallsKeep P top cb)
    (hprocess : ∀ fd e s, P s → P (clientProcess cb fd e s)) (call : Call) (hs : P s) :
    P (callWith cb top call s) := by
  cases call with
  | process fd e => exact hprocess fd e s hs
  | start e => exact h.apiCall (.start e) hs
  | stop => exact h.apiCall .stop hs
  | send enc res => exact h.apiCall (.send enc res) hs

/-- What every call at top level keeps, every run keeps. -/
theorem run_keeps {n : ℕ} (h : CallsKeep P top (callbacks inner n))
    (hprocess : ∀ fd e s, P s → P (clientProcess (callbacks inner n) fd e s)) (calls : List Call)
    (hs : P s) : P (run top inner n calls s) :=
  runList_keeps (fun call _ => callWith_keeps h hprocess call) calls hs

end

end Messi.LinuxClient
