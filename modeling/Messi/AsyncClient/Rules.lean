import Messi.AsyncClient.Model

/-!
# Rules

What has to be shown of a property of the client for the user's callbacks, the loop of
`on_stcp_input()` and whole runs to keep it.
-/

namespace Messi.AsyncClient

/-- An event of the loop of `on_stcp_input()`. -/
def Event.ofLoop : Event → Bool
  | .read .. | .handleMessage _ | .newFailed | .decode _ | .onMessage _ => true
  | _ => false

/-- The loop has done something that concerns its input only, or has handled a pong. -/
structure LoopStep (s t : Client) : Prop where
  isConnected : t.isConnected = s.isConnected
  disconnectReason : t.disconnectReason = s.disconnectReason
  stcp : t.stcp = s.stcp
  armed : t.armed = s.armed
  calls : t.calls = s.calls
  log : t.log = s.log ∨ ∃ e : Event, e.ofLoop = true ∧ t.log = e :: s.log

/-- What the calls of the user's code keep. -/
structure CallsKeep (may : Rights) (P : Client → Prop) : Prop where
  start : may.start → ∀ s, P s → P (clientStart (s.emit .start))
  stop : may.stop → ∀ s, P s → P (clientStop (s.emit .stop))
  cause : ∀ s r, P s → P (disconnectAndStartReconnectTimer s r)
  write : ∀ s m, P s → P (stcpWrite s m)

section

variable {may : Rights} {P : Client → Prop} {s t : Client}

theorem CallsKeep.call (h : CallsKeep may P) (hs : P s) (c : Call) : P (call may s c) := by
  cases c with
  | start =>
    show P (if may.start then clientStart (s.emit .start) else s)
    split_ifs with hmay
    · exact h.start hmay s hs
    · exact hs
  | stop =>
    show P (if may.stop then clientStop (s.emit .stop) else s)
    split_ifs with hmay
    · exact h.stop hmay s hs
    · exact hs
  | send enc =>
    show P (clientSend s enc)
    unfold clientSend
    split
    · exact h.cause s _ hs
    · exact h.write s _ hs

theorem CallsKeep.callback (h : CallsKeep may P) (calls : List Call) (hs : P s) :
    P (callback may calls s) := by
  unfold AsyncClient.callback
  induction calls generalizing s with
  | nil => exact hs
  | cons c calls ih => exact ih (h.call hs c)

theorem readBytes_loopStep (s : Client) (bs : List UInt8) : LoopStep s (readBytes s bs) :=
  ⟨rfl, rfl, rfl, rfl, rfl, Or.inr ⟨.read s.stcp.connected s.input.size s.input.left bs, rfl, rfl⟩⟩

theorem loadHeader_loopStep (s : Client) : LoopStep s (loadHeader s).2 := by
  unfold loadHeader
  dsimp only
  split_ifs <;> exact ⟨rfl, rfl, rfl, rfl, rfl, Or.inl rfl⟩

theorem CallsKeep.handleMessage (h : CallsKeep may P) (hl : ∀ s t, LoopStep s t → P s → P t)
    (e : ReadEnv) (hs : P s) : P (handleMessage may e s) := by
  have hemit : ∀ (s : Client) (e : Event), e.ofLoop = true → P s → P (s.emit e) :=
    fun s e he => hl s _ ⟨rfl, rfl, rfl, rfl, rfl, Or.inr ⟨e, he, rfl⟩⟩
  have hmsg :=
    hemit s (.handleMessage ((inputHeader s).type, (inputBytes s).drop headerSize)) rfl hs
  unfold AsyncClient.handleMessage handleMessageUser
  dsimp only
  generalize s.emit (.handleMessage ((inputHeader s).type, (inputBytes s).drop headerSize)) = t
    at hmsg
  split_ifs
  · exact hemit t .newFailed rfl hmsg
  · exact h.cause _ _ (hemit t (.decode _) rfl hmsg)
  · exact h.callback _ (hemit _ (.onMessage _) rfl (hemit t (.decode _) rfl hmsg))
  · exact hl t _ ⟨rfl, rfl, rfl, rfl, rfl, Or.inl rfl⟩ hmsg
  · exact hmsg

theorem CallsKeep.onStcpInput (h : CallsKeep may P) (hl : ∀ s t, LoopStep s t → P s → P t)
    (es : List ReadEnv) (hs : P s) : P (onStcpInput may es s) := by
  induction es generalizing s with
  | nil => exact hl s _ (readBytes_loopStep s []) hs
  | cons e es ih =>
    unfold AsyncClient.onStcpInput
    split
    · exact hl s _ (readBytes_loopStep s []) hs
    · rename_i b bs _
      have hread := hl s _ (readBytes_loopStep s (b :: bs)) hs
      dsimp only
      split_ifs
      · exact ih hread
      · have hload := hl _ _ (loadHeader_loopStep (readBytes s (b :: bs))) hread
        generalize loadHeader (readBytes s (b :: bs)) = r at hload
        obtain ⟨ok, t⟩ := r
        cases ok with
        | false => exact h.cause _ _ hload
        | true =>
          dsimp only
          split_ifs
          · refine ih (hl _ _ ?_ (h.handleMessage hl e hload))
            exact ⟨rfl, rfl, rfl, rfl, rfl, Or.inl rfl⟩
          · exact ih hload

/-- What every delivery of the framework that is due keeps. -/
structure StepKeeps (may : Rights) (P : Client → Prop) : Prop where
  call : ∀ s c, P s → P (call may s c)
  connected : ∀ s ok calls, 0 < s.stcp.connects → P s → P (onStcpConnected may ok calls
    { s with stcp := ⟨s.stcp.connects - 1, s.stcp.connected || ok⟩ })
  disconnected : ∀ s, s.stcp.connected = true → P s →
    P (onStcpDisconnected { s with stcp := { s.stcp with connected := false } })
  input : ∀ s es, s.stcp.connected = true → P s → P (onStcpInput may es s)
  keepAlive : ∀ s, s.armed .keepAlive = true → P s →
    P (onKeepAliveTimeout { s with armed := Function.update s.armed .keepAlive false })
  reconnect : ∀ s, s.armed .reconnect = true → P s →
    P (clientStart { s with armed := Function.update s.armed .reconnect false })
  called : ∀ s calls, 0 < s.calls → P s →
    P (onDisconnected may calls ({ s with calls := s.calls - 1 }.emit .called))

theorem StepKeeps.step (h : StepKeeps may P) (x : Step) (hs : P s) : P (step may s x) := by
  unfold AsyncClient.step
  cases x with
  | call c => exact h.call s c hs
  | connected ok calls =>
    dsimp only
    split_ifs with hdue
    · exact h.connected s ok calls hdue hs
    · exact hs
  | disconnected =>
    dsimp only
    split_ifs with hdue
    · exact h.disconnected s hdue hs
    · exact hs
  | input es =>
    dsimp only
    split_ifs with hdue
    · exact h.input s es hdue hs
    · exact hs
  | timeout timer =>
    cases timer <;> dsimp only <;> split_ifs with hdue
    · exact h.keepAlive s hdue hs
    · exact hs
    · exact h.reconnect s hdue hs
    · exact hs
  | called calls =>
    dsimp only
    split_ifs with hdue
    · exact h.called s calls hdue hs
    · exact hs

/-- What every step keeps, every run keeps. -/
theorem StepKeeps.run (h : StepKeeps may P) (steps : List Step) (hs : P s) :
    P (run may steps s) := by
  unfold AsyncClient.run
  induction steps generalizing s with
  | nil => exact hs
  | cons x steps ih => exact ih (h.step x hs)

/-! ## The log grows -/

theorem disconnectAndStartReconnectTimer_suffix (s : Client) (r : DisconnectReason) :
    s.log <:+ (disconnectAndStartReconnectTimer s r).log := by
  unfold disconnectAndStartReconnectTimer
  dsimp only
  split_ifs
  · exact ⟨[.cause r], rfl⟩
  · exact ⟨[.asyncCall, .disconnect, .timerStop .keepAlive, .cause r], rfl⟩

theorem calls_suffix (may : Rights) (l : List Event) : CallsKeep may fun s => l <:+ s.log where
  start _ _ h := h.trans ⟨[.connect, .start], rfl⟩
  stop _ _ h :=
    h.trans ⟨[.timerStop .keepAlive, .timerStop .reconnect, .disconnect, .stop], rfl⟩
  cause s r h := h.trans (disconnectAndStartReconnectTimer_suffix s r)
  write s m h := h.trans ⟨[.write s.stcp.connected m], rfl⟩

theorem loopStep_suffix (l : List Event) (s t : Client) (h : LoopStep s t) (hs : l <:+ s.log) :
    l <:+ t.log := by
  rcases h.log with hlog | ⟨e, -, hlog⟩ <;> rw [hlog]
  · exact hs
  · exact hs.trans (List.suffix_cons e s.log)

theorem steps_suffix (may : Rights) (l : List Event) : StepKeeps may fun s => l <:+ s.log where
  call _ c h := (calls_suffix may l).call h c
  connected s ok calls _ h := by
    unfold onStcpConnected
    split_ifs
    · exact (calls_suffix may l).callback calls
        (h.trans ⟨[.onConnected, .timerStart .keepAlive], rfl⟩)
    · exact h.trans ⟨[.timerStart .reconnect], rfl⟩
  disconnected s _ h := h.trans (disconnectAndStartReconnectTimer_suffix
    { s with stcp := { s.stcp with connected := false } } _)
  input _ es _ h := (calls_suffix may l).onStcpInput (loopStep_suffix l) es h
  keepAlive s _ h := by
    unfold onKeepAliveTimeout
    split_ifs
    · exact h.trans ⟨[.write s.stcp.connected (messageTypePing, []),
        .timerStart .keepAlive], rfl⟩
    · exact h.trans (disconnectAndStartReconnectTimer_suffix
        { s with armed := Function.update s.armed .keepAlive false } _)
  reconnect s _ h := h.trans ⟨[.connect], rfl⟩
  called s calls _ h := by
    have hreport : l <:+ (({ s with calls := s.calls - 1 }.emit .called).emit
        (.onDisconnected s.disconnectReason)).log :=
      h.trans ⟨[.onDisconnected s.disconnectReason, .called], rfl⟩
    have hback := (calls_suffix may l).callback calls hreport
    exact hback.trans ⟨[.timerStart .reconnect, .returned], rfl⟩

theorem step_suffix (x : Step) (s : Client) : s.log <:+ (step may s x).log :=
  (steps_suffix may s.log).step x (List.suffix_refl _)

end

end Messi.AsyncClient
