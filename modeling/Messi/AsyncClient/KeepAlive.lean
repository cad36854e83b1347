import Messi.Base.Trace
import Messi.AsyncClient.Serving
import Messi.AsyncClient.Streams

/-!
# Pings and pongs of the async client

`pong_received` says whether the last ping on the connection has been followed by a pong. So a ping
is written only when the one before has been answered, and the client gives up with
`keep_alive_timeout` only when one has not (`async_keep_alive`).
-/

namespace Messi.AsyncClient

open Trace

/-- On the last connection a ping has been written, and no pong has been handled since. -/
def awaiting : List Event → Bool
  | [] => false
  | .onConnected :: _ => false
  | .write _ m :: l => isPing m || awaiting l
  | .handleMessage m :: l => !isPong m && awaiting l
  | _ :: l => awaiting l

/-- A ping is written to a connection, and when none is awaiting its pong; the client disconnects
with `keep_alive_timeout` when one is. -/
def Event.Prompt (l : List Event) : Event → Prop
  | .write connected m => isPing m = true → connected = true ∧ awaiting l = false
  | .cause .keepAliveTimeout => awaiting l = true
  | _ => True

/-- Nothing is said of pings and pongs. -/
def Event.quiet : Event → Bool
  | .write _ m => !isPing m
  | .cause r => r != .keepAliveTimeout
  | .handleMessage _ | .onConnected => false
  | _ => true

/-- What `pong_received` says, once there has been a connection, and when the timer runs. -/
structure KeepsAlive (s : Client) : Prop where
  linked : s.stcp.connected = true → s.isConnected = true
  armed : s.armed .keepAlive = true → s.stcp.connected = true ∧ .onConnected ∈ s.log
  flag : .onConnected ∈ s.log → s.pongReceived = !awaiting s.log
  prompt : Always Event.Prompt s.log

/-- Nothing has been done about the keep alive, but the timer may have been stopped. -/
structure Still (s t : Client) : Prop where
  linked : t.stcp.connected = true → s.stcp.connected = true ∧ t.isConnected = s.isConnected
  armed : t.armed .keepAlive = true →
    s.armed .keepAlive = true ∧ t.stcp.connected = s.stcp.connected
  pong : t.pongReceived = s.pongReceived
  log : ∃ evs, t.log = evs ++ s.log ∧ ∀ e ∈ evs, e.quiet = true

section

variable {s t u : Client} {m : Message} {e : Event} {l evs : List Event} {may : Rights}

/-! ## What is kept -/

theorem nothing_quiet : ∀ e ∈ ([] : List Event), e.quiet = true :=
  fun _ he => absurd he List.not_mem_nil

theorem Still.refl (s : Client) : Still s s :=
  ⟨fun h => ⟨h, rfl⟩, fun h => ⟨h, rfl⟩, rfl, [], rfl, nothing_quiet⟩

theorem Still.trans (h : Still s t) (h' : Still t u) : Still s u := by
  obtain ⟨evs, hlog, hevs⟩ := h.log
  obtain ⟨evs', hlog', hevs'⟩ := h'.log
  refine ⟨fun hu => ?_, fun hu => ?_, h'.pong.trans h.pong, evs' ++ evs, ?_, fun e he => ?_⟩
  · obtain ⟨ht, hcon⟩ := h'.linked hu
    exact ⟨(h.linked ht).1, hcon.trans (h.linked ht).2⟩
  · obtain ⟨ht, hcon⟩ := h'.armed hu
    exact ⟨(h.armed ht).1, hcon.trans (h.armed ht).2⟩
  · rw [hlog', hlog, List.append_assoc]
  · exact (List.mem_append.1 he).elim (hevs' e) (hevs e)

theorem Still.emit (h : Still s t) (e : Event) (he : e.quiet = true) :
    Still s (t.emit e) := by
  refine h.trans ⟨fun h => ⟨h, rfl⟩, fun h => ⟨h, rfl⟩, rfl, [e], rfl, fun e' he' => ?_⟩
  rw [List.mem_singleton.1 he']
  exact he

/-- Only something else has changed. -/
theorem Still.of_eq (h : Still s t) (hstcp : u.stcp.connected = t.stcp.connected)
    (hcon : u.isConnected = t.isConnected) (harmed : u.armed .keepAlive = t.armed .keepAlive)
    (hpong : u.pongReceived = t.pongReceived) (hlog : u.log = t.log) : Still s u :=
  h.trans ⟨fun hu => ⟨hstcp ▸ hu, hcon⟩, fun hu => ⟨harmed ▸ hu, hstcp⟩, hpong, [], hlog,
    nothing_quiet⟩

theorem quiet_awaiting (h : ∀ e ∈ evs, e.quiet = true) : awaiting (evs ++ l) = awaiting l := by
  induction evs with
  | nil => rfl
  | cons e evs ih =>
    have hrest := ih fun e' he' => h e' (List.mem_cons_of_mem e he')
    have he := h e List.mem_cons_self
    cases e
    case write connected m =>
      have hping : isPing m = false := by simpa [Event.quiet] using he
      simpa [awaiting, hping] using hrest
    case handleMessage => cases he
    case onConnected => cases he
    all_goals exact hrest

theorem quiet_prompt (he : e.quiet = true) (l : List Event) : e.Prompt l := by
  cases e
  case write connected m =>
    have hping : isPing m = false := by simpa [Event.quiet] using he
    exact fun h => absurd (hping.symm.trans h) Bool.false_ne_true
  case cause r => cases r <;> trivial
  all_goals trivial

theorem Still.keepsAlive (h : Still s t) (hs : KeepsAlive s) : KeepsAlive t := by
  obtain ⟨evs, hlog, hevs⟩ := h.log
  have hmade : .onConnected ∈ t.log ↔ .onConnected ∈ s.log := by
    rw [hlog, List.mem_append]
    refine or_iff_right fun hmem => ?_
    cases hevs _ hmem
  constructor
  case linked =>
    intro ht
    obtain ⟨hs', heq⟩ := h.linked ht
    exact heq.trans (hs.linked hs')
  case armed =>
    intro ht
    obtain ⟨hs', heq⟩ := h.armed ht
    exact ⟨heq.trans (hs.armed hs').1, hmade.2 (hs.armed hs').2⟩
  case flag =>
    intro ht
    rw [h.pong, hs.flag (hmade.1 ht), hlog, quiet_awaiting hevs]
  case prompt =>
    rw [hlog]
    exact hs.prompt.append fun e he l => quiet_prompt (hevs e he) l

/-! ## What says nothing of pings and pongs -/

theorem timerStart_still (h : Still s t) : Still s (timerStart t .reconnect) := by
  have hother : Function.update t.armed .reconnect true .keepAlive = t.armed .keepAlive :=
    Function.update_of_ne (by decide) _ _
  exact (h.emit (.timerStart .reconnect) rfl).of_eq rfl rfl hother rfl rfl

theorem timerStop_still (h : Still s t) (timer : Timer) : Still s (timerStop t timer) := by
  refine (h.emit (.timerStop timer) rfl).trans
    ⟨fun h => ⟨h, rfl⟩, fun hu => ⟨?_, rfl⟩, rfl, [], rfl,
    nothing_quiet⟩
  show t.armed .keepAlive = true
  change Function.update t.armed timer false .keepAlive = true at hu
  cases timer with
  | keepAlive =>
    rw [Function.update_self] at hu
    cases hu
  | reconnect => rwa [Function.update_of_ne (by decide)] at hu

theorem timerStop_armed (s : Client) : (timerStop s .keepAlive).armed .keepAlive = false := by
  show Function.update s.armed .keepAlive false .keepAlive = false
  exact Function.update_self _ _ _

/-- The connection is closed, when the timer does not run. -/
theorem stcpDisconnect_still (h : Still s t) (harmed : t.armed .keepAlive = false) :
    Still s (stcpDisconnect t) := by
  refine (h.emit .disconnect rfl).trans ⟨nofun, fun hu => ?_, rfl, [], rfl, nothing_quiet⟩
  exact absurd (harmed.symm.trans hu) Bool.false_ne_true

/-- Once the connection has been closed it does not matter that `is_connected` is false. -/
theorem drop_still (s : Client) (r : DisconnectReason) :
    Still s (asyncCall { stcpDisconnect (timerStop { s with isConnected := false } .keepAlive) with
      disconnectReason := r }) := by
  have hstop := stcpDisconnect_still (timerStop_still (Still.refl s) .keepAlive) (timerStop_armed s)
  have hdrop : Still s { stcpDisconnect (timerStop { s with isConnected := false } .keepAlive) with
      disconnectReason := r } := ⟨nofun, hstop.armed, hstop.pong, hstop.log⟩
  exact (hdrop.emit .asyncCall rfl).of_eq rfl rfl rfl rfl rfl

theorem disconnect_still (h : Still s t) (r : DisconnectReason) (hr : r ≠ .keepAliveTimeout) :
    Still s (disconnectAndStartReconnectTimer t r) := by
  have hcause := h.emit (.cause r) (by simpa [Event.quiet] using hr)
  unfold disconnectAndStartReconnectTimer
  dsimp only
  split_ifs
  · exact hcause
  · exact hcause.trans (drop_still _ r)

theorem clientStop_still (h : Still s t) : Still s (clientStop t) := by
  have hdown : Still (timerStop t .keepAlive) (stcpDisconnect (timerStop t .keepAlive)) :=
    stcpDisconnect_still (Still.refl _) (timerStop_armed t)
  have hstop := (timerStop_still h .keepAlive).trans hdown
  refine ⟨nofun, fun hu => ?_, hstop.pong, ?_⟩
  · have hoff : (clientStop t).armed .keepAlive = false := timerStop_armed _
    exact absurd (hoff.symm.trans hu) Bool.false_ne_true
  · obtain ⟨evs, hlog, hevs⟩ := h.log
    refine ⟨[.timerStop .keepAlive, .timerStop .reconnect, .disconnect] ++ evs, ?_, ?_⟩
    · show .timerStop .keepAlive :: .timerStop .reconnect :: .disconnect :: t.log = _
      rw [hlog]
      rfl
    · intro e he
      rcases List.mem_append.1 he with he | he
      · fin_cases he <;> rfl
      · exact hevs e he

theorem clientStart_still (h : Still s t) : Still s (clientStart t) :=
  (h.emit .connect rfl).of_eq rfl rfl rfl rfl rfl

theorem call_still (h : Still s t) (c : Call) : Still s (call may t c) := by
  cases c with
  | start =>
    show Still s (if may.start then clientStart (t.emit .start) else t)
    split_ifs
    · exact clientStart_still (h.emit .start rfl)
    · exact h
  | stop =>
    show Still s (if may.stop then clientStop (t.emit .stop) else t)
    split_ifs
    · exact clientStop_still (h.emit .stop rfl)
    · exact h
  | send enc =>
    show Still s (clientSend t enc)
    unfold clientSend
    split
    · exact disconnect_still h _ nofun
    · exact h.emit (.write t.stcp.connected _) rfl

theorem callback_still (h : Still s t) (calls : List Call) : Still s (callback may calls t) := by
  unfold callback
  induction calls generalizing t with
  | nil => exact h
  | cons c calls ih => exact ih (call_still h c)

theorem onDisconnected_still (h : Still s t) (calls : List Call) :
    Still s (onDisconnected may calls t) := by
  have hback : Still s (callback may calls (t.emit (.onDisconnected t.disconnectReason))) :=
    callback_still (h.emit (.onDisconnected t.disconnectReason) rfl) calls
  exact timerStart_still (hback.emit .returned rfl)

theorem readBytes_still (s : Client) (bs : List UInt8) : Still s (readBytes s bs) :=
  ((Still.refl s).emit (.read s.stcp.connected s.input.size s.input.left bs) rfl).of_eq rfl rfl rfl
    rfl rfl

theorem loadHeader_still (s : Client) : Still s (loadHeader s).2 := by
  unfold loadHeader
  dsimp only
  split_ifs <;> exact (Still.refl s).of_eq rfl rfl rfl rfl rfl

theorem handleMessageUser_still (h : Still s t) (e : ReadEnv) :
    Still s (handleMessageUser may e t) := by
  unfold handleMessageUser
  dsimp only
  split_ifs
  · exact h.emit .newFailed rfl
  · exact disconnect_still (h.emit (.decode _) rfl) _ nofun
  · exact callback_still ((h.emit (.decode _) rfl).emit (.onMessage _) rfl) _

/-! ## Input -/

/-- A message is handled that is no pong. -/
theorem KeepsAlive.message (hs : KeepsAlive s) (hm : isPong m = false) :
    KeepsAlive (s.emit (.handleMessage m)) := by
  refine ⟨hs.linked, fun h => ?_, fun h => ?_, trivial, hs.prompt⟩
  · exact ⟨(hs.armed h).1, List.mem_cons_of_mem _ (hs.armed h).2⟩
  · have hmade : Event.onConnected ∈ s.log := (List.mem_cons.1 h).resolve_left nofun
    simp [awaiting, hm, hs.flag hmade]

/-- A pong is handled. -/
theorem KeepsAlive.pong (hs : KeepsAlive s) (hm : isPong m = true) :
    KeepsAlive (handleMessagePong (s.emit (.handleMessage m))) := by
  refine ⟨hs.linked, fun h => ?_, fun h => ?_, trivial, hs.prompt⟩
  · exact ⟨(hs.armed h).1, List.mem_cons_of_mem _ (hs.armed h).2⟩
  · simp [awaiting, hm, handleMessagePong]

theorem KeepsAlive.handleMessage (hs : KeepsAlive s) (e : ReadEnv) :
    KeepsAlive (handleMessage may e s) := by
  unfold AsyncClient.handleMessage
  dsimp only
  generalize (inputBytes s).drop headerSize = payload
  split_ifs with huser hpong
  · rw [huser]
    exact (handleMessageUser_still (Still.refl _) e).keepsAlive (hs.message rfl)
  · rw [hpong]
    exact hs.pong rfl
  · exact hs.message (decide_eq_false hpong)

theorem KeepsAlive.inputTurn (hs : KeepsAlive s) (e : ReadEnv) :
    KeepsAlive (inputTurn may e s).2 := by
  unfold AsyncClient.inputTurn
  split
  · exact (readBytes_still s []).keepsAlive hs
  · rename_i b bs _
    have hread := (readBytes_still s (b :: bs)).keepsAlive hs
    dsimp only
    generalize readBytes s (b :: bs) = t at hread
    split_ifs
    · exact hread
    · have hload := (loadHeader_still t).keepsAlive hread
      generalize loadHeader t = r at hload
      obtain ⟨fit, u⟩ := r
      cases fit with
      | false =>
        show KeepsAlive (disconnectAndStartReconnectTimer u .messageTooBig)
        exact (disconnect_still (Still.refl u) _ (by decide)).keepsAlive hload
      | true =>
        dsimp only
        split_ifs
        · show KeepsAlive (resetInputEncoded (AsyncClient.handleMessage may e u))
          have hmsg : KeepsAlive (AsyncClient.handleMessage may e u) := hload.handleMessage e
          exact ⟨hmsg.linked, hmsg.armed, hmsg.flag, hmsg.prompt⟩
        · exact hload

theorem KeepsAlive.onStcpInput (hs : KeepsAlive s) (es : List ReadEnv) :
    KeepsAlive (onStcpInput may es s) := by
  induction es generalizing s with
  | nil => exact (readBytes_still s []).keepsAlive hs
  | cons e es ih =>
    have hturn : KeepsAlive (AsyncClient.inputTurn may e s).2 := hs.inputTurn e
    rw [onStcpInput_cons]
    generalize AsyncClient.inputTurn may e s = r at hturn
    obtain ⟨again, t⟩ := r
    cases again with
    | true => exact ih hturn
    | false => exact hturn

/-! ## Runs -/

/-- A connection is made. -/
theorem KeepsAlive.connected (hs : KeepsAlive s) (calls : List Call) (n : ℕ) :
    KeepsAlive (onStcpConnected may true calls { s with stcp := ⟨n, true⟩ }) := by
  refine (callback_still (Still.refl _) calls).keepsAlive ?_
  exact ⟨fun _ => rfl, fun _ => ⟨rfl, List.mem_cons_self⟩, fun _ => rfl, trivial, trivial,
    hs.prompt⟩

/-- The timer expires while there is a connection. -/
theorem KeepsAlive.timeout (hs : KeepsAlive s) (harmed : s.armed .keepAlive = true) :
    KeepsAlive (onKeepAliveTimeout
      { s with armed := Function.update s.armed .keepAlive false }) := by
  obtain ⟨hup, hmade⟩ := hs.armed harmed
  have hflag := hs.flag hmade
  unfold onKeepAliveTimeout
  dsimp only
  split_ifs with hpong
  · have hnone : awaiting s.log = false := by simpa [hpong] using hflag.symm
    have hmem : Event.onConnected ∈ .write s.stcp.connected (messageTypePing, []) ::
        .timerStart .keepAlive :: s.log := by simp [hmade]
    exact ⟨hs.linked, fun _ => ⟨hup, hmem⟩, fun _ => rfl, fun _ => ⟨hup, hnone⟩, trivial, hs.prompt⟩
  · have hwait : awaiting s.log = true := by simpa [hpong] using hflag.symm
    have hoff : Function.update s.armed Timer.keepAlive false .keepAlive = false :=
      Function.update_self _ _ _
    have hcause : KeepsAlive ({ s with armed := Function.update s.armed .keepAlive false }.emit
        (.cause .keepAliveTimeout)) :=
      ⟨hs.linked, fun h => absurd (hoff.symm.trans h) Bool.false_ne_true,
        fun h => hs.flag ((List.mem_cons.1 h).resolve_left nofun), hwait, hs.prompt⟩
    unfold disconnectAndStartReconnectTimer
    dsimp only
    split_ifs
    · exact hcause
    · exact (drop_still _ _).keepsAlive hcause

theorem KeepsAlive.step (hs : KeepsAlive s) (x : Step) : KeepsAlive (step may s x) := by
  unfold AsyncClient.step
  cases x with
  | call c => exact (call_still (Still.refl s) c).keepsAlive hs
  | connected ok calls =>
    dsimp only
    split_ifs
    · cases ok with
      | true =>
        rw [Bool.or_true]
        exact hs.connected calls _
      | false =>
        rw [Bool.or_false]
        have hless : Still s { s with stcp := ⟨s.stcp.connects - 1, s.stcp.connected⟩ } :=
          (Still.refl s).of_eq rfl rfl rfl rfl rfl
        exact (timerStart_still hless).keepsAlive hs
    · exact hs
  | disconnected =>
    dsimp only
    split_ifs with hup
    · show KeepsAlive (disconnectAndStartReconnectTimer
        { s with stcp := { s.stcp with connected := false } } .connectionClosed)
      have hcause := (Still.refl s).emit (.cause .connectionClosed) rfl
      unfold disconnectAndStartReconnectTimer
      dsimp only
      have hcon := hs.linked hup
      split_ifs with hnot
      · simp [Client.emit, hcon] at hnot
      · -- The timer is stopped, since the connection was known to be there.
        have hdrop := (hcause.trans (drop_still _ .connectionClosed)).keepsAlive hs
        exact ⟨nofun, hdrop.armed, hdrop.flag, hdrop.prompt⟩
    · exact hs
  | input es =>
    dsimp only
    split_ifs
    · exact hs.onStcpInput es
    · exact hs
  | timeout timer =>
    cases timer <;> dsimp only <;> split_ifs with harmed
    · exact hs.timeout harmed
    · exact hs
    · have hother : Function.update s.armed .reconnect false .keepAlive = s.armed .keepAlive :=
        Function.update_of_ne (by decide) _ _
      have hoff : Still s { s with armed := Function.update s.armed .reconnect false } :=
        (Still.refl s).of_eq rfl rfl hother rfl rfl
      exact (clientStart_still hoff).keepsAlive hs
    · exact hs
  | called calls =>
    dsimp only
    split_ifs
    · refine Still.keepsAlive ?_ hs
      have hcalled : Still s ({ s with calls := s.calls - 1 }.emit .called) :=
        Still.of_eq ((Still.refl s).emit .called rfl) rfl rfl rfl rfl rfl
      exact onDisconnected_still hcalled calls
    · exact hs

theorem init_keepsAlive (m : Client) (sz k : ℕ) : KeepsAlive (clientInit m sz k) :=
  ⟨nofun, nofun, nofun, trivial⟩

theorem KeepsAlive.run (hs : KeepsAlive s) (steps : List Step) : KeepsAlive (run may steps s) := by
  unfold AsyncClient.run
  induction steps generalizing s with
  | nil => exact hs
  | cons x steps ih => exact ih (hs.step x)

end

/-- Whatever the user's code does: a ping is written only on a connection on which no ping awaits
its pong, the client disconnects with `keep_alive_timeout` only when one does, and `pong_received`
says which, once there has been a connection. -/
theorem async_keep_alive (m : Client) (sz k : ℕ) (may : Rights) (steps : List Step) :
    Always Event.Prompt (run may steps (clientInit m sz k)).log ∧
    (.onConnected ∈ (run may steps (clientInit m sz k)).log →
      (run may steps (clientInit m sz k)).pongReceived =
        !awaiting (run may steps (clientInit m sz k)).log) := by
  have hkeeps : KeepsAlive (run may steps (clientInit m sz k)) := (init_keepsAlive m sz k).run steps
  exact ⟨hkeeps.prompt, hkeeps.flag⟩

end Messi.AsyncClient
