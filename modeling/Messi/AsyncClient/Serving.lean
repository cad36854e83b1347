import Messi.Deliveries
import Messi.AsyncClient.Receiving

/-!
# Serving one connection in the async client

A connection of the async client from the time it is made (`Served`), as for the Linux client. The
user's callbacks may do what they like: a connection that they start is made later. What has been
delivered is what has to be delivered of the bytes that have been received (`Served.outcome`).
-/

namespace Messi.AsyncClient

/-- What the receive loop goes by. -/
def receiver (s : Client) : Receiver :=
  ⟨inputBytes s, decide (s.input.state = .payload), s.input.left⟩

/-- What has been delivered on the last connection. -/
def deliveries : List Event → List Delivery
  | [] => []
  | .onConnected :: _ => []
  | .onMessage payload :: l => deliveries l ++ [.user payload]
  | .handleMessage m :: l => if isPong m then deliveries l ++ [.pong] else deliveries l
  | _ :: l => deliveries l

/-- What neither reads from the connection nor makes a new one. It may end the connection. -/
structure Aside (s t : Client) : Prop extends Kept s t where
  deliveries : deliveries t.log = deliveries s.log

/-- A turn of the loop of `on_stcp_input()`; the result is true if another one follows. -/
def inputTurn (may : Rights) (e : ReadEnv) (s : Client) : Bool × Client :=
  match stcpRead s s.input.left e.data with
  | [] => (false, readBytes s [])
  | b :: bs =>
    let s := readBytes s (b :: bs)
    if 0 < s.input.left then (true, s)
    else
      match loadHeader s with
      | (false, s) => (false, disconnectAndStartReconnectTimer s .messageTooBig)
      | (true, s) =>
        if s.input.left = 0 then (true, resetInputEncoded (handleMessage may e s)) else (true, s)

/-- The messages handled between the two states. -/
def newlyHandled (s t : Client) : List Message := (handled t.log).drop (handled s.log).length

/-- There is memory for every message, and every user message is decoded as `decode` says. -/
def AnswersAs (decode : List UInt8 → Bool) (may : Rights) : List ReadEnv → Client → Prop
  | [], _ => True
  | e :: es, s =>
    (e.new = true ∧ ∀ m ∈ newlyHandled s (inputTurn may e s).2,
      m.1 = messageTypeServerToClientUser → e.decode = decode m.2) ∧
    ((inputTurn may e s).1 = true → AnswersAs decode may es (inputTurn may e s).2)

instance AnswersAs.decidable (decode : List UInt8 → Bool) (may : Rights) :
    ∀ es s, Decidable (AnswersAs decode may es s)
  | [], _ => isTrue trivial
  | e :: es, s =>
    have := AnswersAs.decidable decode may es (inputTurn may e s).2
    inferInstanceAs (Decidable (_ ∧ (_ → _)))

/-- A connection has been made, and nothing has been read from it. -/
structure Fresh (sz : ℕ) (s : Client) : Prop where
  isConnected : s.isConnected = true
  dataSize : s.input.dataSize = sz
  receiver : receiver s = ⟨[], false, headerSize⟩
  received : received s.log = []
  deliveries : deliveries s.log = []

/-- A connection from the time it is made. -/
inductive Served (sz : ℕ) (decode : List UInt8 → Bool) (may : Rights) : Client → Prop
  | connected {s : Client} (h : Fresh sz s) : Served sz decode may s
  | aside {s t : Client} (h : Served sz decode may s) (hs : Aside s t) : Served sz decode may t
  | input {s : Client} {es : List ReadEnv} (h : Served sz decode may s)
    (hans : AnswersAs decode may es s) : Served sz decode may (onStcpInput may es s)

/-- Everything up to the next message has been delivered; and the client knows that there is a
connection, if there is one. -/
structure Serves (sz : ℕ) (decode : List UInt8 → Bool) (s : Client) : Prop where
  linked : s.stcp.connected = true → s.isConnected = true
  dataSize : s.input.dataSize = sz
  delivering : Delivering sz decode (received s.log) (deliveries s.log) (receiver s)

/-- The connection has ended. -/
structure Ended (sz : ℕ) (decode : List UInt8 → Bool) (s : Client) : Prop where
  down : s.stcp.connected = false
  delivered : deliveries s.log = deliver decode (framed sz (received s.log))

section

variable {sz : ℕ} {decode : List UInt8 → Bool} {may : Rights} {s t u : Client} {e : ReadEnv}
  {m : Message} {bs : List UInt8}

/-! ## Aside -/

theorem Aside.refl (s : Client) : Aside s s := ⟨Kept.refl s, rfl⟩

theorem Aside.trans (h : Aside s t) (h' : Aside t u) : Aside s u :=
  ⟨h.toKept.trans h'.toKept, h'.deliveries.trans h.deliveries⟩

theorem disconnect_aside (s : Client) (r : DisconnectReason) :
    Aside s (disconnectAndStartReconnectTimer s r) := by
  refine ⟨disconnect_kept s r, ?_⟩
  unfold disconnectAndStartReconnectTimer
  dsimp only
  split_ifs <;> rfl

theorem clientStart_aside (s : Client) : Aside s (clientStart (s.emit .start)) :=
  ⟨(emit_kept s .start rfl).trans (stcpConnect_kept _), rfl⟩

theorem clientStop_aside (s : Client) : Aside s (clientStop (s.emit .stop)) := by
  have hdown := (emit_kept s .stop rfl).trans (stcpDisconnect_kept (s.emit .stop))
  have htimer := hdown.trans (timerStop_kept (stcpDisconnect (s.emit .stop)) .reconnect)
  refine ⟨htimer.trans (timerStop_kept _ .keepAlive), ?_⟩
  have hlog : (clientStop (s.emit .stop)).log =
      .timerStop .keepAlive :: .timerStop .reconnect :: .disconnect :: .stop :: s.log := rfl
  rw [hlog]
  simp only [AsyncClient.deliveries]

theorem stcpWrite_aside (s : Client) (m : Message) : Aside s (stcpWrite s m) :=
  ⟨emit_kept s (.write s.stcp.connected m) rfl, rfl⟩

theorem calls_aside (may : Rights) (s : Client) : CallsKeep may (Aside s) where
  start _ t h := h.trans (clientStart_aside t)
  stop _ t h := h.trans (clientStop_aside t)
  cause t r h := h.trans (disconnect_aside t r)
  write t m h := h.trans (stcpWrite_aside t m)

theorem callback_aside (may : Rights) (calls : List Call) (s : Client) :
    Aside s (callback may calls s) :=
  (calls_aside may s).callback calls (Aside.refl s)

theorem timerStart_aside (s : Client) (timer : Timer) : Aside s (timerStart s timer) :=
  ⟨timerStart_kept s timer, rfl⟩

/-- The framework delivers input, or a new connection. -/
def Step.receives : Step → Bool
  | .connected ok _ => ok
  | .input _ => true
  | _ => false

/-- Nothing else that the framework delivers concerns the receive loop. -/
theorem step_aside {x : Step} (hx : x.receives = false) (s : Client) : Aside s (step may s x) := by
  have hset : ∀ t : Client, t.input = s.input → t.inputBuf = s.inputBuf → t.log = s.log →
      t.isConnected = s.isConnected → (t.stcp.connected = true → s.stcp.connected = true) →
      Aside s t := fun t hin hbuf hlog hcon hup =>
    ⟨⟨hin, hbuf, fun h => ⟨hup h, hcon⟩, [], hlog, nofun⟩, by rw [hlog]⟩
  unfold step
  cases x with
  | call c => exact (calls_aside may s).call (Aside.refl s) c
  | connected ok calls =>
    obtain rfl : ok = false := hx
    dsimp only
    split_ifs
    · have hanswered := hset { s with stcp := ⟨s.stcp.connects - 1, s.stcp.connected || false⟩ }
        rfl rfl rfl rfl fun h => (Bool.or_false _).symm.trans h
      exact hanswered.trans (timerStart_aside _ .reconnect)
    · exact Aside.refl s
  | disconnected =>
    dsimp only
    split_ifs
    · exact (hset { s with stcp := { s.stcp with connected := false } } rfl rfl rfl rfl
        nofun).trans (disconnect_aside _ _)
    · exact Aside.refl s
  | input es => cases hx
  | timeout timer =>
    dsimp only
    split_ifs
    · have hexpired :=
        hset { s with armed := Function.update s.armed timer false } rfl rfl rfl rfl id
      cases timer with
      | keepAlive =>
        refine hexpired.trans ⟨onKeepAliveTimeout_kept _, ?_⟩
        unfold onKeepAliveTimeout
        split_ifs
        · rfl
        · exact (disconnect_aside { s with armed := Function.update s.armed .keepAlive false }
            _).deliveries
      | reconnect => exact hexpired.trans ⟨stcpConnect_kept _, rfl⟩
    · exact Aside.refl s
  | called calls =>
    dsimp only
    split_ifs
    · have htaken := hset { s with calls := s.calls - 1 } rfl rfl rfl rfl id
      refine htaken.trans ⟨(emit_kept _ .called rfl).trans (onDisconnected_kept calls _), ?_⟩
      exact (callback_aside may calls (({ s with calls := s.calls - 1 }.emit .called).emit
        (.onDisconnected s.disconnectReason))).deliveries
    · exact Aside.refl s

theorem Aside.receiver (h : Aside s t) : receiver t = receiver s := by
  unfold AsyncClient.receiver
  rw [inputBytes_congr h.input h.inputBuf, h.input]

theorem Aside.log_eq (h : Aside s t) : AsyncClient.received t.log = AsyncClient.received s.log ∧
    AsyncClient.handled t.log = AsyncClient.handled s.log := by
  obtain ⟨evs, hlog, hevs⟩ := h.log
  rw [hlog]
  exact received_append hevs

theorem Serves.aside (h : Serves sz decode s) (hs : Aside s t) : Serves sz decode t := by
  refine ⟨fun ht => ?_, hs.input ▸ h.dataSize, ?_⟩
  · obtain ⟨hcon, heq⟩ := hs.connected ht
    exact heq.trans (h.linked hcon)
  · rw [hs.log_eq.1, hs.deliveries, hs.receiver]
    exact h.delivering

theorem Ended.aside (h : Ended sz decode s) (hs : Aside s t) : Ended sz decode t := by
  refine ⟨Bool.eq_false_iff.2 fun ht => ?_, ?_⟩
  · exact absurd (h.down.symm.trans (hs.connected ht).1) nofun
  · rw [hs.log_eq.1, hs.deliveries]
    exact h.delivered

/-! ## One turn of the loop -/

theorem onStcpInput_cons (may : Rights) (e : ReadEnv) (es : List ReadEnv) (s : Client) :
    onStcpInput may (e :: es) s = match inputTurn may e s with
      | (true, t) => onStcpInput may es t
      | (false, t) => t := by
  rw [onStcpInput, inputTurn]
  cases stcpRead s s.input.left e.data with
  | nil => rfl
  | cons b bs =>
    dsimp only
    by_cases hmore : 0 < (readBytes s (b :: bs)).input.left
    · simp only [hmore, if_true]
    simp only [hmore, if_false]
    generalize loadHeader (readBytes s (b :: bs)) = r
    obtain ⟨fit, t⟩ := r
    cases fit with
    | false => rfl
    | true =>
      dsimp only
      by_cases hzero : t.input.left = 0
      · simp only [hzero, if_true]
      · simp only [hzero, if_false]

/-- What handling a message comes to. -/
structure Handles (decode : List UInt8 → Bool) (m : Message) (s t : Client) : Prop where
  input : t.input = s.input
  received : received t.log = received s.log
  handled : handled t.log = handled s.log ++ [m]
  deliveries : deliveries t.log = deliveries s.log ++ deliver decode [m]
  up : t.stcp.connected = true →
    s.stcp.connected = true ∧ t.isConnected = s.isConnected ∧ decodable decode m = true

theorem Handles.aside (h : Handles decode m s t) (ht : Aside t u) : Handles decode m s u := by
  obtain ⟨hr, hh⟩ := ht.log_eq
  refine ⟨ht.input.trans h.input, hr.trans h.received, hh.trans h.handled,
    ht.deliveries.trans h.deliveries, fun hu => ?_⟩
  obtain ⟨hup, heq⟩ := ht.connected hu
  obtain ⟨hs, heq', hdec⟩ := h.up hup
  exact ⟨hs, heq.trans heq', hdec⟩

/-- What is done with a user message that there is memory for. -/
theorem handleMessageUser_eq (hnew : e.new = true) (s : Client) {payload : List UInt8}
    (hp : (inputBytes s).drop headerSize = payload) :
    handleMessageUser may e s =
      if e.decode then callback may e.callback
        ((s.emit (.decode payload)).emit (.onMessage payload))
      else disconnectAndStartReconnectTimer (s.emit (.decode payload)) .messageDecodeError := by
  have hbytes : ∀ e, inputBytes (s.emit e) = inputBytes s := fun _ => rfl
  unfold handleMessageUser
  simp only [hnew, Bool.not_true, Bool.false_eq_true, if_false, hbytes, hp]
  cases e.decode <;> rfl

/-- A user message is decoded and handed to the user, or the connection is ended. -/
theorem handleMessageUser_handles (hnew : e.new = true)
    (hlinked : s.stcp.connected = true → s.isConnected = true) {payload : List UInt8}
    (hp : (inputBytes s).drop headerSize = payload) (hdec : e.decode = decode payload) :
    Handles decode (messageTypeServerToClientUser, payload) s (handleMessageUser may e
      (s.emit (.handleMessage (messageTypeServerToClientUser, payload)))) := by
  rw [handleMessageUser_eq hnew
    (s.emit (.handleMessage (messageTypeServerToClientUser, payload))) hp, hdec]
  have hnot : isPong (messageTypeServerToClientUser, payload) = false := rfl
  cases hok : decode payload with
  | false =>
    rw [if_neg Bool.false_ne_true]
    generalize hw : (s.emit (.handleMessage (messageTypeServerToClientUser, payload))).emit
      (.decode payload) = w
    have haside := disconnect_aside w .messageDecodeError
    obtain ⟨hr, hh⟩ := haside.log_eq
    have hdown := disconnect_down w .messageDecodeError (hw ▸ hlinked)
    subst hw
    refine ⟨haside.input, hr, hh, ?_, fun hup => absurd (hdown.symm.trans hup) nofun⟩
    rw [haside.deliveries]
    simp [AsyncClient.deliveries, hnot, deliver, hok]
  | true =>
    rw [if_pos rfl]
    generalize hw : ((s.emit (.handleMessage (messageTypeServerToClientUser, payload))).emit
      (.decode payload)).emit (.onMessage payload) = w
    have hcalled : Handles decode (messageTypeServerToClientUser, payload) s w := by
      subst hw
      refine ⟨rfl, rfl, rfl, ?_, fun hup => ⟨hup, rfl, ?_⟩⟩
      · simp [AsyncClient.deliveries, hnot, deliver, hok]
      · simp [decodable, hok]
    exact hcalled.aside (callback_aside _ _ _)

theorem handleMessage_handles (hnew : e.new = true)
    (hlinked : s.stcp.connected = true → s.isConnected = true) (hsize : headerSize ≤ s.input.size)
    (hm : m = (receiver s).message)
    (hdec : m.1 = messageTypeServerToClientUser → e.decode = decode m.2) :
    Handles decode m s (handleMessage may e s) := by
  obtain rfl : m = ((inputHeader s).type, (inputBytes s).drop headerSize) := by
    rw [hm, inputHeader_eq hsize]
    rfl
  unfold handleMessage
  dsimp only
  generalize (inputHeader s).type = type at hdec ⊢
  generalize hp : (inputBytes s).drop headerSize = payload at hdec ⊢
  split_ifs with huser hpong
  · subst huser
    exact handleMessageUser_handles hnew hlinked hp (hdec rfl)
  · subst hpong
    exact ⟨rfl, rfl, rfl, rfl, fun hup => ⟨hup, rfl, rfl⟩⟩
  · refine ⟨rfl, rfl, rfl, ?_, fun hup => ⟨hup, rfl, ?_⟩⟩
    · simp [AsyncClient.deliveries, isPong, hpong, deliver, huser]
    · simp [decodable, huser]

theorem receiver_readBytes (s : Client) (bs : List UInt8) :
    receiver (readBytes s bs) = (receiver s).read bs := by
  unfold receiver Receiver.read
  rw [inputBytes_readBytes]
  rfl

theorem receiver_reset (s : Client) : receiver (resetInputEncoded s) = ⟨[], false, headerSize⟩ :=
  rfl

/-- What is done with a header, and with a payload. -/
theorem loadHeader_receiver {fit : Bool} (hsize : headerSize ≤ s.input.size)
    (hd : s.input.dataSize = sz) (h : loadHeader s = (fit, t)) :
    t.stcp = s.stcp ∧ t.isConnected = s.isConnected ∧ t.log = s.log ∧ t.input.dataSize = sz ∧
      t.input.size = s.input.size ∧
      (receiver s).load sz = if fit then some (receiver t) else none := by
  have hspec := loadHeader_spec h
  have hann : (receiver s).announced = (headerGetSize (inputHeader s)).toNat := by
    rw [inputHeader_eq hsize]
    rfl
  unfold Receiver.load
  rw [hann]
  cases fit with
  | false =>
    obtain ⟨hstate, hbig, rfl⟩ := hspec
    have hnot : ¬ (receiver s).payload = true := by simp [receiver, hstate]
    rw [hd] at hbig
    rw [if_neg hnot, if_pos hbig]
    exact ⟨rfl, rfl, rfl, hd, rfl, rfl⟩
  | true =>
    rcases hspec with ⟨hstate, rfl⟩ | ⟨hstate, hfit, rfl⟩
    · have hpay : (receiver t).payload = true := by simp [receiver, hstate]
      rw [if_pos hpay]
      exact ⟨rfl, rfl, rfl, hd, rfl, rfl⟩
    · have hnot : ¬ (receiver s).payload = true := by simp [receiver, hstate]
      rw [hd] at hfit
      rw [if_neg hnot, if_neg (Nat.not_lt.2 hfit)]
      exact ⟨rfl, rfl, rfl, hd, rfl, rfl⟩

theorem Serves.part (h : Serves sz decode s) (hlt : bs.length < s.input.left) :
    Serves sz decode (readBytes s bs) := by
  refine ⟨h.linked, h.dataSize, ?_⟩
  rw [receiver_readBytes]
  exact h.delivering.part hlt

theorem Ended.idle (h : Ended sz decode s) : Ended sz decode (readBytes s []) := by
  refine ⟨h.down, ?_⟩
  show deliveries s.log = deliver decode (framed sz (received s.log ++ []))
  rw [List.append_nil]
  exact h.delivered

/-- Nothing can be read from a connection that has ended. -/
theorem stcpRead_down (h : s.stcp.connected = false) (want : ℕ) (bs : List UInt8) :
    stcpRead s want bs = [] := by
  unfold stcpRead
  rw [h]
  rfl

/-- What is done when all that was left has been read. -/
theorem Serves.full {fit : Bool} (h : Serves sz decode s) (hnew : e.new = true)
    (hlen : bs.length = s.input.left) (hload : loadHeader (readBytes s bs) = (fit, t)) :
    (fit = false → Ended sz decode (disconnectAndStartReconnectTimer t .messageTooBig)) ∧
      (fit = true → t.input.left ≠ 0 → Serves sz decode t) ∧
      (fit = true → t.input.left = 0 → ∃ m, handled (handleMessage may e t).log =
          handled s.log ++ [m] ∧
        ((m.1 = messageTypeServerToClientUser → e.decode = decode m.2) →
          Serves sz decode (resetInputEncoded (handleMessage may e t)) ∨
          Ended sz decode (resetInputEncoded (handleMessage may e t)))) := by
  have hlen' : bs.length = (receiver s).left := hlen
  have hsize : headerSize ≤ (readBytes s bs).input.size := by
    rw [← length_inputBytes, inputBytes_readBytes]
    exact (h.delivering.progress.waits.full hlen').size
  obtain ⟨hstcp, hcon, hlog, hdata, hsz, hfit⟩ := loadHeader_receiver hsize h.dataSize hload
  rw [receiver_readBytes] at hfit
  have hlinked : t.stcp.connected = true → t.isConnected = true := by
    rw [hstcp, hcon]
    exact h.linked
  refine ⟨?_, ?_, ?_⟩
  · rintro rfl
    have hbig := h.delivering.tooBig hlen' hfit
    have haside := disconnect_aside t .messageTooBig
    refine ⟨disconnect_down t _ hlinked, ?_⟩
    rw [haside.log_eq.1, haside.deliveries, hlog]
    exact hbig
  · rintro rfl hpos
    refine ⟨hlinked, hdata, ?_⟩
    rw [hlog]
    exact h.delivering.body hlen' hfit hpos
  · rintro rfl hzero
    refine ⟨(receiver t).message, ?_, fun hdec => ?_⟩
    · have hhan : Handles (fun _ => e.decode) (receiver t).message t (handleMessage may e t) :=
        handleMessage_handles hnew hlinked (hsz ▸ hsize) rfl fun _ => rfl
      rw [hhan.handled, hlog]
      rfl
    · have hhandles : Handles decode (receiver t).message t (handleMessage may e t) :=
        handleMessage_handles hnew hlinked (hsz ▸ hsize) rfl hdec
      have hrec : received (handleMessage may e t).log = received s.log ++ bs := by
        rw [hhandles.received, hlog]
        rfl
      have hdel : deliveries (handleMessage may e t).log =
          deliveries s.log ++ deliver decode [(receiver t).message] := by
        rw [hhandles.deliveries, hlog]
        rfl
      cases hup : (handleMessage may e t).stcp.connected with
      | false =>
        refine Or.inr ⟨hup, ?_⟩
        show deliveries (handleMessage may e t).log =
          deliver decode (framed sz (received (handleMessage may e t).log))
        rw [hrec, hdel]
        exact h.delivering.message hlen' hfit hzero
      | true =>
        obtain ⟨ht, heq, hok⟩ := hhandles.up hup
        refine Or.inl ⟨fun _ => heq.trans (hlinked ht), ?_, ?_⟩
        · show (handleMessage may e t).input.dataSize = sz
          rw [hhandles.input, hdata]
        · rw [receiver_reset]
          show Delivering sz decode (received (handleMessage may e t).log)
            (deliveries (handleMessage may e t).log) _
          rw [hrec, hdel]
          exact h.delivering.next hlen' hfit hzero hok

theorem newlyHandled_of_append (h : handled t.log = handled s.log ++ [m]) :
    newlyHandled s t = [m] := by
  unfold newlyHandled
  rw [h]
  exact List.drop_left

theorem inputTurn_serves (h : Serves sz decode s) (hnew : e.new = true)
    (hans : ∀ m ∈ newlyHandled s (inputTurn may e s).2,
      m.1 = messageTypeServerToClientUser → e.decode = decode m.2) :
    Serves sz decode (inputTurn may e s).2 ∨ Ended sz decode (inputTurn may e s).2 := by
  have hleft : 0 < s.input.left := Awaits.pos h.delivering.progress.waits
  unfold inputTurn at hans ⊢
  cases hread : stcpRead s s.input.left e.data with
  | nil => exact Or.inl (h.part hleft)
  | cons b bs =>
    rw [hread] at hans
    have hle : (b :: bs).length ≤ s.input.left := by
      rw [← hread]
      unfold stcpRead
      split_ifs
      · exact List.length_take_le _ _
      · exact Nat.zero_le _
    have hmore : (readBytes s (b :: bs)).input.left = s.input.left - (b :: bs).length := rfl
    dsimp only at hans ⊢
    rw [hmore] at hans ⊢
    split_ifs at hans ⊢ with hrest
    · exact Or.inl (h.part (Nat.lt_of_sub_pos hrest))
    · cases hload : loadHeader (readBytes s (b :: bs)) with
      | mk fit t =>
        rw [hload] at hans
        obtain ⟨hbig, hbody, hmsg⟩ := h.full hnew (by omega) hload
        cases fit with
        | false => exact Or.inr (hbig rfl)
        | true =>
          dsimp only at hans ⊢
          split_ifs at hans ⊢ with hzero
          · obtain ⟨m, hhan, hgoes⟩ := hmsg rfl hzero
            have hnew :=
              newlyHandled_of_append (t := resetInputEncoded (handleMessage may e t)) hhan
            exact hgoes (hans m (hnew ▸ List.mem_cons_self))
          · exact Or.inl (hbody rfl hzero)

/-! ## A whole connection -/

theorem onStcpInput_serves {es : List ReadEnv} (h : Serves sz decode s ∨ Ended sz decode s)
    (hans : AnswersAs decode may es s) :
    Serves sz decode (onStcpInput may es s) ∨ Ended sz decode (onStcpInput may es s) := by
  induction es generalizing s with
  | nil =>
    unfold onStcpInput
    rcases h with h | h
    · exact Or.inl (h.part (Awaits.pos h.delivering.progress.waits))
    · exact Or.inr h.idle
  | cons e es ih =>
    obtain ⟨⟨hnew, hm⟩, hrest⟩ := hans
    rw [onStcpInput_cons]
    have hturn :
        Serves sz decode (inputTurn may e s).2 ∨ Ended sz decode (inputTurn may e s).2 := by
      rcases h with h | h
      · exact inputTurn_serves h hnew hm
      · unfold inputTurn
        rw [stcpRead_down h.down]
        exact Or.inr h.idle
    generalize inputTurn may e s = r at hturn hrest
    obtain ⟨again, t⟩ := r
    cases again with
    | true => exact ih hturn (hrest rfl)
    | false => exact hturn

theorem Served.serves (h : Served sz decode may s) : Serves sz decode s ∨ Ended sz decode s := by
  induction h with
  | connected h =>
    refine Or.inl ⟨fun _ => h.isConnected, h.dataSize, ?_⟩
    rw [h.received, h.deliveries, h.receiver]
    exact Delivering.fresh
  | aside h hs ih => exact ih.imp (fun ih => ih.aside hs) fun ih => ih.aside hs
  | input h hans ih => exact onStcpInput_serves ih hans

/-- What has been delivered is what has to be delivered of what has been received. -/
theorem Served.outcome (h : Served sz decode may s) :
    deliveries s.log = deliver decode (framed sz (received s.log)) := by
  rcases h.serves with h | h
  · exact h.delivering.delivered
  · exact h.delivered

end

end Messi.AsyncClient
