import Messi.Deliveries
import Messi.LinuxClient.Receiving

/-!
# Serving one connection

A connection of the Linux client from the time it is made (`Served`): its input is read in any
number of calls of `process_socket()`, and in between anything may happen but a new connection. What
has been delivered is what has to be delivered of the bytes that have been received
(`Served.outcome`).
-/

namespace Messi.LinuxClient

variable {α : Type*}

/-- What the receive loop goes by. -/
def receiver (s : Client) : Receiver :=
  ⟨inputBytes s, decide (s.input.state = .payload), s.input.left⟩

/-- What has been delivered on the last connection. -/
def deliveries : List Event → List Delivery
  | [] => []
  | .onConnected .. :: _ => []
  | .onMessage payload :: l => deliveries l ++ [.user payload]
  | .handleMessage m :: l => if isPong m then deliveries l ++ [.pong] else deliveries l
  | _ :: l => deliveries l

/-- What neither reads from the connection nor makes a new one. It may end the connection. -/
structure Aside (s t : Client) : Prop extends Kept s t where
  pending : t.pendingDisconnect = true → s.pendingDisconnect = true ∨ t.serverFd = -1

/-- There is memory for a message, and the message callback makes no new connection. -/
structure Plain (cb : Callbacks α) (e : ReadEnv α) : Prop where
  new : e.new = true
  callback : ∀ s, Aside s (cb.onMessage e.callback s)

/-- A turn of the loop of `process_socket()`; the result is true if another one follows. -/
def socketTurn (cb : Callbacks α) (e : ReadEnv α) (s : Client) : Bool × Client :=
  match sysRead s.serverFd s.input.left e.res with
  | .eagain => (false, readBytes s [])
  | .error => (false, pendingDisconnect (readBytes s []) .connectionClosed)
  | .data [] => (false, pendingDisconnect (readBytes s []) .connectionClosed)
  | .data (b :: bs) =>
    let s := readBytes s (b :: bs)
    if 0 < s.input.left then (true, s)
    else
      match loadHeader s with
      | (false, s) => (false, pendingDisconnect s .messageTooBig)
      | (true, s) =>
        if s.input.left = 0 then (true, resetInputEncoded (handleMessage cb e s)) else (true, s)

/-- The messages handled between the two states. -/
def newlyHandled (s t : Client) : List Message := (handled t.log).drop (handled s.log).length

/-- Every user message is decoded as `decode` says. -/
def AnswersAs (decode : List UInt8 → Bool) (cb : Callbacks α) : List (ReadEnv α) → Client → Prop
  | [], _ => True
  | e :: es, s =>
    (∀ m ∈ newlyHandled s (socketTurn cb e s).2,
      m.1 = messageTypeServerToClientUser → e.decode = decode m.2) ∧
    ((socketTurn cb e s).1 = true → AnswersAs decode cb es (socketTurn cb e s).2)

instance AnswersAs.decidable (decode : List UInt8 → Bool) (cb : Callbacks α) :
    ∀ es s, Decidable (AnswersAs decode cb es s)
  | [], _ => isTrue trivial
  | e :: es, s =>
    have := AnswersAs.decidable decode cb es (socketTurn cb e s).2
    inferInstanceAs (Decidable (_ ∧ (_ → _)))

/-- A connection has been made, and nothing has been read from it. -/
structure Fresh (sz : ℕ) (s : Client) : Prop where
  serverFd : s.serverFd ≠ -1
  pending : s.pendingDisconnect = false
  dataSize : s.input.dataSize = sz
  receiver : receiver s = ⟨[], false, headerSize⟩
  received : received s.log = []
  deliveries : deliveries s.log = []

/-- A connection from the time it is made. -/
inductive Served (sz : ℕ) (decode : List UInt8 → Bool) (cb : Callbacks α) : Client → Prop
  | connected {s : Client} (h : Fresh sz s) : Served sz decode cb s
  | aside {s t : Client} (h : Served sz decode cb s) (hs : Aside s t) : Served sz decode cb t
  | input {s : Client} {es : List (ReadEnv α)} (h : Served sz decode cb s)
    (hplain : ∀ e ∈ es, Plain cb e) (hans : AnswersAs decode cb es s) :
    Served sz decode cb (processSocket cb es s)

/-- The connection is up, and everything up to the next message has been delivered. -/
structure Serves (sz : ℕ) (decode : List UInt8 → Bool) (s : Client) : Prop where
  serverFd : s.serverFd ≠ -1
  pending : s.pendingDisconnect = false
  dataSize : s.input.dataSize = sz
  delivering : Delivering sz decode (received s.log) (deliveries s.log) (receiver s)

/-- The connection has ended. -/
structure Ended (sz : ℕ) (decode : List UInt8 → Bool) (s : Client) : Prop where
  serverFd : s.serverFd = -1
  delivered : deliveries s.log = deliver decode (framed sz (received s.log))

section

variable {sz : ℕ} {decode : List UInt8 → Bool} {cb : Callbacks α} {s t u : Client} {e : ReadEnv α}
  {m : Message} {bs : List UInt8} {l evs : List Event}

/-! ## Aside -/

theorem deliveries_append (h : ∀ e ∈ evs, e.ofInput = false) :
    deliveries (evs ++ l) = deliveries l := by
  induction evs with
  | nil => rfl
  | cons e evs ih =>
    have hrest := ih fun e' he' => h e' (List.mem_cons_of_mem e he')
    have he := h e List.mem_cons_self
    cases e <;> first | exact hrest | cases he

theorem Aside.refl (s : Client) : Aside s s := ⟨Kept.refl s, Or.inl⟩

theorem Aside.trans (h : Aside s t) (h' : Aside t u) : Aside s u := by
  refine ⟨h.toKept.trans h'.toKept, fun hu => ?_⟩
  rcases h'.pending hu with ht | hdown
  · refine (h.pending ht).imp_right fun htdown => ?_
    rcases h'.serverFd with heq | hdown
    · rw [heq, htdown]
    · exact hdown
  · exact Or.inr hdown

theorem Aside.emit (s : Client) {e : Event} (he : e.ofInput = false) : Aside s (s.emit e) :=
  ⟨(Kept.refl s).emit e he, Or.inl⟩

theorem pendingDisconnect_aside (s : Client) (r : DisconnectReason) :
    Aside s (pendingDisconnect s r) := by
  refine ⟨pendingDisconnect_kept s r, fun _ => ?_⟩
  by_cases hpend : s.pendingDisconnect = true
  · exact Or.inl hpend
  · unfold pendingDisconnect
    rw [if_neg hpend]
    exact Or.inr rfl

theorem pendingDisconnect_serverFd (s : Client) (r : DisconnectReason)
    (h : s.pendingDisconnect = false ∨ s.serverFd = -1) :
    (pendingDisconnect s r).serverFd = -1 := by
  unfold pendingDisconnect
  split_ifs with hpend
  · exact h.resolve_left fun hno => by rw [hno] at hpend; cases hpend
  · rfl

theorem clientSend_aside (s : Client) (enc : Encoder) (res : WriteRes) :
    Aside s (clientSend s enc res) := by
  have hcall : Aside s (s.emit (.send s.serverFd s.pendingDisconnect)) := Aside.emit s rfl
  unfold clientSend
  generalize s.emit (.send s.serverFd s.pendingDisconnect) = t at hcall
  dsimp only
  split
  · exact hcall.trans (pendingDisconnect_aside _ _)
  · rename_i payload _
    cases hwrite : writeMessage t (messageTypeClientToServerUser, payload) res with
    | mk ok u =>
      obtain ⟨n, -, rfl, -⟩ := writeMessage_spec hwrite
      have hwritten := hcall.trans (Aside.emit t
        (e := .write t.serverFd (messageTypeClientToServerUser, payload) n) rfl)
      cases ok with
      | true => exact hwritten
      | false => exact hwritten.trans (pendingDisconnect_aside _ _)

theorem clientStop_aside (s : Client) : Aside s (clientStop s) := by
  refine ⟨clientStop_kept s, fun h => ?_⟩
  have hfalse : (clientStop s).pendingDisconnect = false := by
    unfold clientStop
    dsimp only
    split_ifs <;> rfl
  rw [hfalse] at h
  cases h

theorem processKeepAliveTimer_aside (s : Client) (e : KeepAliveEnv) :
    Aside s (processKeepAliveTimer s e) := by
  unfold processKeepAliveTimer
  dsimp only
  generalize sysReadTimer s.keepAliveTimerFd e.read = read
  have hread : Aside s (s.emit (.readTimer s.keepAliveTimerFd read)) := Aside.emit s rfl
  generalize s.emit (.readTimer s.keepAliveTimerFd read) = t at hread
  have htime : Aside s (startKeepAliveTimer t e.settime) :=
    hread.trans (Aside.emit t (e := .settime t.keepAliveTimerFd e.settime) rfl)
  split_ifs
  · exact hread.trans (pendingDisconnect_aside _ _)
  · exact hread.trans (pendingDisconnect_aside _ _)
  · generalize startKeepAliveTimer t e.settime = u at htime
    cases hwrite : writeMessage u (messageTypePing, []) e.write with
    | mk ok w =>
      obtain ⟨n, -, rfl, -⟩ := writeMessage_spec hwrite
      have hwritten := htime.trans (Aside.emit u
        (e := .write u.serverFd (messageTypePing, []) n) rfl)
      cases ok with
      | true => exact ⟨⟨hwritten.input, hwritten.inputBuf, hwritten.serverFd, hwritten.log⟩,
          hwritten.pending⟩
      | false => exact hwritten.trans (pendingDisconnect_aside _ _)
  · exact htime.trans (pendingDisconnect_aside _ _)

theorem Aside.receiver (h : Aside s t) : receiver t = receiver s := by
  unfold LinuxClient.receiver
  rw [inputBytes_congr h.input h.inputBuf, h.input]

theorem Aside.log_eq (h : Aside s t) : LinuxClient.received t.log = LinuxClient.received s.log ∧
    LinuxClient.handled t.log = LinuxClient.handled s.log ∧
    deliveries t.log = deliveries s.log := by
  obtain ⟨evs, hlog, hevs⟩ := h.log
  obtain ⟨hr, hh⟩ := received_append (l := s.log) hevs
  rw [hlog]
  exact ⟨hr, hh, deliveries_append hevs⟩

theorem Ended.aside (h : Ended sz decode s) (hs : Aside s t) : Ended sz decode t := by
  obtain ⟨hr, -, hd⟩ := hs.log_eq
  refine ⟨?_, ?_⟩
  · rcases hs.serverFd with heq | hdown
    · rw [heq, h.serverFd]
    · exact hdown
  · rw [hr, hd]
    exact h.delivered

/-- Of a connection that ends everything has been delivered that has to be. -/
theorem Serves.aside (h : Serves sz decode s) (hs : Aside s t) :
    Serves sz decode t ∨ Ended sz decode t := by
  obtain ⟨hr, -, hd⟩ := hs.log_eq
  rcases hs.serverFd with heq | hdown
  · have hup : t.serverFd ≠ -1 := heq ▸ h.serverFd
    refine Or.inl ⟨hup, ?_, hs.input ▸ h.dataSize, ?_⟩
    · refine Bool.eq_false_iff.2 fun ht => ?_
      rcases hs.pending ht with hpend | hdown
      · rw [h.pending] at hpend
        cases hpend
      · exact hup hdown
    · rw [hr, hd, hs.receiver]
      exact h.delivering
  · refine Or.inr ⟨hdown, ?_⟩
    rw [hr, hd]
    exact h.delivering.delivered

/-! ## One turn of the loop -/

theorem processSocket_cons (cb : Callbacks α) (e : ReadEnv α) (es : List (ReadEnv α)) (s : Client) :
    processSocket cb (e :: es) s = match socketTurn cb e s with
      | (true, t) => processSocket cb es t
      | (false, t) => t := by
  rw [processSocket, socketTurn]
  rcases sysRead s.serverFd s.input.left e.res with (_ | ⟨b, bs⟩) | _ | _
  · rfl
  · dsimp only
    by_cases hmore : 0 < (readBytes s (b :: bs)).input.left
    · simp only [hmore, if_true]
    simp only [hmore, if_false]
    generalize loadHeader (readBytes s (b :: bs)) = r
    obtain ⟨fit, t⟩ := r
    cases fit with
    | false => rfl
    | true =>
      dsimp only
      by_cases hzero : t.input.left = 0
      · simp only [hzero, if_true]
      · simp only [hzero, if_false]
  · rfl
  · rfl

/-- What handling a message comes to. -/
structure Handles (decode : List UInt8 → Bool) (m : Message) (s t : Client) : Prop where
  input : t.input = s.input
  received : received t.log = received s.log
  handled : handled t.log = handled s.log ++ [m]
  deliveries : deliveries t.log = deliveries s.log ++ deliver decode [m]
  up : t.serverFd ≠ -1 →
    t.serverFd = s.serverFd ∧ t.pendingDisconnect = false ∧ decodable decode m = true

theorem Handles.aside (h : Handles decode m s t) (ht : Aside t u) : Handles decode m s u := by
  obtain ⟨hr, hh, hd⟩ := ht.log_eq
  refine ⟨ht.input.trans h.input, hr.trans h.received, hh.trans h.handled, hd.trans h.deliveries,
    fun hup => ?_⟩
  have heq : u.serverFd = t.serverFd := ht.toKept.serverFd.resolve_right hup
  obtain ⟨hfd, hpend, hdec⟩ := h.up (heq ▸ hup)
  refine ⟨heq.trans hfd, Bool.eq_false_iff.2 fun hu => ?_, hdec⟩
  rcases ht.pending hu with htrue | hdown
  · rw [hpend] at htrue
    cases htrue
  · exact hup hdown

/-- What is done with a user message that there is memory for. -/
theorem handleMessageUser_eq (hnew : e.new = true) (s : Client) {payload : List UInt8}
    (hp : (inputBytes s).drop headerSize = payload) :
    handleMessageUser cb e s =
      if e.decode then
        (cb.onMessage e.callback ((s.emit (.decode payload)).emit (.onMessage payload))).emit
          (.returned .onMessage (cb.onMessage e.callback
            ((s.emit (.decode payload)).emit (.onMessage payload))).pendingDisconnect)
      else pendingDisconnect (s.emit (.decode payload)) .messageDecodeError := by
  have hbytes : ∀ e, inputBytes (s.emit e) = inputBytes s := fun _ => rfl
  unfold handleMessageUser
  simp only [hnew, Bool.not_true, Bool.false_eq_true, if_false, hbytes, hp]
  cases e.decode <;> rfl

/-- A user message is decoded and handed to the user, or the connection is ended. -/
theorem handleMessageUser_handles (hplain : Plain cb e) (hpend : s.pendingDisconnect = false)
    {payload : List UInt8} (hp : (inputBytes s).drop headerSize = payload)
    (hdec : e.decode = decode payload) :
    Handles decode (messageTypeServerToClientUser, payload) s
      (handleMessageUser cb e
        (s.emit (.handleMessage (messageTypeServerToClientUser, payload)))) := by
  rw [handleMessageUser_eq hplain.new
    (s.emit (.handleMessage (messageTypeServerToClientUser, payload))) hp, hdec]
  have hnot : isPong (messageTypeServerToClientUser, payload) = false := rfl
  cases hok : decode payload with
  | false =>
    rw [if_neg Bool.false_ne_true]
    generalize hw : (s.emit (.handleMessage (messageTypeServerToClientUser, payload))).emit
      (.decode payload) = w
    have haside := pendingDisconnect_aside w .messageDecodeError
    obtain ⟨hr, hh, hd⟩ := haside.log_eq
    have hdown := pendingDisconnect_serverFd w .messageDecodeError (Or.inl (hw ▸ hpend))
    subst hw
    refine ⟨haside.input, hr, hh, ?_, fun hup => absurd hdown hup⟩
    rw [hd]
    simp [LinuxClient.deliveries, hnot, deliver, hok]
  | true =>
    rw [if_pos rfl]
    generalize hw : ((s.emit (.handleMessage (messageTypeServerToClientUser, payload))).emit
      (.decode payload)).emit (.onMessage payload) = w
    have hcalled : Handles decode (messageTypeServerToClientUser, payload) s w := by
      subst hw
      refine ⟨rfl, rfl, rfl, ?_, fun _ => ⟨rfl, hpend, ?_⟩⟩
      · simp [LinuxClient.deliveries, hnot, deliver, hok]
      · simp [decodable, hok]
    exact hcalled.aside ((hplain.callback w).trans (Aside.emit _ rfl))

theorem handleMessage_handles (hplain : Plain cb e) (hpend : s.pendingDisconnect = false)
    (hsize : headerSize ≤ s.input.size) (hm : m = (receiver s).message)
    (hdec : m.1 = messageTypeServerToClientUser → e.decode = decode m.2) :
    Handles decode m s (handleMessage cb e s) := by
  obtain rfl : m = ((inputHeader s).type, (inputBytes s).drop headerSize) := by
    rw [hm, inputHeader_eq hsize]
    rfl
  unfold handleMessage
  dsimp only
  generalize (inputHeader s).type = type at hdec ⊢
  generalize hp : (inputBytes s).drop headerSize = payload at hdec ⊢
  split_ifs with huser hpong
  · subst huser
    exact handleMessageUser_handles hplain hpend hp (hdec rfl)
  · subst hpong
    exact ⟨rfl, rfl, rfl, rfl, fun _ => ⟨rfl, hpend, rfl⟩⟩
  · refine ⟨rfl, rfl, rfl, ?_, fun _ => ⟨rfl, hpend, ?_⟩⟩
    · simp [LinuxClient.deliveries, isPong, hpong, deliver, huser]
    · simp [decodable, huser]

theorem receiver_readBytes (s : Client) (bs : List UInt8) :
    receiver (readBytes s bs) = (receiver s).read bs := by
  unfold receiver Receiver.read
  rw [inputBytes_readBytes]
  rfl

theorem receiver_reset (s : Client) : receiver (resetInputEncoded s) = ⟨[], false, headerSize⟩ :=
  rfl

/-- What is done with a header, and with a payload. -/
theorem loadHeader_receiver {fit : Bool} (hsize : headerSize ≤ s.input.size)
    (hd : s.input.dataSize = sz) (h : loadHeader s = (fit, t)) :
    match fit with
    | false => (receiver s).load sz = none ∧ t.serverFd = s.serverFd ∧
        t.pendingDisconnect = s.pendingDisconnect ∧ t.log = .tooBig :: s.log
    | true => (receiver s).load sz = some (receiver t) ∧ t.serverFd = s.serverFd ∧
        t.pendingDisconnect = s.pendingDisconnect ∧ t.log = s.log ∧ t.input.dataSize = sz ∧
        t.input.size = s.input.size := by
  have hspec := loadHeader_spec h
  have hann : (receiver s).announced = (headerGetSize (inputHeader s)).toNat := by
    rw [inputHeader_eq hsize]
    rfl
  unfold Receiver.load
  rw [hann]
  cases fit with
  | false =>
    obtain ⟨hstate, hbig, rfl⟩ := hspec
    have hnot : ¬ (receiver s).payload = true := by simp [receiver, hstate]
    rw [hd] at hbig
    rw [if_neg hnot, if_pos hbig]
    exact ⟨rfl, rfl, rfl, rfl⟩
  | true =>
    rcases hspec with ⟨hstate, rfl⟩ | ⟨hstate, hfit, rfl⟩
    · have hpay : (receiver t).payload = true := by simp [receiver, hstate]
      rw [if_pos hpay]
      exact ⟨rfl, rfl, rfl, rfl, hd, rfl⟩
    · have hnot : ¬ (receiver s).payload = true := by simp [receiver, hstate]
      rw [hd] at hfit
      rw [if_neg hnot, if_neg (Nat.not_lt.2 hfit)]
      exact ⟨rfl, rfl, rfl, rfl, hd, rfl⟩

theorem Serves.part (h : Serves sz decode s) (hlt : bs.length < s.input.left) :
    Serves sz decode (readBytes s bs) := by
  refine ⟨h.serverFd, h.pending, h.dataSize, ?_⟩
  rw [receiver_readBytes]
  exact h.delivering.part hlt

/-- Nothing can be read from a connection that has ended. -/
theorem Ended.closed (h : Ended sz decode s) (r : DisconnectReason) :
    Ended sz decode (pendingDisconnect (readBytes s []) r) := by
  have hread : Ended sz decode (readBytes s []) := by
    refine ⟨h.serverFd, ?_⟩
    show deliveries s.log = deliver decode (framed sz (received s.log ++ []))
    rw [List.append_nil]
    exact h.delivered
  exact hread.aside (pendingDisconnect_aside _ _)

theorem socketTurn_ended (h : Ended sz decode s) (e : ReadEnv α) :
    socketTurn cb e s = (false, pendingDisconnect (readBytes s []) .connectionClosed) ∧
      Ended sz decode (socketTurn cb e s).2 := by
  have hturn : socketTurn cb e s =
      (false, pendingDisconnect (readBytes s []) .connectionClosed) := by
    unfold socketTurn sysRead
    rw [if_pos h.serverFd]
  rw [hturn]
  exact ⟨rfl, h.closed _⟩

/-- The connection is closed. -/
theorem Serves.close (h : Serves sz decode s) (r : DisconnectReason) :
    Ended sz decode (pendingDisconnect (readBytes s []) r) := by
  have hread : Serves sz decode (readBytes s []) := h.part (Awaits.pos h.delivering.progress.waits)
  have hdown := pendingDisconnect_serverFd (readBytes s []) r (Or.inl h.pending)
  exact (hread.aside (pendingDisconnect_aside _ r)).resolve_left fun hup => hup.serverFd hdown

/-- What is done when all that was left has been read. -/
theorem Serves.full {fit : Bool} (h : Serves sz decode s) (hplain : Plain cb e)
    (hlen : bs.length = s.input.left) (hload : loadHeader (readBytes s bs) = (fit, t)) :
    (fit = false → Ended sz decode (pendingDisconnect t .messageTooBig)) ∧
      (fit = true → t.input.left ≠ 0 → Serves sz decode t) ∧
      (fit = true → t.input.left = 0 → ∃ m, handled (handleMessage cb e t).log =
          handled s.log ++ [m] ∧
        ((m.1 = messageTypeServerToClientUser → e.decode = decode m.2) →
          Serves sz decode (resetInputEncoded (handleMessage cb e t)) ∨
          Ended sz decode (resetInputEncoded (handleMessage cb e t)))) := by
  have hlen' : bs.length = (receiver s).left := hlen
  have hsize : headerSize ≤ (readBytes s bs).input.size := by
    rw [← length_inputBytes, inputBytes_readBytes]
    exact (h.delivering.progress.waits.full hlen').size
  have hspec := loadHeader_receiver hsize h.dataSize hload
  rw [receiver_readBytes] at hspec
  refine ⟨?_, ?_, ?_⟩
  · rintro rfl
    obtain ⟨hno, hfd, hpend, hlog⟩ := hspec
    have hbig := h.delivering.tooBig hlen' hno
    have haside := pendingDisconnect_aside t .messageTooBig
    obtain ⟨hr, -, hd⟩ := haside.log_eq
    refine ⟨pendingDisconnect_serverFd t _ (Or.inl (hpend.trans h.pending)), ?_⟩
    rw [hr, hd, hlog]
    exact hbig
  · rintro rfl hpos
    obtain ⟨hyes, hfd, hpend, hlog, hdata, -⟩ := hspec
    refine ⟨hfd ▸ h.serverFd, hpend.trans h.pending, hdata, ?_⟩
    rw [hlog]
    exact h.delivering.body hlen' hyes hpos
  · rintro rfl hzero
    obtain ⟨hyes, hfd, hpend, hlog, hdata, hsz⟩ := hspec
    have hpend' : t.pendingDisconnect = false := hpend.trans h.pending
    refine ⟨(receiver t).message, ?_, fun hdec => ?_⟩
    · have hhan : Handles (fun _ => e.decode) (receiver t).message t (handleMessage cb e t) :=
        handleMessage_handles hplain hpend' (hsz ▸ hsize) rfl fun _ => rfl
      rw [hhan.handled, hlog]
      rfl
    · have hhandles := handleMessage_handles hplain hpend' (hsz ▸ hsize) rfl hdec
      have hrec : received (handleMessage cb e t).log = received s.log ++ bs := by
        rw [hhandles.received, hlog]
        rfl
      have hdel : deliveries (handleMessage cb e t).log =
          deliveries s.log ++ deliver decode [(receiver t).message] := by
        rw [hhandles.deliveries, hlog]
        rfl
      by_cases hup : (handleMessage cb e t).serverFd = -1
      · refine Or.inr ⟨hup, ?_⟩
        show deliveries (handleMessage cb e t).log =
          deliver decode (framed sz (received (handleMessage cb e t).log))
        rw [hrec, hdel]
        exact h.delivering.message hlen' hyes hzero
      · obtain ⟨-, hnot, hok⟩ := hhandles.up hup
        refine Or.inl ⟨hup, hnot, ?_, ?_⟩
        · show (handleMessage cb e t).input.dataSize = sz
          rw [hhandles.input, hdata]
        · rw [receiver_reset]
          show Delivering sz decode (received (handleMessage cb e t).log)
            (deliveries (handleMessage cb e t).log) _
          rw [hrec, hdel]
          exact h.delivering.next hlen' hyes hzero hok

theorem newlyHandled_of_append (h : handled t.log = handled s.log ++ [m]) :
    newlyHandled s t = [m] := by
  unfold newlyHandled
  rw [h]
  exact List.drop_left

theorem socketTurn_serves (h : Serves sz decode s) (hplain : Plain cb e)
    (hans : ∀ m ∈ newlyHandled s (socketTurn cb e s).2,
      m.1 = messageTypeServerToClientUser → e.decode = decode m.2) :
    Serves sz decode (socketTurn cb e s).2 ∨ Ended sz decode (socketTurn cb e s).2 := by
  have hleft : 0 < s.input.left := Awaits.pos h.delivering.progress.waits
  unfold socketTurn at hans ⊢
  rcases hread : sysRead s.serverFd s.input.left e.res with (_ | ⟨b, bs⟩) | _ | _
  · exact Or.inr (h.close _)
  · rw [hread] at hans
    have hle : (b :: bs).length ≤ s.input.left := (sysRead_data hread).2
    have hmore : (readBytes s (b :: bs)).input.left = s.input.left - (b :: bs).length := rfl
    dsimp only at hans ⊢
    rw [hmore] at hans ⊢
    split_ifs at hans ⊢ with hrest
    · exact Or.inl (h.part (Nat.lt_of_sub_pos hrest))
    · cases hload : loadHeader (readBytes s (b :: bs)) with
      | mk fit t =>
        rw [hload] at hans
        obtain ⟨hbig, hbody, hmsg⟩ := h.full hplain (by omega) hload
        cases fit with
        | false => exact Or.inr (hbig rfl)
        | true =>
          dsimp only at hans ⊢
          split_ifs at hans ⊢ with hzero
          · obtain ⟨m, hhan, hgoes⟩ := hmsg rfl hzero
            have hnew := newlyHandled_of_append (t := resetInputEncoded (handleMessage cb e t)) hhan
            exact hgoes (hans m (hnew ▸ List.mem_cons_self))
          · exact Or.inl (hbody rfl hzero)
  · exact Or.inl (h.part hleft)
  · exact Or.inr (h.close _)

/-! ## A whole connection -/

theorem processSocket_serves {es : List (ReadEnv α)} (h : Serves sz decode s ∨ Ended sz decode s)
    (hplain : ∀ e ∈ es, Plain cb e) (hans : AnswersAs decode cb es s) :
    Serves sz decode (processSocket cb es s) ∨ Ended sz decode (processSocket cb es s) := by
  induction es generalizing s with
  | nil =>
    unfold processSocket
    rcases h with h | h
    · split
      · exact Or.inl (h.part (Awaits.pos h.delivering.progress.waits))
      · exact Or.inr (h.close _)
    · have hread : sysRead s.serverFd s.input.left .eagain = .error := if_pos h.serverFd
      rw [hread]
      exact Or.inr (h.closed _)
  | cons e es ih =>
    obtain ⟨hm, hrest⟩ := hans
    rw [processSocket_cons]
    have hturn :
        Serves sz decode (socketTurn cb e s).2 ∨ Ended sz decode (socketTurn cb e s).2 := by
      rcases h with h | h
      · exact socketTurn_serves h (hplain e List.mem_cons_self) hm
      · exact Or.inr (socketTurn_ended h e).2
    generalize socketTurn cb e s = r at hturn hrest
    obtain ⟨again, t⟩ := r
    cases again with
    | true => exact ih hturn (fun e he => hplain e (List.mem_cons_of_mem _ he)) (hrest rfl)
    | false => exact hturn

theorem Served.serves (h : Served sz decode cb s) : Serves sz decode s ∨ Ended sz decode s := by
  induction h with
  | connected h =>
    refine Or.inl ⟨h.serverFd, h.pending, h.dataSize, ?_⟩
    rw [h.received, h.deliveries, h.receiver]
    exact Delivering.fresh
  | aside h hs ih =>
    rcases ih with ih | ih
    · exact ih.aside hs
    · exact Or.inr (ih.aside hs)
  | input h hplain hans ih => exact processSocket_serves ih hplain hans

/-- What has been delivered is what has to be delivered of what has been received. -/
theorem Served.outcome (h : Served sz decode cb s) :
    deliveries s.log = deliver decode (framed sz (received s.log)) := by
  rcases h.serves with h | h
  · exact h.delivering.delivered
  · exact h.delivered

end

end Messi.LinuxClient
