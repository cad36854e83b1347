import Messi.Receiver
import Messi.LinuxServer.Accepting
import Messi.LinuxServer.Receiving

/-!
# Serving one connection

A connection of the Linux server from the time it is accepted (`Served`): its input is read in any
number of calls of `process_client_socket_in()`, and in between anything may happen that does not
read from it or end it. Either its frames up to now have been handled and it waits for the rest of
the next one, or one has been rejected and the connection has been ended (`Served.outcome`).
-/

namespace Messi.LinuxServer

variable {α : Type*}

/-- What the receive loop of a client goes by. -/
def receiver (s : Server) (c : Slot) : Receiver :=
  ⟨inputBytes s c, decide ((s.input c).state = .payload), (s.input c).left⟩

/-- What is read from a client is as it was, and so is its socket. -/
structure Stays (c : Slot) (s t : Server) : Prop where
  input : SameInput c s t
  clientFd : t.clientFd c = s.clientFd c

/-- What `handle_message()` will say of a message. -/
def accepts (e : ReadEnv α) (m : Message) : Bool :=
  if m.1 = messageTypeClientToServerUser then e.new && e.decode
  else m.1 = messageTypePing && e.settime

/-- No `write()` fails. -/
def WriteEnv.Ok (e : WriteEnv) : Prop := ∀ w ∈ e.writes, w ≠ .error ∧ w ≠ .accepted 0

/-- The stream neither ends nor fails, the pong can be written, and the message callback leaves the
client alone. -/
structure Plain (cb : Callbacks α) (c : Slot) (e : ReadEnv α) : Prop where
  res : e.res ≠ .error ∧ e.res ≠ .data []
  pong : e.pong.Ok
  callback : ∀ s, ∃ t, cb.onMessage e.callback s = .done () t ∧ Stays c s t

/-- The messages handled between the two states. -/
def newlyHandled (c : Slot) (s t : Server) : List Message :=
  (handled c t.log).drop (handled c s.log).length

/-- Every message is answered as `ok` says. -/
def AnswersAs (ok : Message → Bool) (cb : Callbacks α) (c : Slot) : List (ReadEnv α) → Server → Prop
  | [], _ => True
  | e :: es, s =>
    match socketInTurn cb c e s with
    | .done again t =>
      (∀ m ∈ newlyHandled c s t, accepts e m = ok m) ∧ (again = true → AnswersAs ok cb c es t)
    | .inside _ => True

/-- The connection has been accepted, and nothing has been read from it. -/
structure Fresh (sz : ℕ) (s : Server) (c : Slot) : Prop where
  slot : FreshSlot s c (s.clientFd c)
  clientFd : s.clientFd c ≠ -1
  dataSize : (s.input c).dataSize = sz
  received : received c s.log = []
  handled : handled c s.log = []

/-- A connection from the time it is accepted. -/
inductive Served (sz : ℕ) (ok : Message → Bool) (cb : Callbacks α) (c : Slot) : Server → Prop
  | accepted {s : Server} (h : Fresh sz s c) : Served sz ok cb c s
  | other {s t : Server} (h : Served sz ok cb c s) (hs : Stays c s t) : Served sz ok cb c t
  | input {s t : Server} {es : List (ReadEnv α)} (h : Served sz ok cb c s)
    (hup : s.clientFd c ≠ -1) (hplain : ∀ e ∈ es, Plain cb c e) (hans : AnswersAs ok cb c es s)
    (ht : processClientSocketIn cb c es s = .done () t) : Served sz ok cb c t

/-- The connection is up, and its frames up to now have been handled and accepted. -/
structure Serves (sz : ℕ) (ok : Message → Bool) (s : Server) (c : Slot) : Prop where
  clientFd : s.clientFd c ≠ -1
  dataSize : (s.input c).dataSize = sz
  progress : (receiver s c).Progress sz ok (received c s.log) (handled c s.log)

/-- A frame has been rejected, and the connection ended. -/
structure Ended (sz : ℕ) (ok : Message → Bool) (s : Server) (c : Slot) : Prop where
  clientFd : s.clientFd c = -1
  rejects : Rejects sz ok (received c s.log)

section

variable {sz : ℕ} {ok : Message → Bool} {cb : Callbacks α} {s t u : Server} {c : Slot} {e : Event}
  {bs : List UInt8} {v : View}

/-! ## What leaves a client alone -/

theorem Stays.refl (c : Slot) (s : Server) : Stays c s s := ⟨SameInput.refl c s, rfl⟩

theorem Stays.trans (h : Stays c s t) (h' : Stays c t u) : Stays c s u :=
  ⟨h.input.trans h'.input, h'.clientFd.trans h.clientFd⟩

theorem Stays.emit (s : Server) (he : e.input? ≠ some c) : Stays c s (s.emit e) :=
  ⟨SameInput.emit s he, rfl⟩

theorem Stays.receiver (h : Stays c s t) : receiver t c = receiver s c := by
  unfold LinuxServer.receiver
  rw [h.input.input, h.input.bytes]

theorem Serves.stays (h : Serves sz ok s c) (hs : Stays c s t) : Serves sz ok t c := by
  refine ⟨hs.clientFd ▸ h.clientFd, hs.input.input ▸ h.dataSize, ?_⟩
  rw [hs.receiver, hs.input.received, hs.input.handled]
  exact h.progress

theorem Ended.stays (h : Ended sz ok s c) (hs : Stays c s t) : Ended sz ok t c :=
  ⟨hs.clientFd.trans h.clientFd, hs.input.received ▸ h.rejects⟩

theorem clientOutputAppend_stays (s : Server) (c : Slot) (buf : List UInt8) (e : WriteEnv) :
    Stays c s (clientOutputAppend s c buf e) := by
  have hout : ∀ t o, Stays c t (t.setOutput c o) := fun t o => ⟨SameInput.setOutput t c c o, rfl⟩
  have hmalloc : Stays c s (s.emit (.malloc c (some (s.output c).brk))) :=
    Stays.emit s (by simp [Event.input?])
  unfold clientOutputAppend
  dsimp only
  split_ifs
  · exact Stays.emit s (by simp [Event.input?])
  · split
    · exact (hmalloc.trans (hout _ _)).trans (Stays.emit _ (by simp [Event.input?]))
    · split
      · exact (hmalloc.trans (Stays.emit _ (by simp [Event.input?]))).trans (hout _ _)
      · exact hmalloc.trans (hout _ _)

/-- A message is written, or queued. -/
theorem clientWrite_stays {w : WriteEnv} (buf : List UInt8) (hup : s.clientFd c ≠ -1)
    (hok : w.Ok) : Stays c s (clientWrite s c buf w) := by
  have hwrite : ∀ (s : Server) bs, Stays c s (s.emit (.write c (s.clientFd c) bs)) := fun s bs =>
    Stays.emit s (by simp [Event.input?])
  have hloop : ∀ (ws : List WriteRes), (∀ x ∈ ws, x ≠ .error ∧ x ≠ .accepted 0) →
      ∀ (offset size : ℕ) (s : Server), s.clientFd c ≠ -1 →
        Stays c s (writeLoop c buf w ws offset size s) := by
    intro ws
    induction ws with
    | nil =>
      intro _ offset size s hup
      unfold writeLoop sysWrite
      rw [if_neg hup]
      split_ifs
      · exact (hwrite s []).trans (clientOutputAppend_stays _ _ _ _)
      · exact Stays.refl c s
    | cons x ws ih =>
      intro hws offset size s hup
      obtain ⟨herr, hzero⟩ := hws x List.mem_cons_self
      unfold writeLoop sysWrite
      rw [if_neg hup]
      split_ifs with hsize
      · cases x with
        | accepted n =>
          have hpos : 0 < min n size := by
            have hn : n ≠ 0 := fun h => hzero (h ▸ rfl)
            omega
          dsimp only
          split_ifs
          · exact hwrite s _
          · refine (hwrite s _).trans (ih (fun y hy => hws y (List.mem_cons_of_mem _ hy)) _ _ _ ?_)
            exact hup
        | eagain => exact (hwrite s []).trans (clientOutputAppend_stays _ _ _ _)
        | error => exact absurd rfl herr
      · exact Stays.refl c s
  unfold clientWrite
  split_ifs
  · exact clientOutputAppend_stays s c buf w
  · exact hloop w.writes hok 0 buf.length s hup

/-! ## Ending a connection -/

theorem freeItems_stays (c d : Slot) (n : ℕ) (p : Option ℕ) (s : Server) :
    Stays c s (freeItems d n p s) := by
  induction n generalizing p s with
  | zero => exact Stays.emit s (by simp [Event.input?])
  | succ n ih =>
    cases p with
    | none => exact Stays.refl c s
    | some i => exact ((Stays.emit s (by simp [Event.input?])).trans
        (Stays.emit _ (by simp [Event.input?]))).trans (ih _ _)

theorem clientPendingDisconnect_received (s : Server) (c : Slot) :
    (clientPendingDisconnect s c).clientFd c = -1 ∧
      received c (clientPendingDisconnect s c).log = received c s.log ∧
      handled c (clientPendingDisconnect s c).log = handled c s.log := by
  unfold clientPendingDisconnect
  split_ifs with hfd
  · exact ⟨hfd, rfl, rfl⟩
  · have hdown : ((closeFd s (s.clientFd c)).setClientFd c (-1)).clientFd c = -1 :=
      Function.update_self _ _ _
    have hclose : SameInput c s ((closeFd s (s.clientFd c)).setClientFd c (-1)) :=
      ⟨rfl, rfl, rfl, rfl, rfl⟩
    dsimp only
    generalize (closeFd s (s.clientFd c)).setClientFd c (-1) = t at hdown hclose
    have hfree : Stays c t (freeClientOutput t c) := by
      have hout : Stays c t (t.setOutput c { t.output c with headP := none }) :=
        ⟨SameInput.setOutput _ _ _ _, rfl⟩
      exact hout.trans (freeItems_stays c c _ _ _)
    have hsame := hclose.trans hfree.input
    exact ⟨hfree.clientFd.trans hdown, hsame.received, hsame.handled⟩

theorem Ended.of_rejects (hr : Rejects sz ok (received c s.log)) :
    Ended sz ok (clientPendingDisconnect s c) c := by
  obtain ⟨hfd, hrec, -⟩ := clientPendingDisconnect_received s c
  exact ⟨hfd, hrec ▸ hr⟩

/-! ## One turn of the loop -/

theorem receiver_readBytes (s : Server) (c : Slot) (bs : List UInt8) :
    receiver (readBytes s c bs) c = (receiver s c).read bs := by
  unfold receiver Receiver.read
  rw [inputBytes_readBytes, readBytes_input]

theorem receiver_reset (s : Server) (c : Slot) :
    receiver (clientResetInput s c) c = ⟨[], false, headerSize⟩ := by
  have hin : (clientResetInput s c).input c =
      { s.input c with state := .header, size := 0, left := headerSize } :=
        Function.update_self _ _ _
  unfold receiver inputBytes
  rw [hin]
  rfl

theorem received_readBytes (s : Server) (c : Slot) (bs : List UInt8) :
    received c (readBytes s c bs).log = received c s.log ++ bs ∧
      handled c (readBytes s c bs).log = handled c s.log := by
  refine ⟨?_, rfl⟩
  show received c (.read c _ _ _ bs :: s.log) = _
  simp [received]

/-- The header at the start of the buffer. -/
theorem inputHeader_eq (hsize : headerSize ≤ (s.input c).size) :
    inputHeader s c = Header.ofBytes (inputBytes s c) := by
  unfold inputHeader
  rw [← ByteMemory.take_slice s.inputBufs _ hsize]
  exact ofBytes_take _

/-- Only what is left, and the state, is set. -/
structure Loaded (c : Slot) (s t : Server) : Prop where
  dataSize : (t.input c).dataSize = (s.input c).dataSize
  size : (t.input c).size = (s.input c).size
  clientFd : t.clientFd = s.clientFd
  log : t.log = s.log

theorem Loaded.setInput {i : Input} (hd : i.dataSize = (s.input c).dataSize)
    (hs : i.size = (s.input c).size) : Loaded c s (s.setInput c i) := by
  have hin : (s.setInput c i).input c = i := Function.update_self _ _ _
  refine ⟨?_, ?_, rfl, rfl⟩
  · rw [hin, hd]
  · rw [hin, hs]

/-- What is done with a header, and with a payload. -/
theorem loadHeader_spec {fit : Bool} (hsize : headerSize ≤ (s.input c).size)
    (hd : (s.input c).dataSize = sz) (h : loadHeader s c = (fit, t)) :
    Loaded c s t ∧ (fit = false → (receiver s c).load sz = none) ∧
      (fit = true → (receiver s c).load sz = some (receiver t c)) := by
  have hin : ∀ i, (s.setInput c i).input c = i := fun i => Function.update_self _ _ _
  obtain ⟨n, hn⟩ : ∃ n, n = (headerGetSize (inputHeader s c)).toNat := ⟨_, rfl⟩
  have hann : (receiver s c).announced = n := by
    rw [hn, inputHeader_eq hsize]
    rfl
  unfold loadHeader at h
  unfold Receiver.load
  rw [← hn] at h
  rw [hann]
  dsimp only at h
  rw [hin] at h
  split_ifs at h with hstate hbig
  · cases h
    rw [hd] at hbig
    have hnot : ¬ (receiver s c).payload = true := by simp [receiver, hstate]
    refine ⟨Loaded.setInput rfl rfl, fun _ => ?_, nofun⟩
    rw [if_neg hnot, if_pos hbig]
  · cases h
    rw [hd] at hbig
    have hnot : ¬ (receiver s c).payload = true := by simp [receiver, hstate]
    have hset : (s.setInput c { s.input c with left := n }).setInput c
          { s.input c with left := n, state := .payload } =
        s.setInput c { s.input c with left := n, state := .payload } := by
      unfold Server.setInput
      rw [Function.update_idem]
    rw [hset]
    refine ⟨Loaded.setInput rfl rfl, nofun, fun _ => ?_⟩
    rw [if_neg hnot, if_neg hbig]
    unfold receiver inputBytes
    rw [hin]
    rfl
  · cases h
    have hpay : (receiver s c).payload = true := by
      cases hst : (s.input c).state with
      | header => exact absurd hst hstate
      | payload => simp [receiver, hst]
    exact ⟨⟨rfl, rfl, rfl, rfl⟩, nofun, fun _ => if_pos hpay⟩

/-- `handle_message()` records the message, and leaves the client alone. -/
theorem handleMessage_spec {e : ReadEnv α} (hplain : Plain cb c e) (hup : s.clientFd c ≠ -1)
    (hsize : headerSize ≤ (s.input c).size) :
    ∃ t, handleMessage cb c e s = .done (accepts e (receiver s c).message) t ∧
      Stays c (s.emit (.handleMessage c (receiver s c).message)) t := by
  have hm :
      (receiver s c).message = ((inputHeader s c).type, (inputBytes s c).drop headerSize) := by
    rw [inputHeader_eq hsize]
    rfl
  rw [hm]
  unfold handleMessage accepts
  dsimp only
  have hup' : (s.emit (.handleMessage c ((inputHeader s c).type,
    (inputBytes s c).drop headerSize))).clientFd c ≠ -1 := hup
  generalize s.emit (.handleMessage c ((inputHeader s c).type,
    (inputBytes s c).drop headerSize)) = w at hup'
  split_ifs with huser hping
  · unfold handleMessageUser
    have hset : ∀ (t : Server) p, Stays c t (t.setCurrentClientP p) := fun t p =>
      ⟨⟨rfl, rfl, rfl, rfl, rfl⟩, rfl⟩
    obtain ⟨t, ht, hstays⟩ := hplain.callback (w.setCurrentClientP (some c))
    cases e.new with
    | false => exact ⟨w, rfl, Stays.refl c w⟩
    | true =>
      cases e.decode with
      | false => exact ⟨w, rfl, Stays.refl c w⟩
      | true =>
        refine ⟨t.setCurrentClientP none, ?_, ((hset w _).trans hstays).trans (hset t _)⟩
        simp [ht]
  · unfold handleMessagePing clientStartKeepAliveTimer
    have htimer : Stays c w (w.emit (.settime (w.keepAliveTimerFd c) e.settime)) :=
      Stays.emit w (by simp [Event.input?])
    have hup'' : (w.emit (.settime (w.keepAliveTimerFd c) e.settime)).clientFd c ≠ -1 := hup'
    simp only [hping, decide_true, Bool.true_and]
    generalize w.emit (.settime (w.keepAliveTimerFd c) e.settime) = x at htimer hup''
    cases e.settime with
    | false => exact ⟨x, rfl, htimer⟩
    | true =>
      refine ⟨_, rfl, (htimer.trans (Stays.emit x ?_)).trans
        (clientWrite_stays _ hup'' hplain.pong)⟩
      simp [Event.input?]
  · exact ⟨w, by simp [hping], Stays.refl c w⟩

theorem newlyHandled_of_append {m : Message} (h : handled c t.log = handled c s.log ++ [m]) :
    newlyHandled c s t = [m] := by
  unfold newlyHandled
  rw [h]
  exact List.drop_left

theorem readBytes_dataSize (s : Server) (c : Slot) (bs : List UInt8) :
    ((readBytes s c bs).input c).dataSize = (s.input c).dataSize := by
  rw [readBytes_input]

/-- A part of what is left has been read. -/
theorem Serves.part (h : Serves sz ok s c) (hlt : bs.length < (s.input c).left) :
    Serves sz ok (readBytes s c bs) c := by
  obtain ⟨hrec, hhan⟩ := received_readBytes s c bs
  refine ⟨h.clientFd, (readBytes_dataSize s c bs).trans h.dataSize, ?_⟩
  rw [hrec, hhan, receiver_readBytes]
  exact h.progress.part hlt

/-- What is done when all that was left has been read. -/
theorem Serves.full {e : ReadEnv α} {fit : Bool} (h : Serves sz ok s c) (hplain : Plain cb c e)
    (hlen : bs.length = (s.input c).left) (hload : loadHeader (readBytes s c bs) c = (fit, t)) :
    (fit = false → Ended sz ok (clientPendingDisconnect t c) c) ∧
      (fit = true → (t.input c).left ≠ 0 → Serves sz ok t c) ∧
      (fit = true → (t.input c).left = 0 → ∃ m u, handleMessage cb c e t = .done (accepts e m) u ∧
        handled c u.log = handled c s.log ++ [m] ∧
        (ok m = true → Serves sz ok (clientResetInput u c) c) ∧
        (ok m = false → Ended sz ok (clientPendingDisconnect u c) c)) := by
  obtain ⟨hrec, hhan⟩ := received_readBytes s c bs
  have hlen' : bs.length = (receiver s c).left := hlen
  have hfull := h.progress.waits.full hlen'
  have hsize : headerSize ≤ ((readBytes s c bs).input c).size := by
    rw [readBytes_input, show (s.input c).size = (inputBytes s c).length from
      (ByteMemory.length_slice _ _ _).symm, ← List.length_append]
    exact hfull.size
  have hdata := (readBytes_dataSize s c bs).trans h.dataSize
  obtain ⟨hloaded, hno, hyes⟩ := loadHeader_spec hsize hdata hload
  rw [receiver_readBytes] at hno hyes
  have hup : t.clientFd c ≠ -1 := by
    rw [hloaded.clientFd]
    exact h.clientFd
  have htdata := hloaded.dataSize.trans hdata
  have htrec : received c t.log = received c s.log ++ bs := by rw [hloaded.log, hrec]
  have hthan : handled c t.log = handled c s.log := by rw [hloaded.log, hhan]
  refine ⟨fun hf => Ended.of_rejects ?_, fun hf hpos => ⟨hup, htdata, ?_⟩, fun hf hzero => ?_⟩
  · rw [htrec]
    exact Or.inr (h.progress.reject hlen' (hno hf))
  · rw [htrec, hthan]
    exact h.progress.body hlen' (hyes hf) hpos
  · obtain ⟨u, hu, hstays⟩ := handleMessage_spec hplain hup (hloaded.size ▸ hsize)
    have hurec : received c u.log = received c s.log ++ bs := hstays.input.received.trans htrec
    have huhan : handled c u.log = handled c s.log ++ [(receiver t c).message] := by
      rw [hstays.input.handled]
      show handled c (.handleMessage c (receiver t c).message :: t.log) = _
      simp [handled, hthan]
    refine ⟨(receiver t c).message, u, hu, huhan, fun hok => ?_, fun hbad => ?_⟩
    · have hreset : ((clientResetInput u c).input c).dataSize = (u.input c).dataSize := by
        rw [show (clientResetInput u c).input c = { u.input c with
          state := .header, size := 0, left := headerSize } from Function.update_self _ _ _]
      refine ⟨?_, ?_, ?_⟩
      · show u.clientFd c ≠ -1
        rw [hstays.clientFd]
        exact hup
      · rw [hreset, hstays.input.input]
        exact htdata
      · rw [receiver_reset]
        show Receiver.Progress sz ok (received c u.log) (handled c u.log) _
        rw [hurec, huhan]
        exact h.progress.next hlen' (hyes hf) hzero hok
    · refine Ended.of_rejects ?_
      rw [hurec]
      exact h.progress.refuse hlen' (hyes hf) hzero hbad

/-- What a turn comes to: the loop goes on, or has nothing to read, or the connection is ended. -/
theorem socketInTurn_spec {e : ReadEnv α} (h : Serves sz ok s c) (hplain : Plain cb c e) :
    ∃ again t, socketInTurn cb c e s = .done again t ∧
      ((∀ m ∈ newlyHandled c s t, accepts e m = ok m) →
        Serves sz ok t c ∨ again = false ∧ Ended sz ok t c) := by
  have hleft : 0 < (s.input c).left := Awaits.pos h.progress.waits
  unfold socketInTurn sysRead
  rw [if_neg h.clientFd]
  cases hres : e.res with
  | error => exact absurd hres hplain.res.1
  | eagain => exact ⟨false, readBytes s c [], rfl, fun _ => Or.inl (h.part hleft)⟩
  | data as =>
    have hlen : (as.take (s.input c).left).length ≤ (s.input c).left := List.length_take_le _ _
    have hne : as.take (s.input c).left ≠ [] := by
      rw [Ne, List.take_eq_nil_iff, not_or]
      exact ⟨hleft.ne', fun has => hplain.res.2 (has ▸ hres)⟩
    obtain ⟨b, bs, hbs⟩ := List.exists_cons_of_ne_nil hne
    rw [hbs] at hlen
    dsimp only
    rw [hbs]
    dsimp only
    have hmore :
        ((readBytes s c (b :: bs)).input c).left = (s.input c).left - (b :: bs).length := by
      rw [readBytes_input]
    rw [hmore]
    split_ifs with hrest
    · exact ⟨true, _, rfl, fun _ => Or.inl (h.part (by omega))⟩
    · cases hload : loadHeader (readBytes s c (b :: bs)) c with
      | mk fit t =>
        obtain ⟨hbig, hbody, hmsg⟩ := h.full hplain (by omega) hload
        cases fit with
        | false => exact ⟨false, _, rfl, fun _ => Or.inr ⟨rfl, hbig rfl⟩⟩
        | true =>
          dsimp only
          split_ifs with hzero
          · obtain ⟨m, u, hu, hhan, haccept, hrefuse⟩ := hmsg rfl hzero
            rw [hu]
            cases hres : accepts e m with
            | true =>
              have hnew := newlyHandled_of_append (t := clientResetInput u c) hhan
              refine ⟨true, clientResetInput u c, rfl, fun hans => Or.inl (haccept ?_)⟩
              rw [← hans m (by simp [hnew]), hres]
            | false =>
              have hnew := newlyHandled_of_append
                (t := (clientPendingDisconnect u c).emit (.handleFailed c))
                ((clientPendingDisconnect_received u c).2.2.trans hhan)
              refine ⟨false, _, rfl, fun hans => Or.inr ⟨rfl, ?_⟩⟩
              have hended := hrefuse (by rw [← hans m (by simp [hnew]), hres])
              exact ⟨hended.clientFd, hended.rejects⟩
          · exact ⟨true, t, rfl, fun _ => Or.inl (hbody rfl hzero)⟩

/-! ## A whole connection -/

theorem processClientSocketIn_spec {es : List (ReadEnv α)} (h : Serves sz ok s c)
    (hplain : ∀ e ∈ es, Plain cb c e) (hans : AnswersAs ok cb c es s)
    (ht : processClientSocketIn cb c es s = .done () t) :
    Serves sz ok t c ∨ Ended sz ok t c := by
  induction es generalizing s with
  | nil =>
    obtain rfl : readBytes s c [] = t := (Exec.done.inj ht).2
    exact Or.inl (h.part (Awaits.pos h.progress.waits))
  | cons e es ih =>
    obtain ⟨again, u, hu, hspec⟩ := socketInTurn_spec h (hplain e List.mem_cons_self)
    rw [processClientSocketIn_cons, hu] at ht
    unfold AnswersAs at hans
    rw [hu] at hans
    obtain ⟨hm, hrest⟩ := hans
    have hplain' : ∀ e ∈ es, Plain cb c e := fun e he => hplain e (List.mem_cons_of_mem _ he)
    cases again with
    | true =>
      rcases hspec hm with hserves | hended
      · exact ih hserves hplain' (hrest rfl) ht
      · exact absurd hended.1 Bool.noConfusion
    | false =>
      obtain rfl : u = t := (Exec.done.inj ht).2
      exact (hspec hm).imp_right And.right

theorem Fresh.serves (h : Fresh sz s c) : Serves sz ok s c := by
  have hrecv : receiver s c = ⟨[], false, headerSize⟩ := by
    unfold receiver inputBytes
    rw [h.slot.state, h.slot.size, h.slot.left]
    rfl
  refine ⟨h.clientFd, h.dataSize, ?_⟩
  rw [hrecv, h.received, h.handled]
  exact Receiver.progress_fresh

/-- The frames of the connection have been handled, or one has been rejected and the connection has
been ended. -/
theorem Served.outcome (h : Served sz ok cb c s) : Serves sz ok s c ∨ Ended sz ok s c := by
  induction h with
  | accepted h => exact Or.inl h.serves
  | other h hs ih => exact ih.imp (fun h => h.stays hs) fun h => h.stays hs
  | input h hup hplain hans ht ih =>
    rcases ih with hserves | hended
    · exact processClientSocketIn_spec hserves hplain hans ht
    · exact absurd hended.clientFd hup

/-- The last event of an accepted client is its own. -/
theorem acceptClient_connected {e : AcceptEnv α} (ha : acceptClient e s = (some c, t)) :
    ∃ l, t.log = .onClientConnected c :: l := by
  unfold acceptClient at ha
  dsimp only at ha
  split_ifs at ha
  · cases ha
  · cases ha
  · cases ha
  · generalize allocClient (s.emit (.opened (sysOpen (openFds s.log) e.accept))) = r at ha
    obtain ⟨d, u⟩ := r
    cases d with
    | none => cases ha
    | some d =>
      dsimp only at ha
      generalize clientInit u d (sysOpen (openFds s.log) e.accept) e = r at ha
      obtain ⟨done, w⟩ := r
      cases done with
      | false => cases ha
      | true =>
        cases ha
        exact ⟨w.log, rfl⟩

/-- A client that the listener has accepted is a fresh one. -/
theorem acceptClient_fresh (e : AcceptEnv α) (h : Good sz s v)
    (ha : acceptClient e s = (some c, t)) : Fresh sz t c := by
  have hgood := acceptClient_good e h
  rw [ha] at hgood
  obtain ⟨fl, hfree, hjust, hg⟩ := hgood
  have hmem : c ∈ c :: v.connected := List.mem_cons_self
  obtain ⟨l, hl⟩ := acceptClient_connected ha
  refine ⟨hjust.fresh, hg.slots.connectedFd c hmem, (hg.buffers c (hg.mem_range (Or.inl hmem))).2,
    ?_, ?_⟩
  · simp [hl, received]
  · simp [hl, handled]

end

end Messi.LinuxServer
