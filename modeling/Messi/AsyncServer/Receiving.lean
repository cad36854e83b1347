import Messi.Base.Trace
import Messi.Receiver
import Messi.AsyncServer.Model

/-!
# Receiving in the async server

What the loop of `on_stcp_client_input()` makes of a connection's bytes. A turn of the loop is a
read, and what is done about it. It goes on from one message to the next (`Progress`) until a frame
is rejected: then the loop ends, but neither the input is reset nor the connection closed.
-/

namespace Messi.AsyncServer

open Framing ByteMemory Trace

/-- The slot whose stream an event is about. -/
def Event.input? : Event → Option Slot
  | .onClientConnected c | .read c .. | .handleMessage c _ | .newFailed c | .decode c .. => some c
  | _ => none

/-- What the receive loop of a slot goes by. -/
def receiver (s : Server) (c : Slot) : Receiver :=
  ⟨inputBytes s c, decide ((s.input c).state = .payload), (s.input c).left⟩

/-- What `handle_message()` will say of a message. -/
def accepts (e : ReadEnv) (m : Message) : Bool :=
  if m.1 = messageTypeClientToServerUser then e.new && e.decode else m.1 = messageTypePing

/-- The states agree on the input of a slot. -/
structure SameInput (c : Slot) (s t : Server) : Prop where
  input : t.input c = s.input c
  bytes : inputBytes t c = inputBytes s c
  received : received c t.log = received c s.log
  handled : handled c t.log = handled c s.log
  refused : refused c t.log = refused c s.log

/-- No input has been worked on. -/
structure Kept (s t : Server) : Prop where
  input : t.input = s.input
  inputBufs : t.inputBufs = s.inputBufs
  clientsMax : t.clientsMax = s.clientsMax
  connected : t.connected = s.connected
  log : ∃ evs, t.log = evs ++ s.log ∧ ∀ e ∈ evs, e.input? = none

/-- The event is part of what is done about a read of the slot. -/
def Event.follows (c : Slot) : Event → Bool
  | .onClientConnected _ | .read .. => false
  | .handleMessage d _ | .newFailed d | .decode d .. => d = c
  | _ => true

/-- A message of the slot has been handled, with this result. -/
structure Handles (c : Slot) (m : Message) (res : Bool) (s t : Server) : Prop where
  input : t.input = s.input
  inputBufs : t.inputBufs = s.inputBufs
  clientsMax : t.clientsMax = s.clientsMax
  connected : t.connected = s.connected
  log : ∃ evs, t.log = evs ++ s.log ∧ ∀ e ∈ evs, e.follows c = true
  received : received c t.log = received c s.log
  handled : handled c t.log = handled c s.log ++ [m]
  refused : refused c t.log = (refused c s.log || !res)

/-- A turn of the loop: the result is true if the loop goes on. -/
def inputTurn (c : Slot) (e : ReadEnv) (s : Server) : Bool × Server :=
  match stcpRead s c (s.input c).left e.data with
  | [] => (false, readBytes s c [])
  | b :: bs =>
    let s := readBytes s c (b :: bs)
    if 0 < (s.input c).left then (true, s)
    else
      match loadHeader s c with
      | (false, s) => (false, s)
      | (true, s) =>
        if (s.input c).left = 0 then
          match handleMessage c e s with
          | (true, s) => (true, clientResetInput s c)
          | (false, s) => (false, s)
        else (true, s)

section

variable {sz : ℕ} {s t u : Server} {c d : Slot} {e : Event} {l evs : List Event} {bs : List UInt8}

/-- The loop is a turn, and then the loop again if the turn says so. -/
theorem onStcpClientInput_cons (c : Slot) (e : ReadEnv) (es : List ReadEnv) (s : Server) :
    onStcpClientInput c (e :: es) s = match inputTurn c e s with
      | (true, t) => onStcpClientInput c es t
      | (false, t) => t := by
  rw [onStcpClientInput, inputTurn]
  cases stcpRead s c (s.input c).left e.data with
  | nil => rfl
  | cons b bs =>
    dsimp only
    by_cases hmore : 0 < ((readBytes s c (b :: bs)).input c).left
    · simp only [hmore, if_true]
    simp only [hmore, if_false]
    generalize loadHeader (readBytes s c (b :: bs)) c = r
    obtain ⟨fit, t⟩ := r
    cases fit with
    | false => rfl
    | true =>
      dsimp only
      by_cases hzero : (t.input c).left = 0
      · simp only [hzero, if_true]
        generalize handleMessage c e t = r
        obtain ⟨res, u⟩ := r
        cases res <;> rfl
      · simp only [hzero, if_false]

/-! ## The log -/

theorem log_cons (he : e.input? ≠ some c) : received c (e :: l) = received c l ∧
    handled c (e :: l) = handled c l ∧ refused c (e :: l) = refused c l := by
  cases e <;> simp_all [Event.input?, received, handled, refused]

theorem log_append (h : ∀ e ∈ evs, e.input? ≠ some c) : received c (evs ++ l) = received c l ∧
    handled c (evs ++ l) = handled c l ∧ refused c (evs ++ l) = refused c l := by
  induction evs with
  | nil => exact ⟨rfl, rfl, rfl⟩
  | cons e evs ih =>
    obtain ⟨hr, hh, hf⟩ := ih fun e' he' => h e' (List.mem_cons_of_mem e he')
    obtain ⟨hr', hh', hf'⟩ := log_cons (l := evs ++ l) (h e List.mem_cons_self)
    exact ⟨hr'.trans hr, hh'.trans hh, hf'.trans hf⟩

theorem Kept.refl (s : Server) : Kept s s := ⟨rfl, rfl, rfl, rfl, [], rfl, nofun⟩

theorem Kept.trans (h : Kept s t) (h' : Kept t u) : Kept s u := by
  obtain ⟨evs, hlog, hevs⟩ := h.log
  obtain ⟨evs', hlog', hevs'⟩ := h'.log
  refine ⟨h'.input.trans h.input, h'.inputBufs.trans h.inputBufs, h'.clientsMax.trans h.clientsMax,
    h'.connected.trans h.connected, evs' ++ evs, ?_, ?_⟩
  · rw [hlog', hlog, List.append_assoc]
  · intro e he
    exact (List.mem_append.1 he).elim (hevs' e) (hevs e)

theorem Kept.emit (h : Kept s t) (e : Event) (he : e.input? = none) : Kept s (t.emit e) := by
  refine h.trans ⟨rfl, rfl, rfl, rfl, [e], rfl, ?_⟩
  simpa using he

theorem inputBytes_congr (hin : t.input c = s.input c) (hbuf : t.inputBufs = s.inputBufs) :
    inputBytes t c = inputBytes s c := by
  unfold inputBytes
  rw [hin, hbuf]

theorem Kept.same (h : Kept s t) (c : Slot) : SameInput c s t := by
  obtain ⟨evs, hlog, hevs⟩ := h.log
  have hin := congrFun h.input c
  obtain ⟨hr, hh, hf⟩ := log_append (c := c) (l := s.log) fun e he => by
    rw [hevs e he]
    nofun
  exact ⟨hin, inputBytes_congr hin h.inputBufs, hlog ▸ hr, hlog ▸ hh, hlog ▸ hf⟩

theorem SameInput.trans (h : SameInput c s t) (h' : SameInput c t u) : SameInput c s u :=
  ⟨h'.input.trans h.input, h'.bytes.trans h.bytes, h'.received.trans h.received,
    h'.handled.trans h.handled, h'.refused.trans h.refused⟩

theorem SameInput.receiver (h : SameInput c s t) : receiver t c = receiver s c := by
  unfold AsyncServer.receiver
  rw [h.input, h.bytes]

theorem SameInput.setInput (s : Server) (i : Input) (hd : d ≠ c) :
    SameInput d s (s.setInput c i) := by
  have hin : (s.setInput c i).input d = s.input d := Function.update_of_ne hd _ _
  exact ⟨hin, inputBytes_congr hin rfl, rfl, rfl, rfl⟩

theorem SameInput.emit (s : Server) (he : e.input? ≠ some d) : SameInput d s (s.emit e) := by
  obtain ⟨hr, hh, hf⟩ := log_cons (l := s.log) he
  exact ⟨rfl, rfl, hr, hh, hf⟩

/-! ## Calls -/

theorem broadcastLoop_kept (m : Message) (n : ℕ) (p : Option Slot) (s : Server) :
    Kept s (broadcastLoop m n p s) := by
  induction n generalizing p s with
  | zero => exact (Kept.refl s).emit .outOfFuel rfl
  | succ n ih =>
    cases p with
    | none => exact Kept.refl s
    | some c => exact ((Kept.refl s).emit (.write c m) rfl).trans (ih _ _)

theorem serverSend_kept (s : Server) (c : Slot) (enc : Encoder) : Kept s (serverSend s c enc) := by
  unfold serverSend
  split
  · exact Kept.refl s
  · exact (Kept.refl s).emit _ rfl

theorem call_kept (s : Server) (x : Call) : Kept s (call s x) := by
  cases x with
  | send c enc => exact serverSend_kept s c enc
  | reply enc =>
    show Kept s (serverReply s enc)
    unfold serverReply
    split
    · exact serverSend_kept s _ enc
    · exact Kept.refl s
  | broadcast enc =>
    show Kept s (serverBroadcast s enc)
    unfold serverBroadcast
    split
    · exact Kept.refl s
    · exact broadcastLoop_kept _ _ _ s
  | disconnect p => exact Kept.refl s

theorem callback_kept (calls : List Call) (s : Server) : Kept s (callback calls s) := by
  unfold callback
  induction calls generalizing s with
  | nil => exact Kept.refl s
  | cons x calls ih => exact (call_kept s x).trans (ih _)

/-! ## One turn of the loop -/

theorem inputBytes_readBytes (s : Server) (c : Slot) (bs : List UInt8) :
    inputBytes (readBytes s c bs) c = inputBytes s c ++ bs := by
  have hin : (readBytes s c bs).input c = { s.input c with
      size := (s.input c).size + bs.length, left := (s.input c).left - bs.length } :=
    Function.update_self _ _ _
  unfold inputBytes
  rw [hin]
  exact slice_write_append s.inputBufs (s.input c).bufP (s.input c).size bs

theorem receiver_readBytes (s : Server) (c : Slot) (bs : List UInt8) :
    receiver (readBytes s c bs) c = (receiver s c).read bs := by
  have hin : (readBytes s c bs).input c = { s.input c with
      size := (s.input c).size + bs.length, left := (s.input c).left - bs.length } :=
    Function.update_self _ _ _
  unfold receiver Receiver.read
  rw [inputBytes_readBytes, hin]

theorem receiver_reset (s : Server) (c : Slot) :
    receiver (clientResetInput s c) c = ⟨[], false, headerSize⟩ := by
  have hin : (clientResetInput s c).input c =
      { s.input c with state := .header, size := 0, left := headerSize } :=
        Function.update_self _ _ _
  unfold receiver inputBytes
  rw [hin]
  rfl

/-- The header at the start of the buffer. -/
theorem inputHeader_eq (hsize : headerSize ≤ (s.input c).size) :
    inputHeader s c = Header.ofBytes (inputBytes s c) := by
  unfold inputHeader
  rw [← take_slice s.inputBufs _ hsize]
  exact ofBytes_take _

theorem length_inputBytes (s : Server) (c : Slot) : (inputBytes s c).length = (s.input c).size :=
  length_slice _ _ _

/-- Only what is left, and the state, is set. -/
def Loaded (c : Slot) (s t : Server) : Prop :=
  ∃ i : Input, i.bufP = (s.input c).bufP ∧ i.dataSize = (s.input c).dataSize ∧
    i.size = (s.input c).size ∧ t = s.setInput c i

/-- What is done with a header, and with a payload. -/
theorem loadHeader_spec {ok : Bool} (hsize : headerSize ≤ (s.input c).size)
    (hd : (s.input c).dataSize = sz) (h : loadHeader s c = (ok, t)) :
    Loaded c s t ∧
      (ok = false → (receiver s c).load sz = none ∧
        (t.input c).left = (receiver s c).announced) ∧
      (ok = true → (receiver s c).load sz = some (receiver t c)) := by
  have hin : ∀ i, (s.setInput c i).input c = i := fun i => Function.update_self _ _ _
  obtain ⟨n, hn⟩ : ∃ n, n = (headerGetSize (inputHeader s c)).toNat := ⟨_, rfl⟩
  have hann : (receiver s c).announced = n := by
    rw [hn, inputHeader_eq hsize]
    rfl
  unfold loadHeader at h
  unfold Receiver.load
  rw [← hn] at h
  rw [hann]
  dsimp only at h
  rw [hin] at h
  split_ifs at h with hstate hbig
  · cases h
    rw [hd] at hbig
    have hnot : ¬ (receiver s c).payload = true := by simp [receiver, hstate]
    refine ⟨⟨{ s.input c with left := n }, rfl, rfl, rfl, rfl⟩, fun _ => ?_, nofun⟩
    rw [if_neg hnot, if_pos hbig, hin]
    exact ⟨rfl, rfl⟩
  · cases h
    rw [hd] at hbig
    have hnot : ¬ (receiver s c).payload = true := by simp [receiver, hstate]
    have hset : (s.setInput c { s.input c with left := n }).setInput c
          { s.input c with left := n, state := .payload } =
        s.setInput c { s.input c with left := n, state := .payload } := by
      unfold Server.setInput
      rw [Function.update_idem]
    rw [hset]
    refine ⟨⟨{ s.input c with left := n, state := .payload }, rfl, rfl, rfl, rfl⟩, nofun,
      fun _ => ?_⟩
    rw [if_neg hnot, if_neg hbig]
    unfold receiver inputBytes
    rw [hin]
    rfl
  · cases h
    have hpay : (receiver s c).payload = true := by
      cases hst : (s.input c).state with
      | header => exact absurd hst hstate
      | payload => simp [receiver, hst]
    refine ⟨⟨s.input c, rfl, rfl, rfl, ?_⟩, nofun, fun _ => if_pos hpay⟩
    unfold Server.setInput
    rw [Function.update_eq_self]

theorem follows_of_input? (he : e.input? = none) : e.follows c = true := by
  cases e <;> first | rfl | cases he

theorem Handles.kept {m : Message} {res : Bool} (h : Handles c m res s t) (hk : Kept t u) :
    Handles c m res s u := by
  obtain ⟨evs, hlog, hevs⟩ := h.log
  obtain ⟨evs', hlog', hevs'⟩ := hk.log
  have hsame := hk.same c
  refine ⟨hk.input.trans h.input, hk.inputBufs.trans h.inputBufs, hk.clientsMax.trans h.clientsMax,
    hk.connected.trans h.connected, ⟨evs' ++ evs, ?_, ?_⟩, hsame.received.trans h.received,
    hsame.handled.trans h.handled, hsame.refused.trans h.refused⟩
  · rw [hlog', hlog, List.append_assoc]
  · intro e he
    exact (List.mem_append.1 he).elim (fun he => follows_of_input? (hevs' e he)) (hevs e)

/-- The message is recorded, and what is known of it at once. -/
theorem handles_emit (s : Server) (c : Slot) (m : Message) :
    Handles c m (known m) s (s.emit (.handleMessage c m)) :=
  ⟨rfl, rfl, rfl, rfl, ⟨[.handleMessage c m], rfl, by simp [Event.follows]⟩, rfl,
    by simp [handled], by simp [refused]⟩

theorem Handles.newFailed {m : Message} {res : Bool} (h : Handles c m res s t) :
    Handles c m false s (t.emit (.newFailed c)) := by
  obtain ⟨evs, hlog, hevs⟩ := h.log
  refine ⟨h.input, h.inputBufs, h.clientsMax, h.connected, ⟨.newFailed c :: evs, ?_, ?_⟩,
    h.received, h.handled, by simp [AsyncServer.refused]⟩
  · rw [Server.emit_log, hlog]
    rfl
  · simpa [Event.follows] using hevs

theorem Handles.decode {m : Message} (h : Handles c m true s t) (payload : List UInt8) (ok : Bool) :
    Handles c m ok s (t.emit (.decode c payload ok)) := by
  obtain ⟨evs, hlog, hevs⟩ := h.log
  refine ⟨h.input, h.inputBufs, h.clientsMax, h.connected, ⟨.decode c payload ok :: evs, ?_, ?_⟩,
    h.received, h.handled, ?_⟩
  · rw [Server.emit_log, hlog]
    rfl
  · simpa [Event.follows] using hevs
  · have hrefused := h.refused
    rw [Bool.not_true, Bool.or_false] at hrefused
    simp [AsyncServer.refused, hrefused]

/-- `handle_message()` records the message, and what it says of it. -/
theorem handleMessage_spec {e : ReadEnv} {res : Bool} (hsize : headerSize ≤ (s.input c).size)
    (h : handleMessage c e s = (res, t)) :
    Handles c (receiver s c).message res s t ∧ res = accepts e (receiver s c).message := by
  have hm :
      (receiver s c).message = ((inputHeader s c).type, (inputBytes s c).drop headerSize) := by
    rw [inputHeader_eq hsize]
    rfl
  have hmsg := handles_emit s c (receiver s c).message
  unfold handleMessage at h
  unfold accepts
  rw [hm] at hmsg ⊢
  dsimp only at h hmsg ⊢
  generalize s.emit (.handleMessage c ((inputHeader s c).type,
    (inputBytes s c).drop headerSize)) = w at h hmsg
  split_ifs at h with huser hping
  · have hknown : known ((inputHeader s c).type, (inputBytes s c).drop headerSize) = true := by
      simp [known, huser]
    rw [hknown] at hmsg
    rw [if_pos huser]
    unfold handleMessageUser at h
    dsimp only at h
    split_ifs at h with hnew hdec
    · cases h
      exact ⟨hmsg.newFailed, by simp_all⟩
    · cases h
      have hd : e.decode = false := by simpa using hdec
      rw [hd, Bool.and_false]
      exact ⟨hmsg.decode _ _, rfl⟩
    · cases h
      have hd : e.decode = true := by simpa using hdec
      have hn : e.new = true := by simpa using hnew
      rw [hd, hn]
      have hset : ∀ (t : Server) p, Kept t (t.setCurrentClientP p) := fun t p =>
        ⟨rfl, rfl, rfl, rfl, [], rfl, nofun⟩
      refine ⟨(hmsg.decode ((inputBytes w c).drop headerSize) true).kept ?_, rfl⟩
      exact ((hset _ (some c)).trans (callback_kept e.callback _)).trans (hset _ none)
  · have hknown : known ((inputHeader s c).type, (inputBytes s c).drop headerSize) = true := by
      simp [known, hping]
    rw [hknown] at hmsg
    rw [if_neg huser]
    cases h
    have hpong : Kept w (stcpWrite (timerStart w c) c (messageTypePong, [])) :=
      ((Kept.refl w).emit (.timerStart c) rfl).emit (.write c _) rfl
    exact ⟨hmsg.kept hpong, by simp [hping]⟩
  · have hknown : known ((inputHeader s c).type, (inputBytes s c).drop headerSize) = false := by
      simp [known, huser, hping]
    rw [hknown] at hmsg
    rw [if_neg huser]
    cases h
    exact ⟨hmsg, by simp [hping]⟩

/-! ## What a turn comes to -/

/-- From the start of a turn to its end: a read, and what is done about it. -/
structure Turned (c : Slot) (s t : Server) : Prop where
  clientsMax : t.clientsMax = s.clientsMax
  connected : t.connected = s.connected
  bufP : (t.input c).bufP = (s.input c).bufP
  dataSize : (t.input c).dataSize = (s.input c).dataSize
  others : ∀ d, d ≠ c → t.input d = s.input d
  read : ∃ bs evs, bs.length ≤ (s.input c).left ∧
    t.inputBufs = write s.inputBufs ((s.input c).bufP + (s.input c).size) bs ∧
    t.log = evs ++ .read c (s.input c).size (s.input c).left bs :: s.log ∧
    ∀ e ∈ evs, e.follows c = true

/-- The slot's connection waits for the rest of a message. -/
abbrev Waiting (sz : ℕ) (s : Server) (c : Slot) : Prop :=
  (receiver s c).Progress sz (fun _ => true) (received c s.log) (handled c s.log)

/-- What follows the last message of the stream. -/
def pendingBytes (sz : ℕ) (c : Slot) (l : List Event) : List UInt8 :=
  (parse messi (fits sz) (received c l)).2

/-- How a turn ends, and whether the loop goes on. -/
inductive Ends (sz : ℕ) (c : Slot) (e : ReadEnv) (s t : Server) : Bool → Prop
  | blocked (h : t = readBytes s c []) : Ends sz c e s t false
  | waits (h : Waiting sz t c) (handled : handled c t.log = handled c s.log)
    (refused : refused c t.log = refused c s.log) : Ends sz c e s t true
  | tooBig (h : tooBig sz (pendingBytes sz c t.log) = true)
    (handled : handled c t.log = handled c s.log)
    (refused : refused c t.log = refused c s.log)
    (large : sz < (t.input c).size + (t.input c).left) : Ends sz c e s t false
  | accepted (m : Message) (h : Waiting sz t c)
    (handled : handled c t.log = handled c s.log ++ [m])
    (refused : refused c t.log = refused c s.log) (ok : accepts e m = true) : Ends sz c e s t true
  | refused (m : Message) (holds : Holds sz (received c t.log) (handled c s.log ++ [m]) [])
    (handled : handled c t.log = handled c s.log ++ [m])
    (refused : refused c t.log = true) (bad : accepts e m = false) (left : (t.input c).left = 0) :
    Ends sz c e s t false

theorem received_readBytes (s : Server) (c : Slot) (bs : List UInt8) :
    received c (readBytes s c bs).log = received c s.log ++ bs ∧
      handled c (readBytes s c bs).log = handled c s.log ∧
      refused c (readBytes s c bs).log = refused c s.log := by
  refine ⟨?_, rfl, rfl⟩
  show received c (.read c _ _ bs :: s.log) = _
  simp [received]

theorem Turned.readBytes {bs : List UInt8} (hlen : bs.length ≤ (s.input c).left) :
    Turned c s (AsyncServer.readBytes s c bs) := by
  have hin : (AsyncServer.readBytes s c bs).input c = { s.input c with
      size := (s.input c).size + bs.length, left := (s.input c).left - bs.length } :=
    Function.update_self _ _ _
  refine ⟨rfl, rfl, ?_, ?_, fun d hd => Function.update_of_ne hd _ _, bs, [], hlen, rfl, rfl, nofun⟩
  · rw [hin]
  · rw [hin]

theorem Turned.setInput (h : Turned c s t) {i : Input} (hb : i.bufP = (t.input c).bufP)
    (hd : i.dataSize = (t.input c).dataSize) : Turned c s (t.setInput c i) := by
  have hin : (t.setInput c i).input c = i := Function.update_self _ _ _
  refine ⟨h.clientsMax, h.connected, ?_, ?_, fun d hne => ?_, h.read⟩
  · rw [hin, hb, h.bufP]
  · rw [hin, hd, h.dataSize]
  · exact (Function.update_of_ne hne _ _).trans (h.others d hne)

theorem Turned.handles {m : Message} {res : Bool} (h : Turned c s t) (hm : Handles c m res t u) :
    Turned c s u := by
  obtain ⟨bs, evs, hlen, hbufs, hlog, hevs⟩ := h.read
  obtain ⟨evs', hlog', hevs'⟩ := hm.log
  refine ⟨hm.clientsMax.trans h.clientsMax, hm.connected.trans h.connected, ?_, ?_, fun d hd => ?_,
    bs, evs' ++ evs, hlen, hm.inputBufs.trans hbufs, ?_, ?_⟩
  · rw [hm.input, h.bufP]
  · rw [hm.input, h.dataSize]
  · rw [hm.input, h.others d hd]
  · rw [hlog', hlog, List.append_assoc]
  · intro e he
    exact (List.mem_append.1 he).elim (hevs' e) (hevs e)

/-- What a turn does, for a connection that waits for the rest of a message. -/
theorem inputTurn_spec {e : ReadEnv} {again : Bool} (hw : Waiting sz s c)
    (hd : (s.input c).dataSize = sz) (h : inputTurn c e s = (again, t)) :
    Turned c s t ∧ Ends sz c e s t again := by
  have hblocked : Turned c s (readBytes s c []) := Turned.readBytes (Nat.zero_le _)
  have hle : (stcpRead s c (s.input c).left e.data).length ≤ (s.input c).left := by
    unfold stcpRead
    split_ifs
    · exact List.length_take_le _ _
    · exact Nat.zero_le _
  unfold inputTurn at h
  generalize stcpRead s c (s.input c).left e.data = as at h hle
  cases as with
  | nil =>
    cases h
    exact ⟨hblocked, .blocked rfl⟩
  | cons b bs =>
    dsimp only at h
    obtain ⟨hrec, hhan, href⟩ := received_readBytes s c (b :: bs)
    have hturned := Turned.readBytes hle
    have hrecv := receiver_readBytes s c (b :: bs)
    have hleft : ((readBytes s c (b :: bs)).input c).left = (s.input c).left - (b :: bs).length :=
      congrArg Receiver.left hrecv
    have hdata := hturned.dataSize.trans hd
    have hbytes := congrArg Receiver.bytes hrecv
    generalize readBytes s c (b :: bs) = u at *
    have hsize : (u.input c).size = (inputBytes s c ++ (b :: bs)).length := by
      rw [← length_inputBytes]
      exact congrArg List.length hbytes
    split_ifs at h with hmore
    · cases h
      refine ⟨hturned, .waits ?_ hhan href⟩
      unfold Waiting
      rw [hrec, hhan, hrecv]
      exact hw.part (show (b :: bs).length < (s.input c).left by omega)
    · have hlen : (b :: bs).length = (receiver s c).left :=
        show (b :: bs).length = (s.input c).left by omega
      have hfull := hw.waits.full hlen
      have hheader : headerSize ≤ (u.input c).size := hsize ▸ hfull.size
      cases hload : loadHeader u c with
      | mk fit w =>
        obtain ⟨hloaded, hno, hyes⟩ := loadHeader_spec hheader hdata hload
        obtain ⟨i, hibuf, hidata, hisize, hw'⟩ := hloaded
        have hturned' : Turned c s w := hw' ▸ hturned.setInput hibuf hidata
        have hlog : w.log = u.log := by
          rw [hw']
          rfl
        rw [hload] at h
        rw [hrecv] at hno hyes
        have hwsize : (w.input c).size = (u.input c).size := by
          rw [hw', show (u.setInput c i).input c = i from Function.update_self _ _ _, hisize]
        have hwrec : received c w.log = received c s.log ++ (b :: bs) := by rw [hlog, hrec]
        have hwhan : handled c w.log = handled c s.log := by rw [hlog, hhan]
        have hwref : refused c w.log = refused c s.log := by rw [hlog, href]
        cases fit with
        | false =>
          cases h
          obtain ⟨hnone, hannounced⟩ := hno rfl
          obtain ⟨hheadlen, hlarge, -⟩ := hfull.reject hnone
          refine ⟨hturned', .tooBig ?_ hwhan hwref ?_⟩
          · unfold pendingBytes
            rw [hwrec]
            exact hw.reject hlen hnone
          · have hread : (u.input c).size = headerSize := hsize.trans hheadlen
            rw [hwsize, hannounced, hread]
            omega
        | true =>
          have hsome := hyes rfl
          dsimp only at h
          split_ifs at h with hzero
          · have hholds := hw.message hlen hsome hzero
            cases hmsg : handleMessage c e w with
            | mk res x =>
              obtain ⟨hx, hres⟩ := handleMessage_spec (hwsize ▸ hheader) hmsg
              have hturned'' := hturned'.handles hx
              have hxrec : received c x.log = received c s.log ++ (b :: bs) :=
                hx.received.trans hwrec
              have hxhan : handled c x.log = handled c s.log ++ [(receiver w c).message] := by
                rw [hx.handled, hwhan]
              have hxref := hx.refused
              rw [hwref] at hxref
              rw [hmsg] at h
              cases res with
              | true =>
                cases h
                refine ⟨hturned''.setInput rfl rfl, .accepted _ ?_ hxhan ?_ hres.symm⟩
                · unfold Waiting
                  rw [receiver_reset]
                  show Receiver.Progress sz _ (received c x.log) (handled c x.log) _
                  rw [hxrec, hxhan]
                  exact ⟨hholds, Receiver.waits_fresh, fun _ _ => rfl⟩
                · show refused c x.log = _
                  rw [hxref, Bool.not_true, Bool.or_false]
              | false =>
                cases h
                refine ⟨hturned'', .refused _ ?_ hxhan ?_ hres.symm ?_⟩
                · rw [hxrec]
                  exact hholds
                · rw [hxref, Bool.not_false, Bool.or_true]
                · rw [hx.input]
                  exact hzero
          · cases h
            refine ⟨hturned', .waits ?_ hwhan hwref⟩
            unfold Waiting
            rw [hwrec, hwhan]
            exact hw.body hlen hsome hzero

end

end Messi.AsyncServer
