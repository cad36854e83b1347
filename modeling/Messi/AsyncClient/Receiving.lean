import Messi.Base.Trace
import Messi.Receiver
import Messi.AsyncClient.Rules

/-!
# Receiving in the async client

What the loop of `on_stcp_input()` makes of a connection's bytes. The input is reset after a message
only, and not when a connection is made: a connection that follows one that has ended inside a
message goes on with that message, and, if the message was too big, reads beyond the end of the
input buffer. If every connection that is followed by another one has ended between two messages,
connections are framed independently and within bounds (`async_frames_independent`).
-/

namespace Messi.AsyncClient

open Framing ByteMemory Trace Sample

/-- At every moment the messages handled on the connection are the first ones of its own stream. -/
abbrev FramesOk : List Event → Prop :=
  Always fun l e => handled (e :: l) <+: messages (received (e :: l))

/-- What is read while there is a connection fits in the input buffer. -/
def Event.Fits (sz : ℕ) (_ : List Event) : Event → Prop
  | .read true offset want _ => offset + want ≤ sz
  | _ => True

abbrev ReadsFit (sz : ℕ) : List Event → Prop := Always (Event.Fits sz)

/-- The bytes received after the last complete message. -/
def pendingBytes (sz : ℕ) (l : List Event) : List UInt8 := (parse messi (fits sz) (received l)).2

/-- A connection is made when the one before has ended between two messages. -/
def Event.AtBoundary (sz : ℕ) (l : List Event) : Event → Prop
  | .onConnected => pendingBytes sz l = []
  | _ => True

abbrev AtBoundary (sz : ℕ) : List Event → Prop := Always (Event.AtBoundary sz)

instance (sz : ℕ) (l : List Event) : DecidablePred (Event.Fits sz l) := fun e => by
  rcases e with _ | _ | _ | _ | _ | ⟨_ | _, _, _, _⟩ | _ <;> unfold Event.Fits <;> infer_instance

instance (sz : ℕ) (l : List Event) : DecidablePred (Event.AtBoundary sz l) := fun e => by
  rcases e <;> unfold Event.AtBoundary <;> infer_instance

/-- An event that says what has been received and handled on a connection. -/
def Event.ofInput : Event → Bool
  | .read .. | .handleMessage _ | .onConnected => true
  | _ => false

/-- The input is as it was, and no connection has been made. -/
structure Kept (s t : Client) : Prop where
  input : t.input = s.input
  inputBuf : t.inputBuf = s.inputBuf
  connected : t.stcp.connected = true →
    s.stcp.connected = true ∧ t.isConnected = s.isConnected
  log : ∃ evs, t.log = evs ++ s.log ∧ ∀ e ∈ evs, e.ofInput = false

/-- The client holds what follows the messages that it has handled; `bs` is what is left of it. -/
structure Holding (sz : ℕ) (bs : List UInt8) (s : Client) : Prop where
  dataSize : s.input.dataSize = sz
  linked : s.stcp.connected = true → s.isConnected = true
  frames : FramesOk s.log
  reads : ReadsFit sz s.log
  holds : Holds sz (received s.log) (handled s.log) bs

/-- The client waits for the rest of a message; or a message was too big, and the connection has
been closed. -/
structure Waiting (sz : ℕ) (s : Client) : Prop extends Holding sz (inputBytes s) s where
  waits : Awaits sz (decide (s.input.state = .payload)) (inputBytes s) s.input.left ∨
    s.stcp.connected = false ∧ inputBytes s ≠ [] ∧
      parse messi (fits sz) (inputBytes s) = ([], inputBytes s)

section

variable {sz : ℕ} {s t u : Client} {l evs : List Event} {bs : List UInt8} {e : Event}
  {may : Rights}

/-! ## What is kept -/

theorem Kept.refl (s : Client) : Kept s s := ⟨rfl, rfl, fun h => ⟨h, rfl⟩, [], rfl, nofun⟩

theorem Kept.trans (h : Kept s t) (h' : Kept t u) : Kept s u := by
  obtain ⟨evs, hlog, hevs⟩ := h.log
  obtain ⟨evs', hlog', hevs'⟩ := h'.log
  refine ⟨h'.input.trans h.input, h'.inputBuf.trans h.inputBuf, fun hu => ?_, evs' ++ evs, ?_, ?_⟩
  · obtain ⟨ht, hcon⟩ := h'.connected hu
    exact ⟨(h.connected ht).1, hcon.trans (h.connected ht).2⟩
  · rw [hlog', hlog, List.append_assoc]
  · intro e he
    exact (List.mem_append.1 he).elim (hevs' e) (hevs e)

theorem emit_kept (s : Client) (e : Event) (he : e.ofInput = false) :
    Kept s (s.emit e) := by
  refine ⟨rfl, rfl, fun h => ⟨h, rfl⟩, [e], rfl, fun e' he' => ?_⟩
  rw [List.mem_singleton.1 he']
  exact he

theorem stcpConnect_kept (s : Client) : Kept s (stcpConnect s) := by
  have hemit := emit_kept s .connect rfl
  exact ⟨rfl, rfl, fun h => ⟨h, rfl⟩, hemit.log⟩

theorem stcpDisconnect_kept (s : Client) : Kept s (stcpDisconnect s) := by
  have hemit := emit_kept s .disconnect rfl
  exact ⟨rfl, rfl, nofun, hemit.log⟩

theorem timerStart_kept (s : Client) (timer : Timer) : Kept s (timerStart s timer) := by
  have hemit := emit_kept s (.timerStart timer) rfl
  exact ⟨rfl, rfl, fun h => ⟨h, rfl⟩, hemit.log⟩

theorem timerStop_kept (s : Client) (timer : Timer) : Kept s (timerStop s timer) := by
  have hemit := emit_kept s (.timerStop timer) rfl
  exact ⟨rfl, rfl, fun h => ⟨h, rfl⟩, hemit.log⟩

/-- The connection is closed, if there is one. -/
theorem disconnect_kept (s : Client) (r : DisconnectReason) :
    Kept s (disconnectAndStartReconnectTimer s r) := by
  have hcause := emit_kept s (.cause r) rfl
  unfold disconnectAndStartReconnectTimer
  generalize s.emit (.cause r) = t at hcause
  dsimp only
  split_ifs
  · exact hcause
  · refine hcause.trans ⟨rfl, rfl, nofun, [.asyncCall, .disconnect, .timerStop .keepAlive], rfl, ?_⟩
    simp [Event.ofInput]

theorem disconnect_down (s : Client) (r : DisconnectReason)
    (hlinked : s.stcp.connected = true → s.isConnected = true) :
    (disconnectAndStartReconnectTimer s r).stcp.connected = false := by
  unfold disconnectAndStartReconnectTimer
  dsimp only
  split_ifs with hcon
  · refine Bool.eq_false_iff.2 fun h => ?_
    have hup : s.isConnected = true := hlinked h
    simp [hup] at hcon
  · rfl

theorem calls_kept (may : Rights) (s : Client) : CallsKeep may (Kept s) where
  start _ t h := h.trans ((emit_kept t .start rfl).trans (stcpConnect_kept _))
  stop _ t h := h.trans ((emit_kept t .stop rfl).trans ((stcpDisconnect_kept _).trans
    ((timerStop_kept _ _).trans (timerStop_kept _ _))))
  cause t r h := h.trans (disconnect_kept t r)
  write t m h := h.trans (emit_kept t (.write t.stcp.connected m) rfl)

theorem callback_kept (may : Rights) (calls : List Call) (s : Client) :
    Kept s (callback may calls s) :=
  (calls_kept may s).callback calls (Kept.refl s)

theorem handleMessageUser_kept (e : ReadEnv) (s : Client) :
    Kept s (handleMessageUser may e s) := by
  unfold handleMessageUser
  dsimp only
  split_ifs
  · exact emit_kept s .newFailed rfl
  · exact (emit_kept s (.decode _) rfl).trans (disconnect_kept _ _)
  · exact ((emit_kept s (.decode _) rfl).trans (emit_kept _ (.onMessage _) rfl)).trans
      (callback_kept _ _ _)

theorem handleMessage_kept (e : ReadEnv) (s : Client) :
    Kept (s.emit (.handleMessage ((inputHeader s).type, (inputBytes s).drop headerSize)))
      (handleMessage may e s) := by
  unfold handleMessage
  dsimp only
  generalize s.emit (.handleMessage ((inputHeader s).type, (inputBytes s).drop headerSize)) = t
  split_ifs
  · exact handleMessageUser_kept e t
  · exact ⟨rfl, rfl, fun h => ⟨h, rfl⟩, [], rfl, nofun⟩
  · exact Kept.refl t

/-! ## The log -/

theorem received_append (h : ∀ e ∈ evs, e.ofInput = false) :
    received (evs ++ l) = received l ∧ handled (evs ++ l) = handled l := by
  induction evs with
  | nil => exact ⟨rfl, rfl⟩
  | cons e evs ih =>
    have hrest := ih fun e' he' => h e' (List.mem_cons_of_mem e he')
    have he := h e List.mem_cons_self
    cases e <;> first | exact hrest | cases he

theorem FramesOk.head (h : FramesOk l) : handled l <+: messages (received l) := by
  cases l with
  | nil => exact List.nil_prefix
  | cons e l => exact h.1

theorem FramesOk.append (h : FramesOk l) (he : ∀ e ∈ evs, e.ofInput = false) :
    FramesOk (evs ++ l) := by
  induction evs with
  | nil => exact h
  | cons e evs ih =>
    obtain ⟨hr, hh⟩ := received_append (l := l) he
    refine ⟨?_, ih fun e' he' => he e' (List.mem_cons_of_mem e he')⟩
    have hhead := h.head
    rw [← hr, ← hh] at hhead
    exact hhead

theorem ReadsFit.append (h : ReadsFit sz l) (he : ∀ e ∈ evs, e.ofInput = false) :
    ReadsFit sz (evs ++ l) := by
  refine Always.append h fun e hmem _ => ?_
  have hin := he e hmem
  cases e <;> trivial

theorem inputBytes_congr (hin : t.input = s.input) (hbuf : t.inputBuf = s.inputBuf) :
    inputBytes t = inputBytes s := by
  unfold inputBytes
  rw [hin, hbuf]

theorem Kept.holding (h : Kept s t) (hs : Holding sz bs s) : Holding sz bs t := by
  obtain ⟨evs, hlog, hevs⟩ := h.log
  obtain ⟨hr, hh⟩ := received_append (l := s.log) hevs
  constructor
  case dataSize => exact h.input ▸ hs.dataSize
  case linked =>
    intro ht
    obtain ⟨hcon, heq⟩ := h.connected ht
    exact heq.trans (hs.linked hcon)
  case frames => exact hlog ▸ hs.frames.append hevs
  case reads => exact hlog ▸ hs.reads.append hevs
  case holds =>
    rw [hlog, hr, hh]
    exact hs.holds

theorem Kept.waiting (h : Kept s t) (hs : Waiting sz s) : Waiting sz t := by
  have hbytes := inputBytes_congr h.input h.inputBuf
  refine ⟨hbytes ▸ h.holding hs.toHolding, ?_⟩
  rw [hbytes, h.input]
  refine hs.waits.imp_right fun hrej => ⟨?_, hrej.2⟩
  refine Bool.eq_false_iff.2 fun ht => ?_
  exact absurd (hrej.1.symm.trans (h.connected ht).1) nofun

/-! ## Turns of the loop -/

theorem length_inputBytes (s : Client) : (inputBytes s).length = s.input.size := length_slice _ _ _

theorem inputBytes_readBytes (s : Client) (bs : List UInt8) :
    inputBytes (readBytes s bs) = inputBytes s ++ bs := by
  have happ := slice_write_append s.inputBuf 0 s.input.size bs
  rw [Nat.zero_add] at happ
  exact happ

/-- The header at the start of the buffer. -/
theorem inputHeader_eq (h : headerSize ≤ s.input.size) :
    inputHeader s = Header.ofBytes (inputBytes s) := by
  unfold inputHeader
  rw [← take_slice s.inputBuf 0 h]
  exact ofBytes_take _

theorem Waiting.awaits (hs : Waiting sz s) (hcon : s.stcp.connected = true) :
    Awaits sz (decide (s.input.state = .payload)) (inputBytes s) s.input.left :=
  hs.waits.resolve_right fun hrej => absurd (hrej.1.symm.trans hcon) nofun

theorem fits_read {connected : Bool} {offset want : ℕ} (h : connected = true → offset + want ≤ sz) :
    (Event.read connected offset want bs).Fits sz l := by
  cases connected with
  | true => exact h rfl
  | false => trivial

/-- What is read is read within bounds. -/
theorem Waiting.read (hs : Waiting sz s) (hsz : headerSize ≤ sz) (bs : List UInt8) :
    Holding sz (inputBytes (readBytes s bs)) (readBytes s bs) := by
  rw [inputBytes_readBytes]
  constructor
  case dataSize => exact hs.dataSize
  case linked => exact hs.linked
  case frames =>
    exact ⟨hs.frames.head.trans (messages_mono (List.prefix_append _ _)), hs.frames⟩
  case reads =>
    refine ⟨fits_read fun hcon => ?_, hs.reads⟩
    have hbound := (hs.awaits hcon).bound hsz
    rwa [length_inputBytes] at hbound
  case holds => exact hs.holds.append bs

theorem Waiting.idle (hs : Waiting sz s) (hsz : headerSize ≤ sz) :
    Waiting sz (readBytes s []) := by
  refine ⟨hs.read hsz [], ?_⟩
  rw [inputBytes_readBytes, List.append_nil]
  exact hs.waits

/-- A part of a message has been read. -/
theorem Waiting.part (hs : Waiting sz s) (hsz : headerSize ≤ sz) (hcon : s.stcp.connected = true)
    (hlt : bs.length < s.input.left) : Waiting sz (readBytes s bs) := by
  refine ⟨hs.read hsz bs, Or.inl ?_⟩
  rw [inputBytes_readBytes]
  exact (hs.awaits hcon).append hlt

/-- The message in the buffer is handled. -/
theorem Holding.message (hs : Holding sz (inputBytes s) s) (hsize : headerSize ≤ s.input.size)
    (hparse : parse messi (fits sz) (inputBytes s) =
      ([((inputBytes s).take headerSize, (inputBytes s).drop headerSize)], [])) :
    Holding sz [] (s.emit (.handleMessage ((inputHeader s).type,
      (inputBytes s).drop headerSize))) := by
  have htype : (inputHeader s).type = ((inputBytes s).take headerSize).getD 0 0 := by
    rw [inputHeader_eq hsize, ← ofBytes_take]
    rfl
  have hholds := hs.holds.message hparse
  rw [htype]
  exact ⟨hs.dataSize, hs.linked, ⟨hholds.prefix_messages, hs.frames⟩, ⟨trivial, hs.reads⟩, hholds⟩

/-- After a message the client waits for a header. -/
theorem Holding.reset (hs : Holding sz [] s) : Waiting sz (resetInputEncoded s) :=
  ⟨⟨hs.dataSize, hs.linked, hs.frames, hs.reads, hs.holds⟩, Or.inl awaits_header⟩

theorem handleMessage_waiting (e : ReadEnv) (hs : Holding sz (inputBytes s) s)
    (hsize : headerSize ≤ s.input.size) (hparse : parse messi (fits sz) (inputBytes s) =
      ([((inputBytes s).take headerSize, (inputBytes s).drop headerSize)], [])) :
    Waiting sz (resetInputEncoded (handleMessage may e s)) :=
  ((handleMessage_kept e s).holding (hs.message hsize hparse)).reset

/-- All that was left of a header, or of a payload, has been read. -/
structure Full (sz : ℕ) (s : Client) : Prop extends Holding sz (inputBytes s) s where
  left : s.input.left = 0
  size : headerSize ≤ s.input.size
  header : s.input.state = .header → s.input.size = headerSize
  payload : s.input.state = .payload → parse messi (fits sz) (inputBytes s) =
    ([((inputBytes s).take headerSize, (inputBytes s).drop headerSize)], [])

theorem Waiting.full (hs : Waiting sz s) (bs : List UInt8) (hsz : headerSize ≤ sz)
    (hcon : s.stcp.connected = true) (hlen : bs.length = s.input.left) :
    Full sz (readBytes s bs) := by
  have hw := hs.awaits hcon
  have hleft : s.input.left - bs.length = 0 := Nat.sub_eq_zero_of_le hlen.ge
  have hsize : (readBytes s bs).input.size = (inputBytes s ++ bs).length := by
    rw [← inputBytes_readBytes, length_inputBytes]
  refine ⟨hs.read hsz bs, hleft, ?_, fun hstate => ?_, fun hstate => ?_⟩
  · rw [hsize]
    cases hstate : s.input.state with
    | header =>
      rw [hstate] at hw
      exact Nat.le_of_eq (Awaits.header_length hw hlen).symm
    | payload =>
      rw [hstate] at hw
      exact Nat.le_trans hw.2.1 (by simp)
  · have hstate' : s.input.state = .header := hstate
    rw [hstate'] at hw
    rw [hsize]
    exact Awaits.header_length hw hlen
  · have hstate' : s.input.state = .payload := hstate
    rw [hstate'] at hw
    rw [inputBytes_readBytes]
    exact Awaits.parse_full hw hlen

theorem Full.length_header (hs : Full sz s) (hstate : s.input.state = .header) :
    (inputBytes s).length = headerSize := by
  rw [length_inputBytes]
  exact hs.header hstate

/-- What is done with a header, and with a payload. -/
theorem loadHeader_spec {ok : Bool} (h : loadHeader s = (ok, t)) :
    let n := (headerGetSize (inputHeader s)).toNat
    match ok with
    | false => s.input.state = .header ∧ s.input.dataSize < n + headerSize ∧
        t = { s with input := { s.input with left := n } }
    | true => (s.input.state = .payload ∧ t = s) ∨
        (s.input.state = .header ∧ n + headerSize ≤ s.input.dataSize ∧
          t = { s with input := { s.input with left := n, state := .payload } }) := by
  unfold loadHeader at h
  dsimp only at h
  split_ifs at h with hstate hbig
  · cases h
    exact ⟨hstate, hbig, rfl⟩
  · cases h
    exact Or.inr ⟨hstate, not_lt.1 hbig, rfl⟩
  · cases h
    refine Or.inl ⟨?_, rfl⟩
    cases hs : s.input.state with
    | header => exact absurd hs hstate
    | payload => rfl

/-- A message that is too big closes the connection. -/
theorem Full.reject (hs : Full sz s) (h : loadHeader s = (false, t)) (r : DisconnectReason) :
    Waiting sz (disconnectAndStartReconnectTimer t r) := by
  obtain ⟨hstate, hbig, rfl⟩ := loadHeader_spec h
  have hlen := hs.length_header hstate
  rw [inputHeader_eq hs.size, hs.dataSize] at hbig
  generalize hn : (headerGetSize (inputHeader s)).toNat = n
  have hloaded : Holding sz (inputBytes s) { s with input := { s.input with left := n } } :=
    ⟨hs.dataSize, hs.linked, hs.frames, hs.reads, hs.holds⟩
  have hkept := disconnect_kept { s with input := { s.input with left := n } } r
  have hbytes : inputBytes (disconnectAndStartReconnectTimer
      { s with input := { s.input with left := n } } r) = inputBytes s :=
    (inputBytes_congr hkept.input hkept.inputBuf).trans rfl
  refine ⟨hbytes ▸ hkept.holding hloaded, Or.inr ⟨disconnect_down _ r hs.linked, ?_, ?_⟩⟩
  · rw [hbytes]
    intro hnil
    rw [hnil] at hlen
    exact absurd hlen (by decide)
  · rw [hbytes]
    exact parse_too_big hlen hbig

/-- The client waits for a payload. -/
theorem Full.body (hs : Full sz s) (h : loadHeader s = (true, t)) (hpos : t.input.left ≠ 0) :
    Waiting sz t := by
  rcases loadHeader_spec h with ⟨-, rfl⟩ | ⟨hstate, hfit, rfl⟩
  · exact absurd hs.left hpos
  · have hlen := hs.length_header hstate
    refine ⟨⟨hs.dataSize, hs.linked, hs.frames, hs.reads, hs.holds⟩, Or.inl ?_⟩
    rw [hs.dataSize] at hfit
    simp only [inputHeader_eq hs.size] at hfit hpos ⊢
    exact awaits_body hlen hfit (Nat.pos_of_ne_zero hpos)

/-- The message is complete, and is handled. -/
theorem Full.handled (hs : Full sz s) (h : loadHeader s = (true, t)) (hzero : t.input.left = 0)
    (e : ReadEnv) : Waiting sz (resetInputEncoded (handleMessage may e t)) := by
  rcases loadHeader_spec h with ⟨hstate, rfl⟩ | ⟨hstate, hfit, rfl⟩
  · exact handleMessage_waiting e hs.toHolding hs.size (hs.payload hstate)
  · have hlen := hs.length_header hstate
    refine handleMessage_waiting e
      ⟨hs.dataSize, hs.linked, hs.frames, hs.reads, hs.holds⟩ hs.size ?_
    rw [hs.dataSize] at hfit
    simp only [inputHeader_eq hs.size] at hfit hzero
    exact parse_empty hlen hfit hzero

theorem onStcpInput_waiting (hsz : headerSize ≤ sz) (es : List ReadEnv) (hs : Waiting sz s) :
    Waiting sz (onStcpInput may es s) := by
  induction es generalizing s with
  | nil => exact hs.idle hsz
  | cons e es ih =>
    unfold onStcpInput
    split
    · exact hs.idle hsz
    · rename_i b bs hread
      have hcon : s.stcp.connected = true := by
        refine Bool.not_eq_false _ ▸ fun hcon => ?_
        simp [stcpRead, hcon] at hread
      have hle : (b :: bs).length ≤ s.input.left := by
        rw [← hread, stcpRead, if_pos hcon]
        exact List.length_take_le _ _
      have hleft : (readBytes s (b :: bs)).input.left = s.input.left - (b :: bs).length := rfl
      dsimp only
      split_ifs with hmore
      · rw [hleft] at hmore
        exact ih (hs.part hsz hcon (Nat.lt_of_sub_pos hmore))
      · rw [hleft] at hmore
        have hfull := hs.full (b :: bs) hsz hcon (by omega)
        cases hload : loadHeader (readBytes s (b :: bs)) with
        | mk ok t =>
          cases ok with
          | false => exact hfull.reject hload _
          | true =>
            dsimp only
            split_ifs with hzero
            · exact ih (hfull.handled hload hzero e)
            · exact ih (hfull.body hload hzero)

/-! ## Runs -/

/-- A connection is made, and the one before has ended between two messages. -/
theorem onStcpConnected_waiting (ok : Bool) (calls : List Call) (hs : Waiting sz s) (n : ℕ)
    (hb : AtBoundary sz (onStcpConnected may ok calls
      { s with stcp := ⟨n, s.stcp.connected || ok⟩ }).log) :
    Waiting sz (onStcpConnected may ok calls { s with stcp := ⟨n, s.stcp.connected || ok⟩ }) := by
  unfold onStcpConnected at hb ⊢
  cases ok with
  | false =>
    have hsame : Kept s { s with stcp := ⟨n, s.stcp.connected || false⟩ } :=
      ⟨rfl, rfl, fun h => ⟨(Bool.or_false _).symm.trans h, rfl⟩, [], rfl, nofun⟩
    exact (hsame.trans (timerStart_kept _ _)).waiting hs
  | true =>
    rw [if_pos rfl] at hb ⊢
    dsimp only at hb ⊢
    generalize hup : ({ timerStart { s with stcp := ⟨n, s.stcp.connected || true⟩ } .keepAlive with
      pongReceived := true, isConnected := true } : Client).emit .onConnected = t at hb ⊢
    have hkept := callback_kept may calls t
    obtain ⟨evs, hlog, -⟩ := hkept.log
    have hend : pendingBytes sz s.log = [] := by
      rw [hlog, ← hup] at hb
      exact (hb.suffix (List.suffix_append _ _)).1
    have hbytes : inputBytes s = [] := by
      have hrest := hs.holds.rest.symm.trans hend
      rcases hs.waits with hw | hrej
      · rwa [hw.parse] at hrest
      · rwa [hrej.2.2] at hrest
    refine hkept.waiting ?_
    subst hup
    have hin : ∀ e ∈ [Event.timerStart .keepAlive], e.ofInput = false := by simp [Event.ofInput]
    have htimer : FramesOk (.timerStart .keepAlive :: s.log) := hs.frames.append hin
    refine ⟨⟨hs.dataSize, fun _ => rfl, ⟨List.nil_prefix, htimer⟩, ⟨trivial, trivial, hs.reads⟩,
      ?_⟩,
      Or.inl ?_⟩
    · show Holds sz [] [] (inputBytes s)
      rw [hbytes]
      exact holds_nil
    · exact hs.waits.resolve_right fun hrej => hrej.2.1 hbytes

theorem onDisconnected_kept (calls : List Call) (s : Client) :
    Kept s (onDisconnected may calls s) := by
  have hreport := emit_kept s (.onDisconnected s.disconnectReason) rfl
  have hback := hreport.trans (callback_kept may calls _)
  unfold onDisconnected
  dsimp only
  exact hback.trans ((emit_kept _ .returned rfl).trans (timerStart_kept _ _))

theorem onKeepAliveTimeout_kept (s : Client) : Kept s (onKeepAliveTimeout s) := by
  unfold onKeepAliveTimeout
  dsimp only
  split_ifs
  · have htimer := timerStart_kept s .keepAlive
    have hsent : Kept s { timerStart s .keepAlive with pongReceived := false } :=
      ⟨htimer.input, htimer.inputBuf, htimer.connected, htimer.log⟩
    exact hsent.trans (emit_kept _ (.write _ _) rfl)
  · exact disconnect_kept s _

/-- Nothing but a new connection and its input is seen by the receive loop. -/
theorem step_waiting (hsz : headerSize ≤ sz) (x : Step) (hs : Waiting sz s)
    (hb : AtBoundary sz (step may s x).log) : Waiting sz (step may s x) := by
  unfold step at hb ⊢
  cases x with
  | call c => exact ((calls_kept may s).call (Kept.refl s) c).waiting hs
  | connected ok calls =>
    dsimp only at hb ⊢
    split_ifs at hb ⊢
    · exact onStcpConnected_waiting ok calls hs _ hb
    · exact hs
  | disconnected =>
    dsimp only
    split_ifs
    · have hdown : Kept s { s with stcp := { s.stcp with connected := false } } :=
        ⟨rfl, rfl, nofun, [], rfl, nofun⟩
      exact (hdown.trans (disconnect_kept _ _)).waiting hs
    · exact hs
  | input es =>
    dsimp only
    split_ifs
    · exact onStcpInput_waiting hsz es hs
    · exact hs
  | timeout timer =>
    dsimp only
    split_ifs
    · have hexpired : Kept s { s with armed := Function.update s.armed timer false } :=
        ⟨rfl, rfl, fun h => ⟨h, rfl⟩, [], rfl, nofun⟩
      cases timer with
      | keepAlive => exact (hexpired.trans (onKeepAliveTimeout_kept _)).waiting hs
      | reconnect => exact (hexpired.trans (stcpConnect_kept _)).waiting hs
    · exact hs
  | called calls =>
    dsimp only
    split_ifs
    · have htaken : Kept s { s with calls := s.calls - 1 } :=
        ⟨rfl, rfl, fun h => ⟨h, rfl⟩, [], rfl, nofun⟩
      have hcalled := htaken.trans (emit_kept _ .called rfl)
      exact (hcalled.trans (onDisconnected_kept calls _)).waiting hs
    · exact hs

theorem run_waiting (hsz : headerSize ≤ sz) (steps : List Step) (hs : Waiting sz s)
    (hb : AtBoundary sz (run may steps s).log) : Waiting sz (run may steps s) := by
  induction steps using List.reverseRecOn with
  | nil => exact hs
  | append_singleton steps x ih =>
    have hrun : run may (steps ++ [x]) s = step may (run may steps s) x :=
      List.foldl_concat _ _ _ _
    rw [hrun] at hb ⊢
    exact step_waiting hsz x (ih (hb.suffix (step_suffix x _))) hb

theorem clientInit_waiting (m : Client) (sz k : ℕ) : Waiting sz (clientInit m sz k) :=
  ⟨⟨rfl, nofun, trivial, trivial, holds_nil⟩, Or.inl awaits_header⟩

/-- In every run in which every connection that is followed by another one has ended between two
messages, the messages handled on a connection are the first ones of its own stream, and what is
read fits in the input buffer. -/
theorem async_frames_independent (m : Client) (sz outSize : ℕ) (hsz : headerSize ≤ sz)
    (may : Rights)
    (steps : List Step) (hb : AtBoundary sz (run may steps (clientInit m sz outSize)).log) :
    FramesOk (run may steps (clientInit m sz outSize)).log ∧
      ReadsFit sz (run may steps (clientInit m sz outSize)).log := by
  have h := run_waiting hsz steps (clientInit_waiting m sz outSize) hb
  exact ⟨h.frames, h.reads⟩

/-- The next bytes are read, and the callback makes no calls. -/
def bytes (bs : List UInt8) : ReadEnv := ⟨bs, true, true, []⟩

/-- The client is told that the connection has ended, and connects again. -/
def reconnectSteps : List Step :=
  [.disconnected, .called [], .timeout .reconnect, .connected true []]

/-- The first connection ends behind a message, the second one inside one. -/
def wholeSteps : List Step :=
  connectSteps ++ [.input [bytes [2, 0, 0, 1], bytes [20]]] ++ reconnectSteps ++
    [.input [bytes [4, 0], bytes [0, 0], bytes [2]]]

theorem async_frames_independent_wholeSteps :
    FramesOk (run anything wholeSteps (client 16)).log ∧
      ReadsFit 16 (run anything wholeSteps (client 16)).log :=
  async_frames_independent memory 16 64 (by decide) anything wholeSteps (by decide)

/-- The first connection ends inside a header, and the server sends pongs on the second one. -/
def partialSteps : List Step :=
  connectSteps ++ [.input [bytes [2, 0, 0]]] ++ reconnectSteps ++
    [.input [bytes [4], bytes [0, 0, 0, 4]]]

/-- The client closes the first connection when the header announces 256 bytes. -/
def tooBigSteps : List Step :=
  connectSteps ++ [.input [bytes [2, 0, 1, 0]], .called [], .timeout .reconnect, .connected true [],
    .input [bytes [4, 0, 0, 0]]]

/-- A message is made up of bytes of both connections; and the client asks for 256 bytes, to be
stored behind the first four of a buffer of 16. -/
theorem not_framesOk_partialSteps :
    ¬ FramesOk (run anything partialSteps (client 16)).log ∧
      ¬ ReadsFit 16 (run anything tooBigSteps (client 16)).log := by
  refine ⟨fun h => ?_, by decide⟩
  have hhead := h.head
  revert hhead
  decide

end

end Messi.AsyncClient
