import Messi.Base.Trace
import Messi.LinuxClient.Steps
import Messi.Receiver

/-!
# Receiving

What the loop of `process_socket()` makes of a connection's bytes. `Synced` says that the client has
handled the messages that it has received and waits for the rest of the next one, or has rejected
it. The input is reset after a message only, and not when a connection is made: connections are
framed independently if every one that is followed by another ended between two messages
(`frames_independent`).
-/

namespace Messi.LinuxClient

open Framing ByteMemory Relation Trace Sample

/-- The complete messages among the bytes received on the last connection have been handled. -/
def Received (sz : ℕ) (l : List Event) : Prop :=
  handled l = (parse messi (fits sz) (received l)).1.map messageOf

/-- The bytes received after the last complete message. -/
def pendingBytes (sz : ℕ) (l : List Event) : List UInt8 := (parse messi (fits sz) (received l)).2

/-- A connection is made when the one before has ended between two messages. -/
def Event.AtBoundary (sz : ℕ) (l : List Event) : Event → Prop
  | .onConnected .. => pendingBytes sz l = []
  | _ => True

instance (sz : ℕ) (l : List Event) : DecidablePred (Event.AtBoundary sz l) := fun e => by
  rcases e <;> unfold Event.AtBoundary <;> infer_instance

/-- Every connection that is followed by another one has ended between two messages. -/
abbrev AtBoundary (sz : ℕ) : List Event → Prop := Always (Event.AtBoundary sz)

/-- At every moment the messages handled on the connection are the first ones of its own stream. -/
abbrev FramesOk : List Event → Prop :=
  Always fun l e => handled (e :: l) <+: messages (received (e :: l))

/-- Before the client reads again, or is connected again, it has handled the messages that it has
received on its connection. -/
def Event.CaughtUp (sz : ℕ) (l : List Event) : Event → Prop
  | .read .. | .onConnected .. => Received sz l
  | _ => True

/-- Every connection is framed by itself: the messages handled on it are at every moment the first
ones of its own stream, and they are all of those, up to one that is too big, whenever the client
reads again, is connected again, or has returned. -/
structure FramedAlone (sz : ℕ) (l : List Event) : Prop where
  frames : FramesOk l
  caughtUp : Always (Event.CaughtUp sz) l
  received : Received sz l

/-- The input buffer holds a header that announces a message that is too big. -/
structure Rejected (sz : ℕ) (s : Client) : Prop where
  state : s.input.state = .header
  size : headerSize ≤ s.input.size
  unfit : fits sz ((inputBytes s).take headerSize) = false

/-- The client has handled what it has received, but for the part of a message in its buffer. -/
structure Synced (sz : ℕ) (s : Client) : Prop where
  dataSize : s.input.dataSize = sz
  frames : FramesOk s.log
  caughtUp : Always (Event.CaughtUp sz) s.log
  received : Received sz s.log
  bytes : pendingBytes sz s.log = inputBytes s
  waiting : Awaits sz (decide (s.input.state = .payload)) (inputBytes s) s.input.left ∨
    Rejected sz s

/-- A message is being handled. -/
structure Handling (sz : ℕ) (s : Client) : Prop where
  dataSize : s.input.dataSize = sz
  frames : FramesOk s.log
  caughtUp : Always (Event.CaughtUp sz) s.log
  received : Received sz s.log
  bytes : pendingBytes sz s.log = []

section

variable {sz : ℕ} {s t u : Client} {l evs : List Event} {bs : List UInt8} {e : Event} {m : Message}

/-! ## The log -/

theorem received_cons (he : e.ofInput = false) :
    received (e :: l) = received l ∧ handled (e :: l) = handled l := by
  cases e <;> first | exact ⟨rfl, rfl⟩ | cases he

theorem received_append (h : ∀ e ∈ evs, e.ofInput = false) :
    received (evs ++ l) = received l ∧ handled (evs ++ l) = handled l := by
  induction evs with
  | nil => exact ⟨rfl, rfl⟩
  | cons e evs ih =>
    obtain ⟨hr, hh⟩ := ih fun e' he' => h e' (List.mem_cons_of_mem e he')
    obtain ⟨hr', hh'⟩ := received_cons (l := evs ++ l) (h e List.mem_cons_self)
    exact ⟨hr'.trans hr, hh'.trans hh⟩

theorem FramesOk.head (h : FramesOk l) : handled l <+: messages (received l) := by
  cases l with
  | nil => exact List.nil_prefix
  | cons e l => exact h.1

theorem FramesOk.same (h : FramesOk l) (hr : received (e :: l) = received l)
    (hh : handled (e :: l) = handled l) : FramesOk (e :: l) := by
  refine ⟨?_, h⟩
  show handled (e :: l) <+: messages (received (e :: l))
  rw [hr, hh]
  exact h.head

theorem FramesOk.append (h : FramesOk l) (he : ∀ e ∈ evs, e.ofInput = false) :
    FramesOk (evs ++ l) := by
  induction evs with
  | nil => exact h
  | cons e evs ih =>
    obtain ⟨hr, hh⟩ := received_cons (l := evs ++ l) (he e List.mem_cons_self)
    exact (ih fun e' he' => he e' (List.mem_cons_of_mem e he')).same hr hh

theorem FramesOk.read (h : FramesOk l) (fd : ℤ) (offset want : ℕ) (bs : List UInt8) :
    FramesOk (.read fd offset want bs :: l) :=
  ⟨h.head.trans (messages_mono (List.prefix_append _ _)), h⟩

theorem Event.caughtUp_of_kept (he : e.ofInput = false) : Event.CaughtUp sz l e := by
  cases e <;> trivial

theorem Received.prefix_messages (h : Received sz l) : handled l <+: messages (received l) := by
  have hfit : (parse messi (fits sz) (received l)).1 <+: frames messi (received l) :=
    parse_prefix_frames _
  unfold Received at h
  rw [h]
  exact hfit.map messageOf

/-! ## Quiet steps -/

theorem inputBytes_congr (hin : t.input = s.input) (hbuf : t.inputBuf = s.inputBuf) :
    inputBytes t = inputBytes s := by
  unfold inputBytes
  rw [hin, hbuf]

theorem Kept.synced (h : Kept s t) (hs : Synced sz s) : Synced sz t := by
  obtain ⟨evs, hlog, hevs⟩ := h.log
  obtain ⟨hr, hh⟩ := received_append (l := s.log) hevs
  have hbytes := inputBytes_congr h.input h.inputBuf
  constructor
  case dataSize => exact h.input ▸ hs.dataSize
  case frames => exact hlog ▸ hs.frames.append hevs
  case caughtUp =>
    exact hlog ▸ hs.caughtUp.append fun e he _ => Event.caughtUp_of_kept (hevs e he)
  case received =>
    unfold Received
    rw [hlog, hr, hh]
    exact hs.received
  case bytes =>
    unfold pendingBytes
    rw [hlog, hr, hbytes]
    exact hs.bytes
  case waiting =>
    rw [hbytes, h.input]
    refine hs.waiting.imp_right fun hrej => ⟨?_, ?_, ?_⟩
    · exact h.input ▸ hrej.state
    · exact h.input ▸ hrej.size
    · exact hbytes ▸ hrej.unfit

theorem Kept.handling (h : Kept s t) (hs : Handling sz s) : Handling sz t := by
  obtain ⟨evs, hlog, hevs⟩ := h.log
  obtain ⟨hr, hh⟩ := received_append (l := s.log) hevs
  constructor
  case dataSize => exact h.input ▸ hs.dataSize
  case frames => exact hlog ▸ hs.frames.append hevs
  case caughtUp =>
    exact hlog ▸ hs.caughtUp.append fun e he _ => Event.caughtUp_of_kept (hevs e he)
  case received =>
    unfold Received
    rw [hlog, hr, hh]
    exact hs.received
  case bytes =>
    unfold pendingBytes
    rw [hlog, hr]
    exact hs.bytes

/-- A client that has nothing in its buffer waits for a header. -/
theorem Synced.empty (h : Synced sz s) (he : inputBytes s = []) :
    Awaits sz (decide (s.input.state = .payload)) [] s.input.left := by
  have hsize : s.input.size = 0 := by
    have hlen := congrArg List.length he
    unfold inputBytes at hlen
    rwa [length_slice] at hlen
  rcases h.waiting with hw | hrej
  · exact he ▸ hw
  · have hlarge := hrej.size
    rw [hsize] at hlarge
    exact absurd hlarge (by decide)

theorem QuietStep.synced (h : QuietStep s t) (hb : AtBoundary sz t.log) (hs : Synced sz s) :
    Synced sz t := by
  cases h with
  | kept h => exact h.synced hs
  | connected fd pending input inputBuf log =>
    have hbytes := inputBytes_congr input inputBuf
    have hend : pendingBytes sz s.log = [] := by
      rw [log] at hb
      exact hb.1
    have hnil : inputBytes s = [] := hs.bytes.symm.trans hend
    constructor
    case dataSize => exact input ▸ hs.dataSize
    case frames =>
      rw [log]
      exact ⟨List.nil_prefix, hs.frames⟩
    case caughtUp =>
      rw [log]
      exact ⟨hs.received, hs.caughtUp⟩
    case received =>
      rw [log]
      rfl
    case bytes =>
      rw [log, hbytes, hnil]
      rfl
    case waiting =>
      rw [hbytes, hnil, input]
      exact Or.inl (hs.empty hnil)

theorem QuietStep.handling (h : QuietStep s t) (hs : Handling sz s) : Handling sz t := by
  cases h with
  | kept h => exact h.handling hs
  | connected fd pending input inputBuf log =>
    constructor
    case dataSize => exact input ▸ hs.dataSize
    case frames =>
      rw [log]
      exact ⟨List.nil_prefix, hs.frames⟩
    case caughtUp =>
      rw [log]
      exact ⟨hs.received, hs.caughtUp⟩
    case received =>
      rw [log]
      rfl
    case bytes =>
      rw [log]
      rfl

theorem Quiet.handling (h : Quiet s t) (hs : Handling sz s) : Handling sz t := by
  induction h with
  | refl => exact hs
  | tail _ h ih => exact h.handling ih

theorem Handling.emit (hs : Handling sz s) (e : Event) (hc : e.CaughtUp sz s.log)
    (hr : LinuxClient.received (e :: s.log) = LinuxClient.received s.log)
    (hh : handled (e :: s.log) = handled s.log) : Handling sz (s.emit e) := by
  constructor
  case dataSize => exact hs.dataSize
  case frames => exact hs.frames.same hr hh
  case caughtUp => exact ⟨hc, hs.caughtUp⟩
  case received =>
    show handled (e :: s.log) = _
    rw [hh, Client.emit_log, hr]
    exact hs.received
  case bytes =>
    show (parse messi (fits sz) (LinuxClient.received (e :: s.log))).2 = []
    rw [hr]
    exact hs.bytes

theorem Handled.handling (h : Handled m s t) (hs : Handling sz s) : Handling sz t := by
  cases h with
  | other type h => exact h.handling hs
  | newFailed type h => exact h ▸ hs.emit .newFailed trivial rfl rfl
  | decode type h => exact h.handling (hs.emit (.decode m.2) trivial rfl rfl)
  | onMessage type h =>
    exact h.handling ((hs.emit (.decode m.2) trivial rfl rfl).emit (.onMessage m.2) trivial rfl rfl)

/-! ## Turns of the loop -/

/-- The input buffer holds what has been received after the handled messages. -/
def Buffered (sz : ℕ) (s : Client) : Prop :=
  ∃ fs, handled s.log = fs.map messageOf ∧ parse messi (fits sz) (received s.log) =
    (fs ++ (parse messi (fits sz) (inputBytes s)).1, (parse messi (fits sz) (inputBytes s)).2)

theorem inputBytes_readBytes (s : Client) (bs : List UInt8) :
    inputBytes (readBytes s bs) = inputBytes s ++ bs := by
  have happ := slice_write_append s.inputBuf 0 s.input.size bs
  rw [Nat.zero_add] at happ
  exact happ

theorem length_inputBytes (s : Client) : (inputBytes s).length = s.input.size := length_slice _ _ _

/-- The header at the start of the buffer. -/
theorem inputHeader_eq (h : headerSize ≤ s.input.size) :
    inputHeader s = Header.ofBytes (inputBytes s) := by
  unfold inputHeader
  rw [← take_slice s.inputBuf 0 h]
  exact ofBytes_take _

/-- Bytes have been read. -/
theorem Synced.readBytes (hs : Synced sz s) (bs : List UInt8) : Buffered sz (readBytes s bs) := by
  refine ⟨(parse messi (fits sz) (LinuxClient.received s.log)).1, hs.received, ?_⟩
  show parse messi (fits sz) (LinuxClient.received s.log ++ bs) = _
  rw [parse_append, inputBytes_readBytes, ← hs.bytes]
  rfl

theorem Rejected.parse (h : Rejected sz s) :
    Framing.parse messi (fits sz) (inputBytes s) = ([], inputBytes s) :=
  parse_of_not_fits h.unfit

theorem Rejected.readBytes (h : Rejected sz s) (bs : List UInt8) :
    Rejected sz (readBytes s bs) := by
  refine ⟨h.state, Nat.le_trans h.size (Nat.le_add_right _ _), ?_⟩
  rw [inputBytes_readBytes, List.take_append_of_le_length]
  · exact h.unfit
  · rw [length_inputBytes]
    exact h.size

/-- The client waits again, or has rejected a message. -/
theorem Buffered.synced (h : Buffered sz s) (hd : s.input.dataSize = sz) (hf : FramesOk s.log)
    (hc : Always (Event.CaughtUp sz) s.log)
    (hw : Awaits sz (decide (s.input.state = .payload)) (inputBytes s) s.input.left ∨
      Rejected sz s) : Synced sz s := by
  obtain ⟨fs, hh, hr⟩ := h
  have hparse : parse messi (fits sz) (inputBytes s) = ([], inputBytes s) := by
    rcases hw with hw | hrej
    · exact hw.parse
    · exact hrej.parse
  rw [hparse, List.append_nil] at hr
  refine ⟨hd, hf, hc, ?_, ?_, hw⟩
  · unfold Received
    rw [hr]
    exact hh
  · unfold pendingBytes
    rw [hr]

/-- The message in the buffer is complete. -/
theorem Buffered.handling (h : Buffered sz s) (hd : s.input.dataSize = sz) (hf : FramesOk s.log)
    (hc : Always (Event.CaughtUp sz) s.log) (hsize : headerSize ≤ s.input.size)
    (hparse : parse messi (fits sz) (inputBytes s) =
      ([((inputBytes s).take headerSize, (inputBytes s).drop headerSize)], [])) :
    Handling sz
      (s.emit (.handleMessage ((inputHeader s).type, (inputBytes s).drop headerSize))) := by
  obtain ⟨fs, hh, hr⟩ := h
  rw [hparse] at hr
  have htype : (inputHeader s).type = ((inputBytes s).take headerSize).getD 0 0 := by
    rw [inputHeader_eq hsize, ← ofBytes_take]
    rfl
  have hrec : Received sz (.handleMessage ((inputHeader s).type,
      (inputBytes s).drop headerSize) :: s.log) := by
    show handled s.log ++ [_] = (parse messi (fits sz) (LinuxClient.received s.log)).1.map messageOf
    rw [hr, hh, List.map_append, htype]
    rfl
  refine ⟨hd, ⟨hrec.prefix_messages, hf⟩, ⟨trivial, hc⟩, hrec, ?_⟩
  show (parse messi (fits sz) (LinuxClient.received s.log)).2 = []
  rw [hr]

/-- A part of a message has been read. -/
theorem Synced.part (hs : Synced sz s) (hlt : bs.length < s.input.left) :
    Synced sz (LinuxClient.readBytes s bs) := by
  refine (hs.readBytes bs).synced hs.dataSize (hs.frames.read _ _ _ bs)
    ⟨hs.received, hs.caughtUp⟩ ?_
  refine hs.waiting.imp (fun hw => ?_) fun hrej => hrej.readBytes bs
  rw [inputBytes_readBytes]
  exact hw.append hlt

theorem Synced.idle (hs : Synced sz s) : Synced sz (LinuxClient.readBytes s []) := by
  refine (hs.readBytes []).synced hs.dataSize (hs.frames.read _ _ _ [])
    ⟨hs.received, hs.caughtUp⟩ ?_
  refine hs.waiting.imp (fun hw => ?_) fun hrej => hrej.readBytes []
  rw [inputBytes_readBytes]
  exact hw.append hw.pos

/-- All that was left has been read: a header, or a payload, or more of what was rejected. -/
structure Complete (sz : ℕ) (s : Client) : Prop where
  dataSize : s.input.dataSize = sz
  frames : FramesOk s.log
  caughtUp : Always (Event.CaughtUp sz) s.log
  buffered : Buffered sz s
  left : s.input.left = 0
  size : headerSize ≤ s.input.size
  header : s.input.state = .header → s.input.size = headerSize ∨ Rejected sz s
  payload : s.input.state = .payload → parse messi (fits sz) (inputBytes s) =
    ([((inputBytes s).take headerSize, (inputBytes s).drop headerSize)], [])

theorem Synced.complete (hs : Synced sz s) (hlen : bs.length = s.input.left) :
    Complete sz (LinuxClient.readBytes s bs) := by
  have hleft : s.input.left - bs.length = 0 := Nat.sub_eq_zero_of_le hlen.ge
  have hsize : (LinuxClient.readBytes s bs).input.size = (inputBytes s ++ bs).length := by
    rw [← inputBytes_readBytes, length_inputBytes]
  refine ⟨hs.dataSize, hs.frames.read _ _ _ bs, ⟨hs.received, hs.caughtUp⟩, hs.readBytes bs, hleft,
    ?_, fun hstate => ?_, fun hstate => ?_⟩
  · rcases hs.waiting with hw | hrej
    · rw [hsize]
      cases hstate : s.input.state with
      | header =>
        rw [hstate] at hw
        exact Nat.le_of_eq (Awaits.header_length hw hlen).symm
      | payload =>
        rw [hstate] at hw
        exact Nat.le_trans hw.2.1 (by simp)
    · exact (hrej.readBytes bs).size
  · have hstate' : s.input.state = .header := hstate
    refine hs.waiting.imp (fun hw => ?_) fun hrej => hrej.readBytes bs
    rw [hstate'] at hw
    rw [hsize]
    exact Awaits.header_length hw hlen
  · have hstate' : s.input.state = .payload := hstate
    rcases hs.waiting with hw | hrej
    · rw [hstate'] at hw
      rw [inputBytes_readBytes]
      exact Awaits.parse_full hw hlen
    · exact absurd (hrej.state.symm.trans hstate') nofun

/-- A message that does not fit is rejected. -/
theorem Complete.reject (hs : Complete sz s) (h : loadHeader s = (false, t)) : Synced sz t := by
  obtain ⟨hstate, hbig, rfl⟩ := loadHeader_spec h
  rw [inputHeader_eq hs.size, hs.dataSize] at hbig
  have hframes : FramesOk (.tooBig :: s.log) := hs.frames.same rfl rfl
  refine Buffered.synced hs.buffered hs.dataSize hframes ⟨trivial, hs.caughtUp⟩
    (Or.inr ⟨hstate, hs.size, ?_⟩)
  show decide ((headerGetSize (Header.ofBytes ((inputBytes s).take headerSize))).toNat + headerSize
    ≤ sz) = false
  rw [ofBytes_take]
  exact decide_eq_false (Nat.not_le.2 hbig)

/-- A header that has not been rejected is just a header. -/
theorem Complete.length_header (hs : Complete sz s) (hstate : s.input.state = .header)
    (hfit : (headerGetSize (inputHeader s)).toNat + headerSize ≤ s.input.dataSize) :
    (inputBytes s).length = headerSize := by
  rw [length_inputBytes]
  refine (hs.header hstate).resolve_right fun hrej => ?_
  have hunfit := hrej.unfit
  have hbig : ¬ (headerGetSize (Header.ofBytes ((inputBytes s).take headerSize))).toNat +
    headerSize ≤ sz := of_decide_eq_false hunfit
  rw [ofBytes_take, ← inputHeader_eq hs.size, ← hs.dataSize] at hbig
  exact hbig hfit

/-- The client waits for a payload. -/
theorem Complete.body (hs : Complete sz s) (h : loadHeader s = (true, t))
    (hpos : 0 < t.input.left) :
    Synced sz t := by
  rcases loadHeader_spec h with ⟨-, rfl⟩ | ⟨hstate, hfit, rfl⟩
  · exact absurd hs.left (Nat.pos_iff_ne_zero.1 hpos)
  · have hlen := hs.length_header hstate hfit
    refine Buffered.synced hs.buffered hs.dataSize hs.frames hs.caughtUp (Or.inl ?_)
    rw [hs.dataSize] at hfit
    simp only [inputHeader_eq hs.size] at hfit hpos ⊢
    exact awaits_body hlen hfit hpos

/-- The message is complete, and is to be handled. -/
theorem Complete.message (hs : Complete sz s) (h : loadHeader s = (true, t))
    (hzero : t.input.left = 0) :
    Handling sz
      (t.emit (.handleMessage ((inputHeader t).type, (inputBytes t).drop headerSize))) := by
  rcases loadHeader_spec h with ⟨hstate, rfl⟩ | ⟨hstate, hfit, rfl⟩
  · exact hs.buffered.handling hs.dataSize hs.frames hs.caughtUp hs.size (hs.payload hstate)
  · have hlen := hs.length_header hstate hfit
    refine Buffered.handling hs.buffered hs.dataSize hs.frames hs.caughtUp hs.size ?_
    rw [hs.dataSize] at hfit
    simp only [inputHeader_eq hs.size] at hfit hzero
    exact parse_empty hlen hfit hzero

/-- After a message the client waits for a header. -/
theorem Handling.reset (hs : Handling sz s) : Synced sz (resetInputEncoded s) :=
  ⟨hs.dataSize, hs.frames, hs.caughtUp, hs.received, hs.bytes, Or.inl awaits_header⟩

theorem Step.synced (h : Step s t) (hb : AtBoundary sz t.log) (hs : Synced sz s) : Synced sz t := by
  cases h with
  | quiet h => exact h.synced hb hs
  | idle h => exact h ▸ hs.idle
  | part bs fd lt h => exact h ▸ hs.part lt
  | reject bs fd length h => exact (hs.complete length).reject h
  | body bs fd length h pos => exact (hs.complete length).body h pos
  | message bs u w m fd length load zero eq h reset =>
    subst eq reset
    exact (h.handling ((hs.complete length).message load zero)).reset

theorem Steps.synced (h : Steps s t) (hb : AtBoundary sz t.log) (hs : Synced sz s) :
    Synced sz t := by
  induction h with
  | refl => exact hs
  | tail _ h ih => exact h.synced hb (ih (hb.suffix h.log_suffix))

theorem clientInit_synced (m : Client) (sz k : ℕ) : Synced sz (clientInit m sz k) :=
  ⟨rfl, trivial, trivial, rfl, rfl, Or.inl awaits_header⟩

/-- In every run in which every connection that is followed by another one has ended between two
messages, what is handled on a connection is what its own stream says, whatever was received on the
connections before. -/
theorem frames_independent (m : Client) (sz k : ℕ) (top inner : Rights) (n : ℕ) (calls : List Call)
    (hb : AtBoundary sz (run top inner n calls (clientInit m sz k)).log) :
    FramedAlone sz (run top inner n calls (clientInit m sz k)).log :=
  have h := (run_steps top inner n calls _).synced hb (clientInit_synced m sz k)
  ⟨h.frames, h.caughtUp, h.received⟩

/-- The first connection ends behind a message, the second one in the middle of one. -/
def wholeCalls : List Call :=
  [.start (accepts 5 6),
    receive 5 [read (.data [2, 0, 0, 1]) [], read (.data [20]) [], read (.data []) []] 7,
    reconnect 7 5 6,
      receive 5 [read (.data [4, 0]) [], read (.data [0, 0]) [], read (.data [2]) []] 7]

set_option maxRecDepth 4000 in
theorem frames_independent_wholeCalls :
    FramedAlone 16 (run anything anything 1 wholeCalls (client 16)).log :=
  frames_independent memory 16 64 anything anything 1 wholeCalls (by decide)

/-- The first connection ends in the middle of a header, and the server sends pongs on the second
one. -/
def partialCalls : List Call :=
  [.start (accepts 5 6), receive 5 [read (.data [2, 0, 0]) [], read (.data []) []] 7,
    reconnect 7 5 6, receive 5 [read (.data [4]) [], read (.data [0, 0, 0, 4]) []] 7]

set_option maxRecDepth 4000 in
/-- A message is made up of bytes of both connections. -/
theorem not_framesOk_partialCalls :
    ¬ FramesOk (run anything anything 1 partialCalls (client 16)).log := by
  intro h
  have hhead := h.head
  revert hhead
  decide

end

end Messi.LinuxClient
