import Messi.Header

/-!
# What a receiver holds

A receiver that has handled some messages of a stream holds what follows them in its buffer
(`Holds`), whatever it has been reading in between. The receive loops read to the end of the buffer,
and handle the message in the buffer when it is complete.
-/

namespace Messi

open Framing

/-- Of the stream `rs` the messages `hs` have been handled, and the bytes `bs` are left. -/
def Holds (sz : ℕ) (rs : List UInt8) (hs : List Message) (bs : List UInt8) : Prop :=
  ∃ fs, hs = fs.map messageOf ∧ parse messi (fits sz) rs =
    (fs ++ (parse messi (fits sz) bs).1, (parse messi (fits sz) bs).2)

section

variable {sz : ℕ} {rs bs cs : List UInt8} {hs : List Message} {f : Frame UInt8}

theorem holds_nil : Holds sz [] [] [] := ⟨[], rfl, rfl⟩

/-- Bytes are received. -/
theorem Holds.append (h : Holds sz rs hs bs) (as : List UInt8) :
    Holds sz (rs ++ as) hs (bs ++ as) := by
  obtain ⟨fs, hfs, hr⟩ := h
  refine ⟨fs, hfs, ?_⟩
  rw [parse_append, parse_append bs as, hr, List.append_assoc]

/-- The message in the buffer is handled. -/
theorem Holds.message (h : Holds sz rs hs bs) (hp : parse messi (fits sz) bs = ([f], [])) :
    Holds sz rs (hs ++ [messageOf f]) [] := by
  obtain ⟨fs, hfs, hr⟩ := h
  refine ⟨fs ++ [f], ?_, ?_⟩
  · rw [hfs, List.map_append]
    rfl
  · rw [hr, hp]
    simp

theorem Holds.handled (h : Holds sz rs hs bs) (hp : parse messi (fits sz) bs = ([], cs)) :
    hs = (parse messi (fits sz) rs).1.map messageOf := by
  obtain ⟨fs, hfs, hr⟩ := h
  rw [hr, hp, hfs, List.append_nil]

theorem Holds.rest (h : Holds sz rs hs bs) :
    (parse messi (fits sz) rs).2 = (parse messi (fits sz) bs).2 := by
  obtain ⟨fs, -, hr⟩ := h
  rw [hr]

/-- The messages of a longer stream begin with those of a shorter one. -/
theorem messages_mono (h : bs <+: cs) : messages bs <+: messages cs :=
  (parse_frames_mono h).map messageOf

theorem Holds.prefix_messages (h : Holds sz rs hs bs) : hs <+: messages rs := by
  obtain ⟨fs, hfs, hr⟩ := h
  have hfit : (parse messi (fits sz) rs).1 <+: frames messi rs := parse_prefix_frames _
  rw [hr] at hfit
  rw [hfs]
  exact ((List.prefix_append _ _).trans hfit).map messageOf

end

/-! ## What becomes of a stream -/

/-- The stream goes on with a header that announces a message that does not fit in the buffer. -/
def tooBig (sz : ℕ) (bs : List UInt8) : Bool :=
  decide (headerSize ≤ bs.length) && !fits sz (bs.take headerSize)

/-- The messages that a stream contains completely, up to a header that is rejected. -/
def framed (sz : ℕ) (bs : List UInt8) : List Message := (parse messi (fits sz) bs).1.map messageOf

/-- A stream contains a frame that is rejected: its message is refused, or it is too big. -/
def Rejects (sz : ℕ) (ok : Message → Bool) (bs : List UInt8) : Prop :=
  (∃ m ∈ framed sz bs, ok m = false) ∨ tooBig sz (parse messi (fits sz) bs).2 = true

instance (sz : ℕ) (ok : Message → Bool) (bs : List UInt8) : Decidable (Rejects sz ok bs) := by
  unfold Rejects
  infer_instance

/-- Of the stream everything has been read, unless a frame in what has been read is rejected. -/
def ReadUp (sz : ℕ) (ok : Message → Bool) (stream rs : List UInt8) : Prop :=
  rs <+: stream ∧ (rs = stream ∨ Rejects sz ok rs)

section

variable {sz : ℕ} {ok : Message → Bool} {rs bs as cs stream : List UInt8} {hs : List Message}

theorem parse_of_tooBig (h : tooBig sz bs = true) :
    Framing.parse messi (fits sz) bs = ([], bs) := by
  have hfit := (Bool.and_eq_true _ _ ▸ h).2
  exact parse_of_not_fits (by simpa using hfit)

theorem tooBig_append (h : tooBig sz bs = true) (as : List UInt8) :
    tooBig sz (bs ++ as) = true := by
  obtain ⟨hlen, hfit⟩ := Bool.and_eq_true_iff.1 h
  have hlen := of_decide_eq_true hlen
  unfold tooBig
  rw [List.take_append_of_le_length hlen, hfit, Bool.and_true, List.length_append]
  exact decide_eq_true (Nat.le_add_right_of_le hlen)

/-- A receiver that waits has not been sent a message that is too big. -/
theorem Awaits.not_tooBig {body : Bool} {left : ℕ} (h : Awaits sz body bs left) :
    tooBig sz bs = false := by
  by_contra hbig
  obtain ⟨hlen, hfit⟩ := Bool.and_eq_true_iff.1 (Bool.not_eq_false _ ▸ hbig)
  have hlen := of_decide_eq_true hlen
  cases body with
  | false =>
    have hall : bs.length + left = headerSize := h.2
    have hpos : 0 < left := h.1
    omega
  | true =>
    have hfits : fits sz (bs.take headerSize) = true := h.2.2.1
    rw [hfits] at hfit
    cases hfit

theorem Holds.handled_eq (h : Holds sz rs hs bs) (hp : parse messi (fits sz) bs = ([], cs)) :
    hs = framed sz rs :=
  h.handled hp

theorem framed_prefix_messages (sz : ℕ) (bs : List UInt8) : framed sz bs <+: messages bs := by
  have hfit : (parse messi (fits sz) bs).1 <+: frames messi bs := parse_prefix_frames _
  exact hfit.map messageOf

theorem Rejects.append (h : Rejects sz ok rs) (as : List UInt8) : Rejects sz ok (rs ++ as) := by
  unfold Rejects framed
  rw [parse_append]
  refine h.imp (fun hm => ?_) fun hbig => ?_
  · obtain ⟨m, hm, hok⟩ := hm
    exact ⟨m, by rw [List.map_append]; exact List.mem_append_left _ hm, hok⟩
  · rw [parse_of_tooBig (tooBig_append hbig as)]
    exact tooBig_append hbig as

theorem Rejects.mono (h : Rejects sz ok rs) (hp : rs <+: bs) : Rejects sz ok bs := by
  obtain ⟨as, rfl⟩ := hp
  exact h.append as

theorem ReadUp.eq_of_not_rejects (h : ReadUp sz ok stream rs) (hno : ¬ Rejects sz ok stream) :
    rs = stream :=
  h.2.resolve_right fun hr => hno (hr.mono h.1)

theorem ReadUp.rejects (h : ReadUp sz ok stream rs) (hr : Rejects sz ok stream) :
    Rejects sz ok rs := by
  rcases h.2 with rfl | hrs
  · exact hr
  · exact hrs

/-- A receiver that waits, and has refused nothing, has not been sent anything to be rejected. -/
theorem Holds.not_rejects {body : Bool} {left : ℕ} (h : Holds sz rs hs bs)
    (hw : Awaits sz body bs left) (hok : ∀ m ∈ hs, ok m = true) : ¬ Rejects sz ok rs := by
  rintro (⟨m, hm, hbad⟩ | hbig)
  · rw [← h.handled_eq hw.parse] at hm
    rw [hok m hm] at hbad
    cases hbad
  · rw [h.rest, hw.parse, hw.not_tooBig] at hbig
    cases hbig

end

/-! ## Turns of a receive loop -/

/-- What a receive loop goes by: the bytes in its buffer, whether their header has been accepted,
and how many bytes are left to be read. -/
structure Receiver where
  bytes : List UInt8
  payload : Bool
  left : ℕ

namespace Receiver

/-- Bytes have been read. -/
def read (r : Receiver) (bs : List UInt8) : Receiver :=
  ⟨r.bytes ++ bs, r.payload, r.left - bs.length⟩

/-- The size of the payload that the header announces. -/
def announced (r : Receiver) : ℕ := (headerGetSize (Header.ofBytes r.bytes)).toNat

/-- The header is accepted if the message fits in the buffer. -/
def load (sz : ℕ) (r : Receiver) : Option Receiver :=
  if r.payload then some r
  else if sz < r.announced + headerSize then none
  else some ⟨r.bytes, true, r.announced⟩

/-- The receiver waits for the rest of a header, or of a payload. -/
def Waits (sz : ℕ) (r : Receiver) : Prop := Awaits sz r.payload r.bytes r.left

/-- All that was left of a header, or of a payload, has been read. -/
structure Full (sz : ℕ) (r : Receiver) : Prop where
  left : r.left = 0
  size : headerSize ≤ r.bytes.length
  header : r.payload = false → r.bytes.length = headerSize
  payload : r.payload = true → parse messi (fits sz) r.bytes =
    ([(r.bytes.take headerSize, r.bytes.drop headerSize)], [])

section

variable {sz : ℕ} {r r' : Receiver} {bs : List UInt8}

theorem waits_fresh : Waits sz ⟨[], false, headerSize⟩ := awaits_header

theorem Waits.part (h : Waits sz r) (hlt : bs.length < r.left) : Waits sz (r.read bs) :=
  Awaits.append h hlt

theorem Waits.full (h : Waits sz r) (hlen : bs.length = r.left) : Full sz (r.read bs) := by
  obtain ⟨held, body, left⟩ := r
  have hleft : left - bs.length = 0 := Nat.sub_eq_zero_of_le hlen.ge
  cases body with
  | false =>
    have hheader : (held ++ bs).length = headerSize := Awaits.header_length h hlen
    exact ⟨hleft, hheader.ge, fun _ => hheader, nofun⟩
  | true =>
    refine ⟨hleft, ?_, nofun, fun _ => Awaits.parse_full h hlen⟩
    have hheld : headerSize ≤ held.length := h.2.1
    exact hheld.trans (by simp [read])

/-- The message does not fit in the buffer. -/
theorem Full.reject (h : Full sz r) (hl : r.load sz = none) :
    r.bytes.length = headerSize ∧ sz < r.announced + headerSize ∧ tooBig sz r.bytes = true := by
  unfold load at hl
  split_ifs at hl with hbody hbig
  have hlen := h.header (by simpa using hbody)
  refine ⟨hlen, hbig, ?_⟩
  unfold tooBig
  rw [List.take_of_length_le hlen.le, hlen]
  have hfit : fits sz r.bytes = false := decide_eq_false (Nat.not_le.2 hbig)
  rw [hfit]
  rfl

/-- The header is accepted, and a payload is to follow. -/
theorem Full.body (h : Full sz r) (hl : r.load sz = some r') (hpos : r'.left ≠ 0) :
    r'.bytes = r.bytes ∧ Waits sz r' := by
  unfold load at hl
  split_ifs at hl with hbody hbig
  · cases hl
    exact absurd h.left hpos
  · cases hl
    have hlen := h.header (by simpa using hbody)
    exact ⟨rfl, awaits_body hlen (not_lt.1 hbig) (Nat.pos_of_ne_zero hpos)⟩

/-- The message is complete. -/
theorem Full.message (h : Full sz r) (hl : r.load sz = some r') (hzero : r'.left = 0) :
    r'.bytes = r.bytes ∧ parse messi (fits sz) r.bytes =
      ([(r.bytes.take headerSize, r.bytes.drop headerSize)], []) := by
  unfold load at hl
  split_ifs at hl with hbody hbig
  · cases hl
    exact ⟨rfl, h.payload hbody⟩
  · cases hl
    have hlen := h.header (by simpa using hbody)
    exact ⟨rfl, parse_empty hlen (not_lt.1 hbig) hzero⟩

/-! ## Progress -/

/-- Of the stream `rs` the messages `hs` have been handled, none of them refused, and the receiver
waits for the rest of the next one. -/
structure Progress (sz : ℕ) (ok : Message → Bool) (rs : List UInt8) (hs : List Message)
    (r : Receiver) : Prop where
  holds : Holds sz rs hs r.bytes
  waits : r.Waits sz
  accepted : ∀ m ∈ hs, ok m = true

variable {ok : Message → Bool} {rs : List UInt8} {hs : List Message}

theorem progress_fresh : Progress sz ok [] [] ⟨[], false, headerSize⟩ :=
  ⟨holds_nil, waits_fresh, nofun⟩

theorem Progress.handled_eq (h : Progress sz ok rs hs r) : hs = framed sz rs :=
  h.holds.handled_eq (Awaits.parse h.waits)

theorem Progress.not_rejects (h : Progress sz ok rs hs r) : ¬ Rejects sz ok rs :=
  h.holds.not_rejects h.waits h.accepted

theorem Progress.part (h : Progress sz ok rs hs r) (hlt : bs.length < r.left) :
    Progress sz ok (rs ++ bs) hs (r.read bs) :=
  ⟨h.holds.append bs, h.waits.part hlt, h.accepted⟩

/-- The stream is rejected at its last header. -/
theorem Progress.reject (h : Progress sz ok rs hs r) (hlen : bs.length = r.left)
    (hl : (r.read bs).load sz = none) :
    tooBig sz (parse messi (fits sz) (rs ++ bs)).2 = true := by
  have hbig : tooBig sz (r.bytes ++ bs) = true := ((h.waits.full hlen).reject hl).2.2
  rw [(h.holds.append bs).rest, parse_of_tooBig hbig]
  exact hbig

theorem Progress.body (h : Progress sz ok rs hs r) (hlen : bs.length = r.left)
    (hl : (r.read bs).load sz = some r') (hpos : r'.left ≠ 0) :
    Progress sz ok (rs ++ bs) hs r' := by
  obtain ⟨hbytes, hwaits⟩ := (h.waits.full hlen).body hl hpos
  refine ⟨?_, hwaits, h.accepted⟩
  rw [hbytes]
  exact h.holds.append bs

/-- The message in the buffer. -/
def message (r : Receiver) : Message := ((Header.ofBytes r.bytes).type, r.bytes.drop headerSize)

/-- The stream ends with a message. -/
theorem Progress.message (h : Progress sz ok rs hs r) (hlen : bs.length = r.left)
    (hl : (r.read bs).load sz = some r') (hzero : r'.left = 0) :
    Holds sz (rs ++ bs) (hs ++ [r'.message]) [] := by
  obtain ⟨hbytes, hparse⟩ := (h.waits.full hlen).message hl hzero
  have hm := (h.holds.append bs).message hparse
  have heq : r'.message = messageOf ((r.bytes ++ bs).take headerSize,
      (r.bytes ++ bs).drop headerSize) := by
    unfold Receiver.message
    rw [hbytes, ← ofBytes_take]
    rfl
  rw [heq]
  exact hm

/-- If the stream is rejected at its last header, no message has been completed. -/
theorem Progress.handled_of_tooBig (h : Progress sz ok rs hs r) (hle : bs.length ≤ r.left)
    (hbig : tooBig sz (parse messi (fits sz) (rs ++ bs)).2 = true) : hs = framed sz (rs ++ bs) := by
  rcases Nat.lt_or_eq_of_le hle with hlt | hlen
  · exact absurd (Or.inr hbig) (h.part hlt).not_rejects
  · cases hl : (r.read bs).load sz with
    | none =>
      have hheader : tooBig sz (r.bytes ++ bs) = true := ((h.waits.full hlen).reject hl).2.2
      exact (h.holds.append bs).handled_eq (parse_of_tooBig hheader)
    | some r' =>
      by_cases hzero : r'.left = 0
      · have hrest := (h.message hlen hl hzero).rest
        rw [hrest] at hbig
        cases hbig
      · exact absurd (Or.inr hbig) (h.body hlen hl hzero).not_rejects

/-- The message is accepted, and the receiver waits for the next one. -/
theorem Progress.next (h : Progress sz ok rs hs r) (hlen : bs.length = r.left)
    (hl : (r.read bs).load sz = some r') (hzero : r'.left = 0) (hok : ok r'.message = true) :
    Progress sz ok (rs ++ bs) (hs ++ [r'.message]) ⟨[], false, headerSize⟩ := by
  refine ⟨h.message hlen hl hzero, waits_fresh, fun m hm => ?_⟩
  rcases List.mem_append.1 hm with hm | hm
  · exact h.accepted m hm
  · rw [List.mem_singleton.1 hm]
    exact hok

/-- The message is refused. -/
theorem Progress.refuse (h : Progress sz ok rs hs r) (hlen : bs.length = r.left)
    (hl : (r.read bs).load sz = some r') (hzero : r'.left = 0) (hbad : ok r'.message = false) :
    Rejects sz ok (rs ++ bs) := by
  have hm := (h.message hlen hl hzero).handled_eq parse_nil
  refine Or.inl ⟨r'.message, ?_, hbad⟩
  rw [← hm]
  exact List.mem_append_right _ List.mem_cons_self

end

end Receiver

end Messi
