import Messi.Receiver

/-!
# What a client delivers

A client hands the user messages of a connection to its user and takes note of the pongs, skips the
messages of other types, and delivers nothing behind a user message that it cannot decode
(`deliver`). `Delivering` is what holds of its receive loop between two turns: whichever turn comes
next, the client goes on delivering, or what it has delivered is what its stream contains.
-/

namespace Messi

open Framing

/-- What a client delivers. -/
inductive Delivery where
  /-- A user message is handed to the user. -/
  | user (payload : List UInt8)
  | pong
  deriving DecidableEq

/-- What is delivered of some messages, if the user messages are decoded as `decode` says. -/
def deliver (decode : List UInt8 → Bool) : List Message → List Delivery
  | [] => []
  | m :: ms =>
    if m.1 = messageTypeServerToClientUser then
      if decode m.2 then .user m.2 :: deliver decode ms else []
    else if m.1 = messageTypePong then .pong :: deliver decode ms
    else deliver decode ms

/-- The client goes on after this message. -/
def decodable (decode : List UInt8 → Bool) (m : Message) : Bool :=
  m.1 ≠ messageTypeServerToClientUser || decode m.2

/-- Every message of the stream fits in a buffer of `sz` bytes. -/
def AllFit (sz : ℕ) (stream : List UInt8) : Prop :=
  ∀ m ∈ messages stream, headerSize + m.2.length ≤ sz

instance (sz : ℕ) (stream : List UInt8) : Decidable (AllFit sz stream) := by
  unfold AllFit
  infer_instance

/-- A size that no message exceeds. -/
def noLimit : ℕ := 2 ^ 24 + headerSize

/-- Of the stream so much has been taken, frame by frame, that the next header or payload is not
there completely; or a message that has been taken cannot be decoded. -/
def TakenOut (decode : List UInt8 → Bool) (stream rs : List UInt8) : Prop :=
  rs <+: stream ∧ (stream.length < rs.length + missing messi (parse messi (fun _ => true) rs).2 ∨
    ∃ m ∈ messages rs, decodable decode m = false)

instance (decode : List UInt8 → Bool) (stream rs : List UInt8) :
    Decidable (TakenOut decode stream rs) := by
  unfold TakenOut
  infer_instance

section

variable {sz : ℕ} {decode : List UInt8 → Bool} {ms ns : List Message} {m : Message}
  {stream rs bs : List UInt8}

/-! ## Messages -/

theorem deliver_append (h : ∀ m ∈ ms, decodable decode m = true) :
    deliver decode (ms ++ ns) = deliver decode ms ++ deliver decode ns := by
  induction ms with
  | nil => rfl
  | cons m ms ih =>
    have hrest := ih fun m' hm' => h m' (List.mem_cons_of_mem m hm')
    have hm := h m List.mem_cons_self
    unfold decodable at hm
    rw [List.cons_append, deliver, deliver, hrest]
    split_ifs with huser hdec
    · rfl
    · simp [huser, hdec] at hm
    · rfl
    · rfl

/-- Nothing is delivered behind a message that cannot be decoded. -/
theorem deliver_append_of_bad (h : ∃ m ∈ ms, decodable decode m = false) :
    deliver decode (ms ++ ns) = deliver decode ms := by
  induction ms with
  | nil =>
    obtain ⟨m, hm, -⟩ := h
    cases hm
  | cons m ms ih =>
    rw [List.cons_append, deliver, deliver]
    by_cases hm : decodable decode m = true
    · rw [ih]
      obtain ⟨m', hm', hbad⟩ := h
      rcases List.mem_cons.1 hm' with rfl | hm'
      · rw [hm] at hbad
        cases hbad
      · exact ⟨m', hm', hbad⟩
    · obtain ⟨huser, hdec⟩ : m.1 = messageTypeServerToClientUser ∧ decode m.2 = false := by
        simpa [decodable] using hm
      rw [if_pos huser, if_pos huser, hdec]
      rfl

theorem deliver_bad (h : decodable decode m = false) : deliver decode [m] = [] := by
  obtain ⟨huser, hdec⟩ : m.1 = messageTypeServerToClientUser ∧ decode m.2 = false := by
    simpa [decodable] using h
  simp [deliver, huser, hdec]

/-! ## Streams -/

theorem framed_eq_messages (h : AllFit sz stream) : framed sz stream = messages stream := by
  unfold framed messages
  rw [parse_eq_frames fun f hf => ?_]
  have hfit := h (messageOf f) (List.mem_map_of_mem hf)
  obtain ⟨-, hlen, -⟩ := parse_frames_fit hf
  refine decide_eq_true ?_
  rw [hlen, Nat.add_comm]
  exact hfit

theorem allFit_noLimit (stream : List UInt8) : AllFit noLimit stream := by
  intro m hm
  obtain ⟨f, hf, rfl⟩ := List.mem_map.1 hm
  obtain ⟨-, hlen, -⟩ := parse_frames_fit hf
  have hlt : messi.bodyLen f.1 < 2 ^ 24 := headerGetSize_lt _
  have heq : (messageOf f).2.length = f.2.length := rfl
  unfold noLimit
  omega

/-- What has been delivered of a stream that has been read up is what it contains. -/
theorem ReadUp.deliver_eq (h : ReadUp sz (decodable decode) stream rs) :
    deliver decode (framed sz rs) = deliver decode (framed sz stream) := by
  obtain ⟨⟨as, rfl⟩, hall⟩ := h
  have happ : framed sz (rs ++ as) = framed sz rs ++
      framed sz ((parse messi (fits sz) rs).2 ++ as) := by
    unfold framed
    rw [parse_append, List.map_append]
  rw [happ]
  rcases hall with heq | hbad | hbig
  · have hnil : as = [] := List.append_right_eq_self.1 heq.symm
    rw [hnil, List.append_nil]
    unfold framed
    rw [parse_of_not_complete (parse_rest_not_complete rs), List.map_nil, List.append_nil]
  · exact (deliver_append_of_bad hbad).symm
  · unfold framed
    rw [parse_of_tooBig (tooBig_append hbig as), List.map_nil, List.append_nil]

theorem TakenOut.deliver_eq (h : TakenOut decode stream rs) :
    deliver decode (messages rs) = deliver decode (messages stream) := by
  obtain ⟨⟨as, rfl⟩, hall⟩ := h
  rcases hall with hlt | hbad
  · rw [List.length_append, Nat.add_lt_add_iff_left] at hlt
    unfold messages
    rw [frames_append_of_lt hlt]
  · obtain ⟨ns, hns⟩ := messages_mono (List.prefix_append rs as)
    rw [← hns]
    exact (deliver_append_of_bad hbad).symm

end

/-! ## Turns of a receive loop -/

/-- What has been received has been delivered, and the client waits for the rest of the next
message. -/
structure Delivering (sz : ℕ) (decode : List UInt8 → Bool) (rs : List UInt8) (ds : List Delivery)
    (r : Receiver) : Prop where
  progress : r.Progress sz (decodable decode) rs (framed sz rs)
  delivered : ds = deliver decode (framed sz rs)

namespace Delivering

variable {sz : ℕ} {decode : List UInt8 → Bool} {rs bs : List UInt8} {ds : List Delivery}
  {r r' : Receiver}

theorem fresh : Delivering sz decode [] [] ⟨[], false, headerSize⟩ :=
  ⟨Receiver.progress_fresh, rfl⟩

theorem of_progress (h : Delivering sz decode rs ds r)
    (hp : r'.Progress sz (decodable decode) (rs ++ bs) (framed sz rs)) :
    Delivering sz decode (rs ++ bs) ds r' := by
  have heq : framed sz rs = framed sz (rs ++ bs) := hp.handled_eq
  rw [heq] at hp
  exact ⟨hp, heq ▸ h.delivered⟩

theorem part (h : Delivering sz decode rs ds r) (hlt : bs.length < r.left) :
    Delivering sz decode (rs ++ bs) ds (r.read bs) :=
  h.of_progress (h.progress.part hlt)

theorem body (h : Delivering sz decode rs ds r) (hlen : bs.length = r.left)
    (hl : (r.read bs).load sz = some r') (hpos : r'.left ≠ 0) :
    Delivering sz decode (rs ++ bs) ds r' :=
  h.of_progress (h.progress.body hlen hl hpos)

/-- A message that is too big is not delivered. -/
theorem tooBig (h : Delivering sz decode rs ds r) (hlen : bs.length = r.left)
    (hl : (r.read bs).load sz = none) : ds = deliver decode (framed sz (rs ++ bs)) := by
  have hbig : Messi.tooBig sz (r.bytes ++ bs) = true :=
    ((h.progress.waits.full hlen).reject hl).2.2
  rw [← (h.progress.holds.append bs).handled_eq (parse_of_tooBig hbig)]
  exact h.delivered

theorem message (h : Delivering sz decode rs ds r) (hlen : bs.length = r.left)
    (hl : (r.read bs).load sz = some r') (hzero : r'.left = 0) :
    ds ++ deliver decode [r'.message] = deliver decode (framed sz (rs ++ bs)) := by
  rw [← (h.progress.message hlen hl hzero).handled_eq parse_nil, h.delivered]
  exact (deliver_append h.progress.accepted).symm

/-- The client waits for the next message. -/
theorem next (h : Delivering sz decode rs ds r) (hlen : bs.length = r.left)
    (hl : (r.read bs).load sz = some r') (hzero : r'.left = 0)
    (hok : decodable decode r'.message = true) :
    Delivering sz decode (rs ++ bs) (ds ++ deliver decode [r'.message])
      ⟨[], false, headerSize⟩ := by
  have hp := h.progress.next hlen hl hzero hok
  rw [hp.handled_eq] at hp
  exact ⟨hp, h.message hlen hl hzero⟩

end Delivering

end Messi
