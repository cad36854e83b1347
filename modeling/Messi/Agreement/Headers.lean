import Messi.AsyncClient.Model
import Messi.AsyncServer.Model
import Messi.LinuxClient.Model
import Messi.LinuxServer.Api

/-!
# What the headers say

The senders offer the encoder the output buffer but for the four bytes of the header, as a `size_t`,
and write the size of the payload to the three bytes that the header has for it. Neither is checked:
the header is truthful just if the buffer has room for a header and the payload is shorter than
`2 ^ 24` bytes (`truthful_iff`).
-/

namespace Messi

/-- What the function does is decided by what the encoder makes of `room` bytes. -/
def Offers {β : Type*} (f : Encoder → β) (room : ℕ) : Prop :=
  ∀ enc enc' : Encoder, enc room = enc' room → f enc = f enc'

/-- The encoder is offered no more than what follows a header in a buffer of `size` bytes, and a
frame goes out whose header announces the bytes that follow it. -/
structure Truthful (size : ℕ) (f : Encoder → Option Message) (enc : Encoder) : Prop where
  room : ∃ room, Offers f room ∧ room + headerSize ≤ size
  header : ∃ m, f enc = some m ∧ (headerGetSize (Header.ofBytes (frameBytes m))).toNat =
    ((frameBytes m).drop headerSize).length

/-- The message given to the last `write()` since `NAME_client_send()` was called. -/
def LinuxClient.lastWritten : List LinuxClient.Event → Option Message
  | [] => none
  | .send .. :: _ => none
  | .write _ m _ :: _ => some m
  | _ :: l => lastWritten l

/-- The message that `NAME_client_send()` writes. -/
def LinuxClient.sentMessage (s : LinuxClient.Client) (res : WriteRes) (enc : Encoder) :
    Option Message :=
  LinuxClient.lastWritten (LinuxClient.clientSend s enc res).log

/-- The message given to the last `async_stcp_client_write()`. -/
def AsyncClient.lastWritten : List AsyncClient.Event → Option Message
  | [] => none
  | .write _ m :: _ => some m
  | _ :: l => lastWritten l

/-- The message that `NAME_client_send()` of the async client writes. -/
def AsyncClient.sentMessage (s : AsyncClient.Client) (enc : Encoder) : Option Message :=
  AsyncClient.lastWritten (AsyncClient.clientSend s enc).log

section

variable {size : ℕ} {enc : Encoder} {payload : List UInt8} {type : UInt8}
  {f : Encoder → Option Message}

theorem sizeSub_of_le {a b : ℕ} (ha : a < 2 ^ 64) (h : b ≤ a) : sizeSub a b = a - b := by
  unfold sizeSub
  omega

/-- The size that is read back from a frame. -/
theorem headerGetSize_frameBytes (m : Message) (h : m.2.length < 2 ^ 32) :
    (headerGetSize (Header.ofBytes (frameBytes m))).toNat = m.2.length % 2 ^ 24 := by
  have hfrom : Header.ofBytes (frameBytes m) = headerCreate m.1 (UInt32.ofNat m.2.length) :=
    ofBytes_bytes_append _ _
  rw [hfrom]
  unfold headerCreate
  rw [headerGetSize_setSize, UInt32.toNat_ofNat', Nat.mod_eq_of_lt h]

theorem drop_frameBytes (m : Message) : (frameBytes m).drop headerSize = m.2 :=
  List.drop_left' rfl

/-- A sender that offers the size of the buffer less four is truthful just if the difference does
not wrap, and the size of the payload is not cut. -/
theorem truthful_of_offers (hsize : size < 2 ^ 64) (hint : payload.length < 2 ^ 31)
    (hoffers : Offers f (sizeSub size headerSize))
    (hsome : payload.length + headerSize < 2 ^ 31 → f enc = some (type, payload))
    (honly : ∀ m, f enc = some m → m = (type, payload)) :
    Truthful size f enc ↔ headerSize ≤ size ∧ payload.length < 2 ^ 24 := by
  have hread := headerGetSize_frameBytes (type, payload) (by simp only; omega)
  constructor
  · rintro ⟨⟨room, -, hroom⟩, m, hm, hget⟩
    refine ⟨by omega, ?_⟩
    rw [honly m hm, hread, drop_frameBytes] at hget
    have hlt : payload.length % 2 ^ 24 < 2 ^ 24 := Nat.mod_lt _ (by norm_num)
    simp only at hget
    omega
  · rintro ⟨hroom, hlt⟩
    constructor
    · refine ⟨sizeSub size headerSize, hoffers, ?_⟩
      rw [sizeSub_of_le hsize hroom]
      omega
    · refine ⟨(type, payload), hsome (by unfold headerSize; omega), ?_⟩
      rw [hread, drop_frameBytes]
      exact Nat.mod_eq_of_lt hlt

/-! ## The servers -/

theorem encodeInto_offers (type : UInt8) (size : ℕ) :
    Offers (encodeInto type size) (sizeSub size headerSize) := by
  intro enc enc' h
  unfold encodeInto
  rw [h]

theorem encodeInto_truthful (hsize : size < 2 ^ 64)
    (henc : enc (sizeSub size headerSize) = some payload) (hint : payload.length < 2 ^ 31) :
    Truthful size (encodeInto type size) enc ↔ headerSize ≤ size ∧ payload.length < 2 ^ 24 := by
  refine truthful_of_offers hsize hint (encodeInto_offers type size) (encodeInto_eq henc) ?_
  intro m hm
  obtain ⟨payload', hp, rfl⟩ := encodeInto_some hm
  rw [henc] at hp
  rw [Option.some.inj hp]

/-! ## The clients -/

theorem LinuxClient.sentMessage_offers (s : LinuxClient.Client) (res : WriteRes) :
    Offers (LinuxClient.sentMessage s res) (sizeSub s.encodedSize headerSize) := by
  intro enc enc' h
  unfold LinuxClient.sentMessage LinuxClient.clientSend
  simp only [LinuxClient.Client.emit_encodedSize, h]

/-- What the encoder takes is handed to `write()`, whatever comes of that. -/
theorem LinuxClient.sentMessage_eq (s : LinuxClient.Client) (res : WriteRes)
    (henc : enc (sizeSub s.encodedSize headerSize) = some payload) :
    LinuxClient.sentMessage s res enc = some (messageTypeClientToServerUser, payload) := by
  have hpending : ∀ (t : LinuxClient.Client) reason,
      LinuxClient.lastWritten (LinuxClient.pendingDisconnect t reason).log =
        LinuxClient.lastWritten t.log := by
    intro t reason
    unfold LinuxClient.pendingDisconnect
    split_ifs <;> rfl
  have hwrite : ∀ (t : LinuxClient.Client) m,
      LinuxClient.lastWritten (LinuxClient.writeMessage t m res).2.log = some m := by
    intro t m
    unfold LinuxClient.writeMessage
    split <;> rfl
  unfold LinuxClient.sentMessage LinuxClient.clientSend
  simp only [LinuxClient.Client.emit_encodedSize, henc]
  have hlog := hwrite (s.emit (.send s.serverFd s.pendingDisconnect))
    (messageTypeClientToServerUser, payload)
  generalize LinuxClient.writeMessage (s.emit (.send s.serverFd s.pendingDisconnect))
    (messageTypeClientToServerUser, payload) res = r at hlog
  obtain ⟨all, t⟩ := r
  cases all with
  | true => exact hlog
  | false => exact (hpending t _).trans hlog

theorem AsyncClient.sentMessage_offers (s : AsyncClient.Client) :
    Offers (AsyncClient.sentMessage s) (sizeSub s.encodedSize headerSize) := by
  intro enc enc' h
  unfold AsyncClient.sentMessage AsyncClient.clientSend
  rw [h]

theorem AsyncClient.sentMessage_eq (s : AsyncClient.Client)
    (henc : enc (sizeSub s.encodedSize headerSize) = some payload) :
    AsyncClient.sentMessage s enc = some (messageTypeClientToServerUser, payload) := by
  unfold AsyncClient.sentMessage AsyncClient.clientSend
  rw [henc]
  rfl

theorem truthful_of_sent (hsize : size < 2 ^ 64) (hint : payload.length < 2 ^ 31)
    (hoffers : Offers f (sizeSub size headerSize)) (hsent : f enc = some (type, payload)) :
    Truthful size f enc ↔ headerSize ≤ size ∧ payload.length < 2 ^ 24 := by
  refine truthful_of_offers hsize hint hoffers (fun _ => hsent) ?_
  intro m hm
  rw [hsent] at hm
  exact (Option.some.inj hm).symm

/-! ## All senders -/

/-- Every sender is truthful about a message just if its output buffer has room for a header, and
the payload has fewer than `2 ^ 24` bytes. -/
theorem truthful_iff (hsize : size < 2 ^ 64)
    (henc : enc (sizeSub size headerSize) = some payload) (hint : payload.length < 2 ^ 31) :
    (∀ s : LinuxServer.Server, s.encodedSize = size →
      (Truthful size (LinuxServer.encodeUserMessage s) enc ↔
        headerSize ≤ size ∧ payload.length < 2 ^ 24)) ∧
    (∀ s : AsyncServer.Server, s.encodedSize = size →
      (Truthful size (AsyncServer.encodeUserMessage s) enc ↔
        headerSize ≤ size ∧ payload.length < 2 ^ 24)) ∧
    (∀ (s : LinuxClient.Client) res, s.encodedSize = size →
      (Truthful size (LinuxClient.sentMessage s res) enc ↔
        headerSize ≤ size ∧ payload.length < 2 ^ 24)) ∧
    ∀ s : AsyncClient.Client, s.encodedSize = size →
      (Truthful size (AsyncClient.sentMessage s) enc ↔
        headerSize ≤ size ∧ payload.length < 2 ^ 24) := by
  refine ⟨?_, ?_, ?_, ?_⟩
  · rintro s rfl
    exact encodeInto_truthful hsize henc hint
  · rintro s rfl
    exact encodeInto_truthful hsize henc hint
  · rintro s res rfl
    exact truthful_of_sent hsize hint (LinuxClient.sentMessage_offers s res)
      (LinuxClient.sentMessage_eq s res henc)
  · rintro s rfl
    exact truthful_of_sent hsize hint (AsyncClient.sentMessage_offers s)
      (AsyncClient.sentMessage_eq s henc)

/-- A payload of two bytes, in a buffer of 64. -/
theorem truthful_server :
    Truthful 64 (LinuxServer.encodeUserMessage (LinuxServer.Sample.server 1 16))
    (fun _ => some [7, 8]) := by
  have henc : (fun _ => some [7, 8] : Encoder) (sizeSub 64 headerSize) = some [7, 8] := rfl
  have hsize : 64 < 2 ^ 64 := by norm_num
  have hint : [(7 : UInt8), 8].length < 2 ^ 31 := by simp
  have hroom : headerSize ≤ 64 ∧ [(7 : UInt8), 8].length < 2 ^ 24 := by simp [headerSize]
  exact ((truthful_iff hsize henc hint).1 (LinuxServer.Sample.server 1 16) rfl).2 hroom

/-- A server with an output buffer of `2 ^ 25` bytes. -/
def largeServer : LinuxServer.Server := { LinuxServer.Sample.memory with encodedSize := 2 ^ 25 }

/-- The header of a payload of `2 ^ 24` bytes announces none, and in a buffer of three bytes the
encoder is offered more than there is. -/
theorem not_truthful :
    ¬ Truthful (2 ^ 25) (LinuxServer.encodeUserMessage largeServer)
        (fun _ => some (List.replicate (2 ^ 24) 0)) ∧
      ¬ Truthful 3 (AsyncServer.encodeUserMessage
        (AsyncServer.serverInit AsyncServer.Sample.memory 1 16 3)) (fun _ => some []) := by
  constructor
  · intro h
    have henc : (fun _ => some (List.replicate (2 ^ 24) 0) : Encoder)
        (sizeSub (2 ^ 25) headerSize) = some (List.replicate (2 ^ 24) 0) := rfl
    have hlen : (List.replicate (2 ^ 24) (0 : UInt8)).length = 2 ^ 24 := List.length_replicate
    have hsize : 2 ^ 25 < 2 ^ 64 := by norm_num
    have hint : (List.replicate (2 ^ 24) (0 : UInt8)).length < 2 ^ 31 := by
      rw [hlen]
      norm_num
    have hlt := ((encodeInto_truthful hsize henc hint).1 h).2
    rw [hlen] at hlt
    exact lt_irrefl _ hlt
  · rintro ⟨⟨room, -, hroom⟩, -⟩
    unfold headerSize at hroom
    omega

end

end Messi
