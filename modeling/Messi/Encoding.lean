import Messi.Header
import Messi.Os

/-!
# Encoding messages

What the servers make of an output buffer when a message is encoded into it.
-/

namespace Messi

/-- The size of a frame as an `int`; a size of `2 ^ 31` bytes or more comes out negative. -/
def frameSize (payload : List UInt8) : ℤ := Int.bmod (payload.length + headerSize) (2 ^ 32)

/-- `encode_user_message()` in an output buffer of `size` bytes: the message whose frame the buffer
then begins with, unless the result is negative. -/
def encodeInto (type : UInt8) (size : ℕ) (enc : Encoder) : Option Message :=
  match enc (sizeSub size headerSize) with
  | none => none
  | some payload => if frameSize payload < 0 then none else some (type, payload)

theorem frameSize_neg_iff {payload : List UInt8} (h : payload.length < 2 ^ 31) :
    frameSize payload < 0 ↔ 2 ^ 31 ≤ payload.length + headerSize := by
  unfold frameSize headerSize
  rw [Int.bmod_def]
  norm_num
  omega

/-- The payload is what the encoder made of the room that it was offered. -/
theorem encodeInto_some {type : UInt8} {size : ℕ} {enc : Encoder} {m : Message}
    (h : encodeInto type size enc = some m) :
    ∃ payload, enc (sizeSub size headerSize) = some payload ∧ m = (type, payload) := by
  unfold encodeInto at h
  cases henc : enc (sizeSub size headerSize) with
  | none =>
    rw [henc] at h
    cases h
  | some payload =>
    rw [henc] at h
    dsimp only at h
    split_ifs at h
    exact ⟨payload, rfl, (Option.some.inj h).symm⟩

theorem encodeInto_eq {type : UInt8} {size : ℕ} {enc : Encoder} {payload : List UInt8}
    (h : enc (sizeSub size headerSize) = some payload)
    (hlt : payload.length + headerSize < 2 ^ 31) :
    encodeInto type size enc = some (type, payload) := by
  have hpos : ¬ frameSize payload < 0 := by
    rw [frameSize_neg_iff (by omega)]
    omega
  unfold encodeInto
  rw [h]
  exact if_neg hpos

end Messi
