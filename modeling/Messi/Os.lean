import Mathlib.Tactic

/-!
# System calls

The answers of the operating system that the code distinguishes. A descriptor is an integer, and
`-1` stands for none: `read()` and `write()` on it fail with `EBADF`.
-/

namespace Messi

/-- The `EPOLLIN` and `EPOLLOUT` bits of an event mask. -/
structure Events where
  epollIn : Bool
  epollOut : Bool
  deriving DecidableEq

inductive EpollOp where
  | add
  | mod
  | del
  deriving DecidableEq

/-- The result of a `write()`: a number of bytes, or `-1` with `EAGAIN` or with another error. -/
inductive WriteRes where
  | accepted (n : ℕ)
  | eagain
  | error
  deriving DecidableEq

/-- The result of a `read()`: some bytes (none at the end of the stream), or `-1` with `EAGAIN` or
with another error. -/
inductive ReadRes where
  | data (bs : List UInt8)
  | eagain
  | error
  deriving DecidableEq

/-- `write()` of `size` bytes. -/
def sysWrite (fd : ℤ) (size : ℕ) (res : WriteRes) : WriteRes :=
  if fd = -1 then .error else
    match res with
    | .accepted n => .accepted (min n size)
    | .eagain => .eagain
    | .error => .error

/-- `read()` of at most `want` bytes. -/
def sysRead (fd : ℤ) (want : ℕ) (res : ReadRes) : ReadRes :=
  if fd = -1 then .error else
    match res with
    | .data bs => .data (bs.take want)
    | .eagain => .eagain
    | .error => .error

/-- `read()` of a timer's eight bytes; the result is true if it gave them. -/
def sysReadTimer (fd : ℤ) (ok : Bool) : Bool := fd ≠ -1 && ok

/-- A call that creates a descriptor returns one that is not open, or `-1`. -/
def sysOpen (opened : List ℤ) (res : Option ℤ) : ℤ :=
  match res with
  | some fd => if 0 ≤ fd ∧ fd ∉ opened then fd else -1
  | none => -1

/-- What the protocol buffers encoder makes of the prepared message when it is offered a number of
bytes of room: the payload, or a negative result. -/
abbrev Encoder := ℕ → Option (List UInt8)

/-- A difference of two `size_t`. -/
def sizeSub (a b : ℕ) : ℕ := (a + 2 ^ 64 - b) % 2 ^ 64

theorem sysOpen_spec (opened : List ℤ) (res : Option ℤ) (h : sysOpen opened res ≠ -1) :
    sysOpen opened res ∉ opened := by
  unfold sysOpen at h ⊢
  split at h
  · split_ifs at h ⊢ with hfd
    · exact hfd.2
    · exact absurd rfl h
  · exact absurd rfl h

end Messi
