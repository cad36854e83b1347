import Mathlib.Data.List.Infix
import Mathlib.Data.List.Basic

/-!
# Length-prefixed framing

A `Format` frames a byte stream into a header of fixed length and a body whose length the header
announces. `parse` cuts a stream into its complete frames and the rest; it stops at a header that
does not satisfy `fits`, which is how a receiver with a bounded buffer reads the stream.

`parse_append` says that a stream may be parsed piece by piece, and `InHeader`, `InBody` describe
the two places in which a receiver can wait for more input.
-/

namespace Framing

/-- A frame format: the header's length, and the body length that a header announces. -/
structure Format (β : Type*) where
  headerLen : ℕ
  bodyLen : List β → ℕ
  headerLen_pos : 0 < headerLen

/-- A header and its body. -/
abbrev Frame (β : Type*) := List β × List β

/-- The bytes of a list of frames. -/
def wire {β : Type*} (fs : List (Frame β)) : List β := fs.flatMap fun f => f.1 ++ f.2

variable {β : Type*} (F : Format β) (fits : List β → Bool)

/-- The stream starts with a whole frame whose header is accepted. -/
def Complete (bs : List β) : Prop :=
  F.headerLen ≤ bs.length ∧ fits (bs.take F.headerLen) = true ∧
    F.headerLen + F.bodyLen (bs.take F.headerLen) ≤ bs.length

instance (bs : List β) : Decidable (Complete F fits bs) := by unfold Complete; infer_instance

/-- The first frame of a stream. -/
def first (bs : List β) : Frame β :=
  (bs.take F.headerLen, (bs.drop F.headerLen).take (F.bodyLen (bs.take F.headerLen)))

/-- What follows the first frame. -/
def after (bs : List β) : List β :=
  bs.drop (F.headerLen + F.bodyLen (bs.take F.headerLen))

/-- At most `n` frames of a stream, and the rest. -/
def parseUpTo : ℕ → List β → List (Frame β) × List β
  | 0, bs => ([], bs)
  | n + 1, bs =>
    if Complete F fits bs then
      let r := parseUpTo n (after F bs)
      (first F bs :: r.1, r.2)
    else ([], bs)

/-- The complete frames of a stream up to the first header that is not accepted, and the rest. -/
def parse (bs : List β) : List (Frame β) × List β := parseUpTo F fits bs.length bs

/-- The complete frames of a stream. -/
def frames (bs : List β) : List (Frame β) := (parse F (fun _ => true) bs).1

variable {F fits} {bs as : List β} {n : ℕ}

theorem length_after_lt (h : Complete F fits bs) : (after F bs).length < bs.length := by
  have := F.headerLen_pos
  unfold Complete at h
  unfold after
  rw [List.length_drop]
  omega

/-! ## The parser, one frame at a time -/

theorem parseUpTo_of_not_complete (h : ¬ Complete F fits bs) :
    parseUpTo F fits n bs = ([], bs) := by
  cases n with
  | zero => rfl
  | succ n => rw [parseUpTo, if_neg h]

/-- Any bound that the length of the stream respects gives the same parse. -/
theorem parseUpTo_congr {m : ℕ} (hn : bs.length ≤ n) (hm : bs.length ≤ m) :
    parseUpTo F fits n bs = parseUpTo F fits m bs := by
  induction n generalizing m bs with
  | zero =>
    obtain rfl : bs = [] := List.length_eq_zero_iff.1 (Nat.le_zero.1 hn)
    have := F.headerLen_pos
    rw [parseUpTo_of_not_complete (n := m) fun h => by have := h.1; simp at this; omega]
    rfl
  | succ n ih =>
    by_cases hc : Complete F fits bs
    · have hlt := length_after_lt hc
      obtain ⟨m, rfl⟩ : ∃ k, m = k + 1 := ⟨m - 1, by omega⟩
      rw [parseUpTo, parseUpTo, if_pos hc, if_pos hc, ih (m := m) (by omega) (by omega)]
    · rw [parseUpTo_of_not_complete hc, parseUpTo_of_not_complete hc]

theorem parse_of_not_complete (h : ¬ Complete F fits bs) : parse F fits bs = ([], bs) :=
  parseUpTo_of_not_complete h

theorem parse_of_complete (h : Complete F fits bs) :
    parse F fits bs =
      (first F bs :: (parse F fits (after F bs)).1, (parse F fits (after F bs)).2) := by
  have hlt := length_after_lt h
  obtain ⟨k, hk⟩ : ∃ k, bs.length = k + 1 := ⟨bs.length - 1, by omega⟩
  unfold parse
  rw [hk, parseUpTo, if_pos h,
    parseUpTo_congr (m := (after F bs).length) (by omega) (Nat.le_refl _)]

@[simp] theorem parse_nil : parse F fits [] = ([], []) := rfl

variable (F fits) in
/-- Induction along the frames of a stream. -/
theorem parse_induction {P : List β → Prop} (hstop : ∀ bs, ¬ Complete F fits bs → P bs)
    (hstep : ∀ bs, Complete F fits bs → P (after F bs) → P bs) (bs : List β) : P bs := by
  induction hn : bs.length using Nat.strong_induction_on generalizing bs with
  | _ n ih =>
    by_cases hc : Complete F fits bs
    · exact hstep bs hc (ih _ (hn ▸ length_after_lt hc) _ rfl)
    · exact hstop bs hc

theorem parse_rest_not_complete (bs : List β) : ¬ Complete F fits (parse F fits bs).2 := by
  induction bs using parse_induction F fits with
  | hstop bs h => rwa [parse_of_not_complete h]
  | hstep bs h ih => rwa [parse_of_complete h]

theorem Complete.append (h : Complete F fits bs) : Complete F fits (bs ++ as) := by
  unfold Complete at h ⊢
  rw [List.take_append_of_le_length h.1, List.length_append]
  exact ⟨by omega, h.2.1, by omega⟩

theorem first_append (h : Complete F fits bs) : first F (bs ++ as) = first F bs := by
  have hlen := h.2.2
  unfold first
  rw [List.take_append_of_le_length h.1, List.drop_append_of_le_length h.1,
    List.take_append_of_le_length (by rw [List.length_drop]; omega)]

theorem after_append (h : Complete F fits bs) : after F (bs ++ as) = after F bs ++ as := by
  unfold after
  rw [List.take_append_of_le_length h.1, List.drop_append_of_le_length h.2.2]

/-- A stream may be parsed piece by piece. -/
theorem parse_append (bs as : List β) :
    parse F fits (bs ++ as) =
      ((parse F fits bs).1 ++ (parse F fits ((parse F fits bs).2 ++ as)).1,
        (parse F fits ((parse F fits bs).2 ++ as)).2) := by
  induction bs using parse_induction F fits with
  | hstop bs h => rw [parse_of_not_complete h]; rfl
  | hstep bs h ih =>
    rw [parse_of_complete h, parse_of_complete h.append, first_append h, after_append h, ih]
    rfl

theorem parse_frames_mono (h : bs <+: as) : (parse F fits bs).1 <+: (parse F fits as).1 := by
  obtain ⟨cs, rfl⟩ := h
  rw [parse_append]
  exact List.prefix_append _ _

theorem parse_frames_fit {f : Frame β} (h : f ∈ (parse F fits bs).1) :
    f.1.length = F.headerLen ∧ F.bodyLen f.1 = f.2.length ∧ fits f.1 = true := by
  induction bs using parse_induction F fits with
  | hstop bs hc => rw [parse_of_not_complete hc] at h; cases h
  | hstep bs hc ih =>
    rw [parse_of_complete hc] at h
    rcases List.mem_cons.1 h with rfl | h
    · unfold Complete at hc
      simp only [first, List.length_take, List.length_drop]
      exact ⟨by omega, by omega, hc.2.1⟩
    · exact ih h

/-- A bounded receiver reads a prefix of the frames of the stream. -/
theorem parse_prefix_frames (bs : List β) : (parse F fits bs).1 <+: frames F bs := by
  induction bs using parse_induction F fits with
  | hstop bs h => rw [parse_of_not_complete h]; exact List.nil_prefix
  | hstep bs h ih =>
    have hc : Complete F (fun _ => true) bs := ⟨h.1, rfl, h.2.2⟩
    rw [frames, parse_of_complete h, parse_of_complete hc]
    exact List.cons_prefix_cons.2 ⟨rfl, ih⟩

/-- A bounded receiver reads all frames of a stream if they all fit. -/
theorem parse_eq_frames (h : ∀ f ∈ frames F bs, fits f.1 = true) :
    (parse F fits bs).1 = frames F bs := by
  induction bs using parse_induction F (fun _ => true) with
  | hstop bs hc =>
    have hc' : ¬ Complete F fits bs := fun h' => hc ⟨h'.1, rfl, h'.2.2⟩
    rw [frames, parse_of_not_complete hc, parse_of_not_complete hc']
  | hstep bs hc ih =>
    have hcons : frames F bs = first F bs :: frames F (after F bs) := by
      rw [frames, parse_of_complete hc]
      rfl
    rw [hcons] at h ⊢
    have hc' : Complete F fits bs := ⟨hc.1, h _ List.mem_cons_self, hc.2.2⟩
    rw [parse_of_complete hc', ih fun f hf => h f (List.mem_cons_of_mem _ hf)]

/-- A header that is not accepted blocks the parser. -/
theorem parse_of_not_fits (h : fits (bs.take F.headerLen) = false) : parse F fits bs = ([], bs) :=
  parse_of_not_complete fun hc => by simp [hc.2.1] at h

/-- The parser inverts the concatenation of well-formed frames. -/
theorem parse_wire_append (fs : List (Frame β))
    (h : ∀ f ∈ fs, f.1.length = F.headerLen ∧ F.bodyLen f.1 = f.2.length ∧ fits f.1 = true) :
    parse F fits (wire fs ++ bs) = (fs ++ (parse F fits bs).1, (parse F fits bs).2) := by
  induction fs with
  | nil => rfl
  | cons f fs ih =>
    obtain ⟨hlen, hbody, hfit⟩ := h f List.mem_cons_self
    have hw : wire (f :: fs) ++ bs = f.1 ++ (f.2 ++ (wire fs ++ bs)) := by simp [wire]
    have htake : (f.1 ++ (f.2 ++ (wire fs ++ bs))).take F.headerLen = f.1 :=
      List.take_left' hlen
    have hc : Complete F fits (f.1 ++ (f.2 ++ (wire fs ++ bs))) := by
      unfold Complete
      rw [htake, hbody, List.length_append, List.length_append]
      exact ⟨by omega, hfit, by omega⟩
    have hfirst : first F (f.1 ++ (f.2 ++ (wire fs ++ bs))) = f := by
      unfold first
      rw [htake, List.drop_left' hlen, List.take_left' hbody.symm]
    have hafter : after F (f.1 ++ (f.2 ++ (wire fs ++ bs))) = wire fs ++ bs := by
      unfold after
      rw [htake, ← List.drop_drop, List.drop_left' hlen, List.drop_left' hbody.symm]
    rw [hw, parse_of_complete hc, hfirst, hafter, ih fun g hg => h g (List.mem_cons_of_mem f hg)]
    rfl

/-! ## A stream that ends inside a frame -/

/-- The number of bytes that complete the header at the start of a stream, or else its body. -/
def missing (F : Format β) (bs : List β) : ℕ :=
  if bs.length < F.headerLen then F.headerLen - bs.length
  else F.headerLen + F.bodyLen (bs.take F.headerLen) - bs.length

theorem not_complete_of_lt_missing (h : as.length < missing F bs) :
    ¬ Complete F fits (bs ++ as) := by
  rintro ⟨hlen, -, hall⟩
  unfold missing at h
  rw [List.length_append] at hlen hall
  split_ifs at h with hshort
  · omega
  · rw [List.take_append_of_le_length (Nat.le_of_not_lt hshort)] at hall
    omega

/-- Less than what is missing of a frame does not complete it. -/
theorem frames_append_of_lt (h : as.length < missing F (parse F (fun _ => true) bs).2) :
    frames F (bs ++ as) = frames F bs := by
  unfold frames
  rw [parse_append, parse_of_not_complete (not_complete_of_lt_missing h), List.append_nil]

/-! ## A receiver that waits for more input -/

/-- `bs` is a part of a header and `n` more bytes complete it. -/
def InHeader (F : Format β) (bs : List β) (n : ℕ) : Prop :=
  0 < n ∧ bs.length + n = F.headerLen

/-- `bs` is an accepted header with a part of its body and `n` more bytes complete it. -/
def InBody (F : Format β) (fits : List β → Bool) (bs : List β) (n : ℕ) : Prop :=
  0 < n ∧ F.headerLen ≤ bs.length ∧ fits (bs.take F.headerLen) = true ∧
    bs.length + n = F.headerLen + F.bodyLen (bs.take F.headerLen)

theorem InHeader.parse (h : InHeader F bs n) : parse F fits bs = ([], bs) :=
  parse_of_not_complete fun hc => by
    have := hc.1
    unfold InHeader at h
    omega

theorem InBody.parse (h : InBody F fits bs n) : parse F fits bs = ([], bs) :=
  parse_of_not_complete fun hc => by
    have := hc.2.2
    unfold InBody at h
    omega

theorem inHeader_nil : InHeader F [] F.headerLen :=
  ⟨F.headerLen_pos, by simp⟩

theorem InHeader.append (h : InHeader F bs n) (hlt : as.length < n) :
    InHeader F (bs ++ as) (n - as.length) := by
  unfold InHeader at h ⊢
  rw [List.length_append]
  omega

theorem InHeader.full (h : InHeader F bs n) (hn : as.length = n) :
    (bs ++ as).length = F.headerLen := by
  rw [List.length_append, hn]
  exact h.2

theorem InBody.append (h : InBody F fits bs n) (hlt : as.length < n) :
    InBody F fits (bs ++ as) (n - as.length) := by
  unfold InBody at h ⊢
  rw [List.take_append_of_le_length h.2.1, List.length_append]
  exact ⟨by omega, by omega, h.2.2.1, by omega⟩

/-- A whole header announces its body. -/
theorem inBody_of_header (hlen : bs.length = F.headerLen) (hfit : fits bs = true)
    (hpos : 0 < F.bodyLen bs) : InBody F fits bs (F.bodyLen bs) := by
  have htake : bs.take F.headerLen = bs := List.take_of_length_le (by omega)
  exact ⟨hpos, by omega, by rwa [htake], by rw [htake]; omega⟩

/-- A stream that is exactly one accepted frame. -/
theorem parse_of_length_eq (hlen : F.headerLen ≤ bs.length)
    (hfit : fits (bs.take F.headerLen) = true)
    (hall : bs.length = F.headerLen + F.bodyLen (bs.take F.headerLen)) :
    parse F fits bs = ([(bs.take F.headerLen, bs.drop F.headerLen)], []) := by
  have hc : Complete F fits bs := ⟨hlen, hfit, by omega⟩
  have hfirst : first F bs = (bs.take F.headerLen, bs.drop F.headerLen) := by
    unfold first
    rw [List.take_of_length_le (l := bs.drop F.headerLen) (by rw [List.length_drop]; omega)]
  have hafter : after F bs = [] := List.drop_eq_nil_of_le (by omega)
  rw [parse_of_complete hc, hfirst, hafter]
  rfl

theorem parse_of_header (hlen : bs.length = F.headerLen) (hfit : fits bs = true)
    (hzero : F.bodyLen bs = 0) : parse F fits bs = ([(bs, [])], []) := by
  have htake : bs.take F.headerLen = bs := List.take_of_length_le (by omega)
  have : parse F fits bs = ([(bs.take F.headerLen, bs.drop F.headerLen)], []) :=
    parse_of_length_eq (by omega) (by rwa [htake]) (by rw [htake]; omega)
  rwa [htake, List.drop_eq_nil_of_le (by omega)] at this

theorem InBody.full (h : InBody F fits bs n) (hn : as.length = n) :
    Framing.parse F fits (bs ++ as) =
      ([((bs ++ as).take F.headerLen, (bs ++ as).drop F.headerLen)], []) := by
  unfold InBody at h
  have htake : (bs ++ as).take F.headerLen = bs.take F.headerLen :=
    List.take_append_of_le_length h.2.1
  exact parse_of_length_eq (by rw [List.length_append]; omega) (by rw [htake]; exact h.2.2.1)
    (by rw [htake, List.length_append]; omega)

end Framing
