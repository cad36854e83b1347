import Messi.Base.Trace
import Messi.LinuxClient.Steps

/-!
# The input buffer

`process_socket()` reads `left` bytes to offset `size` of the input buffer. They fit until the size
of a message has been loaded and rejected: then `left` is too big, and it is not reset, neither when
the client disconnects nor when it connects again. Reads fit just if no connection is read from
after a rejected message (`reads_fit_iff`).
-/

namespace Messi.LinuxClient

open Relation Trace Sample

/-- A `read()` of an open socket stays within a buffer of `sz` bytes. -/
def Event.ReadFits (sz : ℕ) : Event → Prop
  | .read fd offset want _ => fd = -1 ∨ offset + want ≤ sz
  | _ => True

/-- A `read()` of an open socket comes before any message has been rejected. -/
def Event.BeforeTooBig (l : List Event) : Event → Prop
  | .read fd _ _ _ => fd = -1 ∨ .tooBig ∉ l
  | _ => True

instance (sz : ℕ) : DecidablePred (Event.ReadFits sz) := fun e => by
  rcases e <;> unfold Event.ReadFits <;> infer_instance

instance (l : List Event) : DecidablePred (Event.BeforeTooBig l) := fun e => by
  rcases e <;> unfold Event.BeforeTooBig <;> infer_instance

/-- No read writes past the buffer. -/
abbrev ReadsFit (sz : ℕ) : List Event → Prop := Always fun _ => Event.ReadFits sz

/-- No socket is read from once a message has been rejected because of its size. -/
abbrev NoReadAfterTooBig : List Event → Prop := Always Event.BeforeTooBig

/-- What is left to be read, compared with the room in the buffer. -/
inductive Bound (sz : ℕ) (s : Client) : Prop
  | within (dataSize : s.input.dataSize = sz) (fit : ReadsFit sz s.log)
    (before : NoReadAfterTooBig s.log) (notMem : .tooBig ∉ s.log)
    (le : s.input.size + s.input.left ≤ sz)
    (header : s.input.state = .header → s.input.size + s.input.left = headerSize)
  /-- A message has been rejected, and nothing has been read since. -/
  | beyond (fit : ReadsFit sz s.log) (before : NoReadAfterTooBig s.log) (mem : .tooBig ∈ s.log)
    (lt : sz < s.input.size + s.input.left)
  /-- Something has been read then. -/
  | broken (fit : ¬ ReadsFit sz s.log) (before : ¬ NoReadAfterTooBig s.log)

section

variable {sz : ℕ} {s t w : Client} {l evs : List Event} {bs : List UInt8} {m : Message}

theorem Bound.iff (h : Bound sz s) : ReadsFit sz s.log ↔ NoReadAfterTooBig s.log := by
  cases h with
  | within dataSize fit before notMem le header => exact ⟨fun _ => before, fun _ => fit⟩
  | beyond fit before mem lt => exact ⟨fun _ => before, fun _ => fit⟩
  | broken fit before => exact ⟨fun h => absurd h fit, fun h => absurd h before⟩

/-- What has gone wrong stays wrong. -/
theorem broken_suffix (fit : ¬ ReadsFit sz l) (before : ¬ NoReadAfterTooBig l) (h : l <:+ t.log) :
    Bound sz t :=
  .broken (fun ht => fit (ht.suffix h)) fun ht => before (ht.suffix h)

/-- Events of other kinds change nothing about the reads. -/
theorem append_iff (sz : ℕ) (l : List Event) (h : ∀ e ∈ evs, e.ofInput = false) :
    (ReadsFit sz (evs ++ l) ↔ ReadsFit sz l) ∧
      (NoReadAfterTooBig (evs ++ l) ↔ NoReadAfterTooBig l) ∧
      (Event.tooBig ∈ evs ++ l ↔ Event.tooBig ∈ l) := by
  have hfit : ∀ e ∈ evs, ∀ l : List Event, e.ReadFits sz ∧ e.BeforeTooBig l := by
    intro e he l
    have hin := h e he
    cases e <;> first | exact ⟨trivial, trivial⟩ | cases hin
  refine ⟨⟨fun ha => ha.suffix (List.suffix_append _ _), ?_⟩,
    ⟨fun ha => ha.suffix (List.suffix_append _ _), ?_⟩, ?_⟩
  · intro ha
    exact ha.append fun e he l => (hfit e he l).1
  · intro ha
    exact ha.append fun e he l => (hfit e he l).2
  · rw [List.mem_append]
    refine or_iff_right fun hmem => ?_
    cases h _ hmem

theorem Kept.bound (h : Kept s t) (hs : Bound sz s) : Bound sz t := by
  obtain ⟨evs, hlog, hevs⟩ := h.log
  obtain ⟨hfit, hbefore, hmem⟩ := append_iff sz s.log hevs
  rw [← hlog] at hfit hbefore hmem
  have hinput := h.input
  cases hs with
  | within dataSize fit before notMem le header =>
    rw [← hinput] at dataSize le header
    exact .within dataSize (hfit.2 fit) (hbefore.2 before) (fun h => notMem (hmem.1 h)) le header
  | beyond fit before mem lt =>
    rw [← hinput] at lt
    exact .beyond (hfit.2 fit) (hbefore.2 before) (hmem.2 mem) lt
  | broken fit before => exact .broken (fun h => fit (hfit.1 h)) fun h => before (hbefore.1 h)

/-- An event that is not a read, and rejects nothing. -/
theorem Bound.event {e : Event} (hs : Bound sz s) (fit : e.ReadFits sz)
    (before : ∀ l, e.BeforeTooBig l)
    (ne : e ≠ .tooBig) (input : t.input = s.input) (log : t.log = e :: s.log) : Bound sz t := by
  cases hs with
  | within dataSize hfit hbefore notMem le header =>
    rw [← input] at dataSize le header
    refine .within dataSize ?_ ?_ ?_ le header
    · exact log ▸ ⟨fit, hfit⟩
    · exact log ▸ ⟨before _, hbefore⟩
    · rw [log]
      exact List.not_mem_cons_of_ne_of_not_mem ne.symm notMem
  | beyond hfit hbefore mem lt =>
    rw [← input] at lt
    refine .beyond ?_ ?_ ?_ lt
    · exact log ▸ ⟨fit, hfit⟩
    · exact log ▸ ⟨before _, hbefore⟩
    · exact log ▸ List.mem_cons_of_mem e mem
  | broken hfit hbefore => exact broken_suffix hfit hbefore (log ▸ List.suffix_cons e s.log)

theorem QuietStep.bound (h : QuietStep s t) (hs : Bound sz s) : Bound sz t := by
  cases h with
  | kept h => exact h.bound hs
  | connected fd pending input inputBuf log =>
    exact hs.event (e := .onConnected fd pending) trivial (fun _ => trivial) nofun input log

theorem Quiet.bound (h : Quiet s t) (hs : Bound sz s) : Bound sz t := by
  induction h with
  | refl => exact hs
  | tail _ h ih => exact h.bound ih

theorem Handled.bound (h : Handled m s t) (hs : Bound sz s) : Bound sz t := by
  cases h with
  | other type h => exact h.bound hs
  | newFailed type h =>
    exact h ▸ hs.event (e := .newFailed) trivial (fun _ => trivial) nofun rfl rfl
  | decode type h =>
    exact h.bound (hs.event (e := .decode m.2) trivial (fun _ => trivial) nofun rfl rfl)
  | onMessage type h =>
    have hdec : Bound sz (s.emit (.decode m.2)) :=
      hs.event (e := .decode m.2) trivial (fun _ => trivial) nofun rfl rfl
    exact h.bound (hdec.event (e := .onMessage m.2) trivial (fun _ => trivial) nofun rfl rfl)

/-- A read of an open socket that does not fit. -/
theorem Bound.over_read (bs : List UInt8) (lt : sz < s.input.size + s.input.left)
    (mem : .tooBig ∈ s.log) (fd : s.serverFd ≠ -1) (h : (readBytes s bs).log <:+ t.log) :
    Bound sz t := by
  refine broken_suffix (fun hfit => ?_) (fun hbefore => ?_) h
  · exact absurd (hfit.1.resolve_left fd) (Nat.not_le.2 lt)
  · exact hbefore.1.resolve_left fd mem

/-- The log after a read that fits. -/
theorem within_read (fit : ReadsFit sz s.log) (before : NoReadAfterTooBig s.log)
    (notMem : .tooBig ∉ s.log) (le : s.input.size + s.input.left ≤ sz) (bs : List UInt8) :
    ReadsFit sz (readBytes s bs).log ∧ NoReadAfterTooBig (readBytes s bs).log ∧
      .tooBig ∉ (readBytes s bs).log := by
  refine ⟨⟨Or.inr le, fit⟩, ⟨Or.inr notMem, before⟩, ?_⟩
  exact List.not_mem_cons_of_ne_of_not_mem nofun notMem

/-- Nothing is read. -/
theorem Bound.idle (hs : Bound sz s) : Bound sz (readBytes s []) := by
  cases hs with
  | within dataSize fit before notMem le header =>
    obtain ⟨hfit, hbefore, hmem⟩ := within_read fit before notMem le []
    exact .within dataSize hfit hbefore hmem le header
  | beyond fit before mem lt =>
    by_cases hfd : s.serverFd = -1
    · exact .beyond ⟨Or.inl hfd, fit⟩ ⟨Or.inl hfd, before⟩ (List.mem_cons_of_mem _ mem) lt
    · exact Bound.over_read _ lt mem hfd List.suffix_rfl
  | broken fit before => exact broken_suffix fit before (List.suffix_cons _ _)

/-- After a message the whole buffer can be used again. -/
theorem Bound.reset (hs : Bound sz s) (hsz : headerSize ≤ sz)
    (hle : s.input.size + s.input.left ≤ sz) : Bound sz (resetInputEncoded s) := by
  cases hs with
  | within dataSize fit before notMem le header =>
    refine .within dataSize fit before notMem ?_ fun _ => ?_
    · show 0 + headerSize ≤ sz
      rwa [Nat.zero_add]
    · exact Nat.zero_add headerSize
  | beyond fit before mem lt => exact absurd hle (Nat.not_le.2 lt)
  | broken fit before => exact .broken fit before

theorem Step.bound (hsz : headerSize ≤ sz) (h : Step s t) (hs : Bound sz s) : Bound sz t := by
  have hsuffix := h.log_suffix
  cases hs with
  | broken fit before => exact broken_suffix fit before hsuffix
  | beyond fit before mem lt =>
    have hs : Bound sz s := .beyond fit before mem lt
    cases h with
    | quiet h => exact h.bound hs
    | idle h => exact h ▸ hs.idle
    | part bs fd _ h => exact Bound.over_read bs lt mem fd (h ▸ List.suffix_rfl)
    | reject bs fd length h =>
      refine Bound.over_read bs lt mem fd ?_
      rw [loadHeader_log h]
      exact List.suffix_cons _ _
    | body bs fd length h pos =>
      refine Bound.over_read bs lt mem fd ?_
      rw [loadHeader_log h]
      exact List.suffix_rfl
    | message bs u w m fd length load zero eq h reset =>
      refine Bound.over_read bs lt mem fd ?_
      have hu := loadHeader_log load
      rw [if_pos rfl] at hu
      rw [reset, ← hu]
      exact (List.suffix_cons _ _).trans h.log_suffix
  | within dataSize fit before notMem le header =>
    have hread := within_read fit before notMem le
    cases h with
    | quiet h => exact h.bound (.within dataSize fit before notMem le header)
    | idle h => exact h ▸ (Bound.within dataSize fit before notMem le header).idle
    | part bs fd lt h =>
      obtain ⟨hfit, hbefore, hmem⟩ := hread bs
      have hsum : s.input.size + bs.length + (s.input.left - bs.length) =
          s.input.size + s.input.left := by omega
      subst h
      exact .within dataSize hfit hbefore hmem (hsum.trans_le le) fun h => hsum.trans (header h)
    | reject bs fd length h =>
      obtain ⟨hfit, hbefore, hmem⟩ := hread bs
      obtain ⟨hstate, hbig, rfl⟩ := loadHeader_spec h
      have hsize : s.input.size + bs.length = headerSize := by
        rw [length]
        exact header hstate
      refine .beyond ⟨trivial, hfit⟩ ⟨trivial, hbefore⟩ List.mem_cons_self ?_
      have hbig' : sz < (headerGetSize (inputHeader (readBytes s bs))).toNat + headerSize :=
        lt_of_eq_of_lt dataSize.symm hbig
      show sz < s.input.size + bs.length + (headerGetSize (inputHeader (readBytes s bs))).toNat
      omega
    | body bs fd length h pos =>
      obtain ⟨hfit, hbefore, hmem⟩ := hread bs
      rcases loadHeader_spec h with ⟨-, rfl⟩ | ⟨hstate, hle, rfl⟩
      · have hleft : 0 < s.input.left - bs.length := pos
        omega
      · have hsize : s.input.size + bs.length = headerSize := by
          rw [length]
          exact header hstate
        refine .within dataSize hfit hbefore hmem ?_ nofun
        have hle' : (headerGetSize (inputHeader (readBytes s bs))).toNat + headerSize ≤ sz :=
          le_of_le_of_eq hle dataSize
        show s.input.size + bs.length + (headerGetSize (inputHeader (readBytes s bs))).toNat ≤ sz
        omega
    | message bs u w m fd length load zero eq h reset =>
      obtain ⟨hfit, hbefore, hmem⟩ := hread bs
      obtain ⟨hstate, hdata, hsize, hlog⟩ := loadHeader_payload load
      rw [← hlog] at hfit hbefore hmem
      have hle : u.input.size + u.input.left ≤ sz := by
        rw [hsize, zero]
        show s.input.size + bs.length ≤ sz
        rwa [length]
      have hu : Bound sz u := .within (hdata.trans dataSize) hfit hbefore hmem hle
        fun h => absurd (h.symm.trans hstate) nofun
      have hw := h.bound (hu.event (e := .handleMessage m) trivial (fun _ => trivial) nofun rfl rfl)
      have hleft : w.input.size + w.input.left ≤ sz := h.input ▸ hle
      subst reset
      exact hw.reset hsz hleft

theorem Steps.bound (hsz : headerSize ≤ sz) (h : Steps s t) (hs : Bound sz s) : Bound sz t := by
  induction h with
  | refl => exact hs
  | tail _ h ih => exact h.bound hsz ih

theorem clientInit_bound (hsz : headerSize ≤ sz) (m : Client) (k : ℕ) :
    Bound sz (clientInit m sz k) :=
  .within rfl trivial trivial nofun (by simpa [clientInit, resetInputEncoded] using hsz) fun _ =>
    rfl

/-- In every run, no read of an open socket writes past the buffer if and only if none of them comes
after a message has been rejected because of its size. -/
theorem reads_fit_iff (hsz : headerSize ≤ sz) (m : Client) (k : ℕ) (top inner : Rights) (n : ℕ)
    (calls : List Call) : ReadsFit sz (run top inner n calls (clientInit m sz k)).log ↔
      NoReadAfterTooBig (run top inner n calls (clientInit m sz k)).log :=
  ((run_steps top inner n calls _).bound hsz (clientInit_bound hsz m k)).iff

/-- The server announces a message of 256 bytes; then the client connects again, and one byte
arrives. -/
def tooBigCalls : List Call :=
  [.start (accepts 5 6), receive 5 [read (.data [2, 0, 1, 0]) []] 7, reconnect 7 5 6,
    receive 5 [read (.data [2]) []] 7]

theorem reads_fit_iff_tooBigCalls :
    ReadsFit 16 (run anything anything 1 tooBigCalls (client 16)).log ↔
      NoReadAfterTooBig (run anything anything 1 tooBigCalls (client 16)).log :=
  reads_fit_iff (by decide) memory 64 anything anything 1 tooBigCalls

set_option maxRecDepth 4000 in
/-- 256 bytes are read to offset 4 of a buffer of 16 bytes. -/
theorem not_readsFit_tooBigCalls :
    ¬ ReadsFit 16 (run anything anything 1 tooBigCalls (client 16)).log := by
  decide

end

end Messi.LinuxClient
