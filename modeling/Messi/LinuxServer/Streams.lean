import Messi.LinuxServer.Slots

/-!
# The streams of a connection

What comes in is cut into messages as if it had been read at once (`frames_handled`), and what goes
out is what the user and the pongs have issued (`stream_exact`), whatever `read()` and `write()`
return.
-/

namespace Messi.LinuxServer

open Framing Sample

variable {sz n : ℕ} {s : Server} {v : View} {c : Slot}

/-! ## What comes in -/

/-- The messages that are handled are those of the connection's own bytes, up to the first one that
does not fit in the input buffer; none is handled once a connection has ended, and `read()` stays in
the slice of its client. -/
structure FramesHandled (sz : ℕ) (log : List Event) : Prop where
  all : ∀ c, handled c log = (parse messi (fits sz) (received c log)).1.map messageOf
  stream : ∀ c bs, received c log <+: bs → handled c log <+: messages bs
  up : ∀ c m l, Event.handleMessage c m :: l <:+ log → ended c l = false
  read : ∀ c fd addr want bs l, Event.read c fd addr want bs :: l <:+ log →
    (bs ≠ [] → ended c l = false) ∧
      (fd ≠ -1 → 0 < want ∧ c * sz ≤ addr ∧ addr + want ≤ (c + 1) * sz)

theorem Good.framesHandled (h : Good sz s v) (hb : v.busy = none) (hsz : headerSize ≤ sz) :
    FramesHandled sz s.log where
  all c := (h.reception hsz).received c (by simp [hb])
  stream c bs hbs := by
    rw [show handled c s.log = _ from (h.reception hsz).received c (by simp [hb])]
    have hfit : (parse messi (fits sz) (received c s.log)).1 <+: frames messi (received c s.log) :=
      parse_prefix_frames _
    exact (hfit.trans (parse_frames_mono hbs)).map messageOf
  up c m l hl := h.log.event hl
  read c fd addr want bs l hl := by
    obtain ⟨-, hended, hin⟩ := h.log.event hl
    exact ⟨hended, hin hsz⟩

/-- Reception, with input buffers that hold a header. -/
theorem frames_handled {m : Server} {messageSize : ℕ} {e : StartEnv} {b : Bool} (hn : 0 < n)
    (hsz : headerSize ≤ sz) (hs : started m n sz messageSize e = (0, s)) (depth : ℕ)
    (calls : List Call) (hu : b = true → ¬ BadUnlink (run ⟨false, b⟩ depth calls s).state.log) :
    FramesHandled sz (run ⟨false, b⟩ depth calls s).state.log := by
  obtain ⟨v, hb, hg, -⟩ := run_good (d := ⟨false, b⟩) hn hs rfl depth calls hu
  exact hg.framesHandled hb hsz

/-- Two clients send in pieces; the first one is disconnected while its second message is handled,
and its slot is taken again. -/
def piecesCalls : List Call :=
  [connect 5 6, connect 7 8, receive 5 [read (.data [1, 0]) []],
    receive 7 [read (.data [3, 0, 0]) []],
    receive 5 [read (.data [0, 2]) [], read (.data [20, 21]) [],
      read (.data [1, 0, 0, 0]) [.disconnect none]],
    receive 7 [read (.data [0]) [], read (.data [1]) []], connect 9 10,
    receive 9 [read (.data [1, 0, 0, 13]) []]]

theorem frames_handled_piecesCalls :
    FramesHandled 16 (run ⟨false, false⟩ 0 piecesCalls (server 2 16)).state.log :=
  frames_handled (n := 2) (m := memory) (e := start) (b := false) (by decide)
    (by decide) rfl 0 piecesCalls nofun

/-! ## What goes out -/

/-- Unless an allocation has failed on the connection, what its socket has accepted and what is
queued is what has been issued; and once it is disconnected, the socket has accepted the first part
of that. -/
structure StreamExact (s : Server) (c : Slot) : Prop where
  connected : mallocOk c s.log → phase c s.log = some .connected →
    ∃ q, Queue (s.output c) q ∧
      accepted c s.log ++ itemsBytes (s.output c) q = (issued c s.log).flatMap frameBytes
  any : mallocOk c s.log → accepted c s.log <+: (issued c s.log).flatMap frameBytes

theorem Good.mem_connected (h : Good sz s v) (hc : phase c s.log = some .connected) :
    c ∈ v.connected := by
  by_contra hn
  by_cases hp : c ∈ v.pending
  · have hphase := h.slots.pendingPhase c hp
    rw [hc] at hphase
    split_ifs at hphase <;> cases hphase
  · have hphase := h.slots.freePhase c hn hp
    rw [hc] at hphase
    cases hphase

theorem Good.streamExact (h : Good sz s v) (hb : v.busy = none) (c : Slot) : StreamExact s c where
  connected hm hc := by
    obtain ⟨q, hq, howes⟩ := h.output c (h.mem_connected hc) (by simp [hb])
    refine ⟨q, hq, ?_⟩
    rw [← howes hm, List.append_nil]
  any := h.sent c

/-- The stream to every client, in every run. -/
theorem stream_exact {m : Server} {messageSize : ℕ} {e : StartEnv} {b : Bool} (hn : 0 < n)
    (hs : started m n sz messageSize e = (0, s)) (depth : ℕ) (calls : List Call)
    (hu : b = true → ¬ BadUnlink (run ⟨false, b⟩ depth calls s).state.log) (c : Slot) :
    StreamExact (run ⟨false, b⟩ depth calls s).state c := by
  obtain ⟨v, hb, hg, -⟩ := run_good (d := ⟨false, b⟩) hn hs rfl depth calls hu
  exact hg.streamExact hb c

/-- A message is written in part and queued, a pong is queued behind it, and a part of that is
drained. -/
def queueCalls : List Call :=
  [connect 5 6, .send 0 (fun _ => some [20, 21, 22]) (writes [.accepted 2, .accepted 1, .eagain]),
    receive 5 [read (.data [3, 0, 0, 0]) []],
    .process 5 ⟨false, true⟩ { nothing with writes := [.accepted 4, .accepted 1, .eagain] }]

theorem stream_exact_queueCalls :
    StreamExact (run ⟨false, false⟩ 0 queueCalls (server 1 16)).state 0 :=
  stream_exact (n := 1) (m := memory) (e := start) (b := false) (by decide) rfl 0 queueCalls nofun 0

end Messi.LinuxServer
