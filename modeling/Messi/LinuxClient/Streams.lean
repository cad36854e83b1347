import Messi.LinuxClient.Receiving

/-!
# The streams of the client's connection

What the client hands to the user of what it has received, and what it has written, both since
`on_connected` was called last. A client that has connected once has not carried anything over to
its connection (`atBoundary_of_connects`).
-/

namespace Messi.LinuxClient

open Framing Relation Trace

/-- The number of connections that have been made. -/
def connects : List Event → ℕ
  | [] => 0
  | .onConnected .. :: l => connects l + 1
  | _ :: l => connects l

/-- The bytes that the socket of the last connection has accepted. -/
def outgoing : List Event → List UInt8
  | [] => []
  | .onConnected .. :: _ => []
  | .write _ m n :: l => outgoing l ++ (frameBytes m).take n
  | _ :: l => outgoing l

/-- The payloads of the user messages. -/
def userPayloads (ms : List Message) : List (List UInt8) :=
  (ms.filter fun m => m.1 = messageTypeServerToClientUser).map Prod.snd

/-- The client has handed every user message that it has handled to the decoder, if there was memory
for all of them. -/
def Decoded (s : Client) : Prop :=
  .newFailed ∉ s.log → decoded s.log = userPayloads (handled s.log)

section

variable {sz : ℕ} {s t : Client} {l evs : List Event} {e : Event}

/-! ## What is decoded -/

theorem userPayloads_prefix {ms ns : List Message} (h : ms <+: ns) :
    userPayloads ms <+: userPayloads ns :=
  (h.filter _).map _

theorem userPayloads_append (ms ns : List Message) :
    userPayloads (ms ++ ns) = userPayloads ms ++ userPayloads ns := by
  unfold userPayloads
  rw [List.filter_append, List.map_append]

theorem decoded_append (h : ∀ e ∈ evs, e.ofInput = false) :
    decoded (evs ++ l) = decoded l ∧ (.newFailed ∈ evs ++ l ↔ .newFailed ∈ l) := by
  induction evs with
  | nil => exact ⟨rfl, Iff.rfl⟩
  | cons e evs ih =>
    obtain ⟨hd, hf⟩ := ih fun e' he' => h e' (List.mem_cons_of_mem e he')
    have he := h e List.mem_cons_self
    have hne : .newFailed ≠ e := by
      rintro rfl
      cases he
    refine ⟨?_, ?_⟩
    · cases e <;> first | exact hd | cases he
    · rw [List.cons_append, List.mem_cons, hf]
      exact or_iff_right hne

theorem Kept.decoded (h : Kept s t) (hs : Decoded s) : Decoded t := by
  obtain ⟨evs, hlog, hevs⟩ := h.log
  obtain ⟨hd, hf⟩ := decoded_append (l := s.log) hevs
  obtain ⟨-, hh⟩ := received_append (l := s.log) hevs
  unfold Decoded
  rw [hlog, hf, hd, hh]
  exact hs

theorem QuietStep.decoded (h : QuietStep s t) (hs : Decoded s) : Decoded t := by
  cases h with
  | kept h => exact h.decoded hs
  | connected fd pending input inputBuf log =>
    unfold Decoded
    rw [log]
    exact fun _ => rfl

theorem Quiet.decoded (h : Quiet s t) (hs : Decoded s) : Decoded t := by
  induction h with
  | refl => exact hs
  | tail _ h ih => exact h.decoded ih

/-- A user message is decoded, and no other message is. -/
theorem Handled.decoded {m : Message} (h : Handled m (s.emit (.handleMessage m)) t)
    (hs : Decoded s) : Decoded t := by
  have hmsg : LinuxClient.handled (.handleMessage m :: s.log) = LinuxClient.handled s.log ++ [m] :=
    rfl
  have hdec : m.1 = messageTypeServerToClientUser →
      Decoded ((s.emit (.handleMessage m)).emit (.decode m.2)) := fun type hn => by
    have hone : userPayloads [m] = [m.2] := by simp [userPayloads, type]
    show LinuxClient.decoded s.log ++ [m.2] = userPayloads (LinuxClient.handled s.log ++ [m])
    rw [userPayloads_append, hone, hs fun hmem => hn ?_]
    exact List.mem_cons_of_mem _ (List.mem_cons_of_mem _ hmem)
  cases h with
  | other type h =>
    refine h.decoded fun hn => ?_
    have hnone : userPayloads [m] = [] := by simp [userPayloads, type]
    rw [Client.emit_log, hmsg, userPayloads_append, hnone, List.append_nil]
    exact hs fun hmem => hn (List.mem_cons_of_mem _ hmem)
  | newFailed type h =>
    subst h
    exact fun hn => absurd List.mem_cons_self hn
  | decode type h => exact h.decoded (hdec type)
  | onMessage type h =>
    exact h.decoded fun hn => hdec type fun hmem => hn (List.mem_cons_of_mem _ hmem)

theorem readBytes_decoded (hs : Decoded s) (bs : List UInt8) : Decoded (readBytes s bs) :=
  fun hn => hs fun hmem => hn (List.mem_cons_of_mem _ hmem)

theorem loadHeader_decoded {ok : Bool} (h : loadHeader s = (ok, t)) (hs : Decoded s) :
    Decoded t := by
  have hlog := loadHeader_log h
  unfold Decoded
  rw [hlog]
  split_ifs
  · exact hs
  · exact fun hn => hs fun hmem => hn (List.mem_cons_of_mem _ hmem)

theorem Step.decoded (h : Step s t) (hs : Decoded s) : Decoded t := by
  cases h with
  | quiet h => exact h.decoded hs
  | idle h => exact h ▸ readBytes_decoded hs []
  | part bs fd lt h => exact h ▸ readBytes_decoded hs bs
  | reject bs fd length h => exact loadHeader_decoded h (readBytes_decoded hs bs)
  | body bs fd length h pos => exact loadHeader_decoded h (readBytes_decoded hs bs)
  | message bs u w m fd length load zero eq h reset =>
    subst reset
    exact h.decoded (loadHeader_decoded load (readBytes_decoded hs bs))

theorem Steps.decoded (h : Steps s t) (hs : Decoded s) : Decoded t := by
  induction h with
  | refl => exact hs
  | tail _ h ih => exact h.decoded ih

/-! ## The first connection -/

theorem connects_append (h : ∀ e ∈ evs, e.ofInput = false) : connects (evs ++ l) = connects l := by
  induction evs with
  | nil => rfl
  | cons e evs ih =>
    have hrest := ih fun e' he' => h e' (List.mem_cons_of_mem e he')
    have he := h e List.mem_cons_self
    cases e <;> first | exact hrest | cases he

/-- Before the first connection nothing is received, and the first connection finds nothing. -/
structure First (sz : ℕ) (s : Client) : Prop where
  down : connects s.log = 0 → s.serverFd = -1 ∧ received s.log = []
  boundary : connects s.log ≤ 1 → AtBoundary sz s.log

theorem AtBoundary.append (h : AtBoundary sz l) (he : ∀ e ∈ evs, e.ofInput = false) :
    AtBoundary sz (evs ++ l) := by
  refine Always.append h fun e hmem _ => ?_
  have hin := he e hmem
  cases e <;> first | exact trivial | cases hin

theorem QuietStep.first (h : QuietStep s t) (hs : First sz s) : First sz t := by
  cases h with
  | kept h =>
    obtain ⟨evs, hlog, hevs⟩ := h.log
    have hc := connects_append (l := s.log) hevs
    obtain ⟨hr, -⟩ := received_append (l := s.log) hevs
    refine ⟨fun hzero => ?_, fun hone => ?_⟩
    · rw [hlog, hc] at hzero
      obtain ⟨hfd, hnil⟩ := hs.down hzero
      refine ⟨?_, ?_⟩
      · rcases h.serverFd with hsame | hdown
        · exact hsame.trans hfd
        · exact hdown
      · rw [hlog, hr]
        exact hnil
    · rw [hlog, hc] at hone
      rw [hlog]
      exact (hs.boundary hone).append hevs
  | connected fd pending input inputBuf log =>
    refine ⟨fun hzero => ?_, fun hone => ?_⟩
    · rw [log] at hzero
      exact absurd hzero (Nat.succ_ne_zero _)
    · rw [log] at hone ⊢
      have hzero : connects s.log = 0 := Nat.le_zero.1 (Nat.le_of_succ_le_succ hone)
      refine ⟨?_, hs.boundary (hzero ▸ Nat.zero_le 1)⟩
      show (parse messi (fits sz) (received s.log)).2 = []
      rw [(hs.down hzero).2]
      rfl

theorem Quiet.first (h : Quiet s t) (hs : First sz s) : First sz t := by
  induction h with
  | refl => exact hs
  | tail _ h ih => exact h.first ih

theorem First.emit (hs : First sz s) (e : Event)
    (hup : s.serverFd ≠ -1 ∨ received (e :: s.log) = [])
    (hc : connects (e :: s.log) = connects s.log) (he : ∀ l, e.AtBoundary sz l) :
    First sz (s.emit e) := by
  refine ⟨fun hzero => ?_, fun hone => ⟨he _, hs.boundary (hc ▸ hone)⟩⟩
  obtain ⟨hfd, -⟩ := hs.down (hc ▸ hzero)
  exact ⟨hfd, hup.resolve_left fun hne => hne hfd⟩

theorem First.up (hs : First sz s) (hfd : s.serverFd ≠ -1) : connects s.log ≠ 0 :=
  fun hzero => hfd (hs.down hzero).1

/-- Whatever is done with what a socket has given, there is a socket. -/
theorem First.of_log (hs : First sz s) (hlog : t.log = s.log) (hfd : s.serverFd ≠ -1) :
    First sz t := by
  refine ⟨fun hzero => absurd (hlog ▸ hzero) (hs.up hfd), fun hone => ?_⟩
  rw [hlog] at hone ⊢
  exact hs.boundary hone

theorem First.readBytes (hs : First sz s) (bs : List UInt8) (hfd : s.serverFd ≠ -1) :
    First sz (readBytes s bs) :=
  (hs.emit (.read s.serverFd s.input.size s.input.left bs) (Or.inl hfd) rfl
    fun _ => trivial).of_log rfl hfd

theorem First.loadHeader {ok : Bool} (hs : First sz s) (h : loadHeader s = (ok, t))
    (hfd : s.serverFd ≠ -1) : First sz t := by
  have hlog := loadHeader_log h
  cases ok with
  | true => exact hs.of_log hlog hfd
  | false => exact (hs.emit .tooBig (Or.inl hfd) rfl fun _ => trivial).of_log hlog hfd

theorem loadHeader_serverFd {ok : Bool} (h : loadHeader s = (ok, t)) :
    t.serverFd = s.serverFd := by
  unfold LinuxClient.loadHeader at h
  dsimp only at h
  split_ifs at h <;> cases h <;> rfl

theorem Handled.first {m : Message} (h : Handled m s t) (hs : First sz s) (hfd : s.serverFd ≠ -1) :
    First sz t := by
  cases h with
  | other type h => exact h.first hs
  | newFailed type h => exact h ▸ hs.emit .newFailed (Or.inl hfd) rfl fun _ => trivial
  | decode type h => exact h.first (hs.emit (.decode m.2) (Or.inl hfd) rfl fun _ => trivial)
  | onMessage type h =>
    have hdec : First sz (s.emit (.decode m.2)) :=
      hs.emit (.decode m.2) (Or.inl hfd) rfl fun _ => trivial
    exact h.first (hdec.emit (.onMessage m.2) (Or.inl hfd) rfl fun _ => trivial)

theorem Step.first (h : Step s t) (hs : First sz s) : First sz t := by
  cases h with
  | quiet h => exact h.first hs
  | idle h =>
    subst h
    have hread : First sz (s.emit (.read s.serverFd s.input.size s.input.left [])) := by
      refine ⟨fun hzero => ?_, fun hone => ⟨trivial, hs.boundary hone⟩⟩
      obtain ⟨hfd, hnil⟩ := hs.down hzero
      exact ⟨hfd, (List.append_nil _).trans hnil⟩
    exact ⟨hread.down, hread.boundary⟩
  | part bs fd lt h => exact h ▸ hs.readBytes bs fd
  | reject bs fd length h => exact (hs.readBytes bs fd).loadHeader h fd
  | body bs fd length h pos => exact (hs.readBytes bs fd).loadHeader h fd
  | message bs u w m fd length load zero eq h reset =>
    have hu := (hs.readBytes bs fd).loadHeader load fd
    have hfd : u.serverFd ≠ -1 := (loadHeader_serverFd load).symm ▸ fd
    have hw := h.first (hu.emit (.handleMessage m) (Or.inl hfd) rfl fun _ => trivial) hfd
    subst reset
    exact ⟨hw.down, hw.boundary⟩

theorem Steps.first (h : Steps s t) (hs : First sz s) : First sz t := by
  induction h with
  | refl => exact hs
  | tail _ h ih => exact h.first ih

theorem clientInit_first (m : Client) (sz k : ℕ) : First sz (clientInit m sz k) :=
  ⟨fun _ => ⟨rfl, rfl⟩, fun _ => trivial⟩

/-- A client that has connected once at most has handled the first messages of its stream, and
decoded those of its user. -/
theorem Steps.synced_first {m : Client} {k : ℕ} (h : Steps (clientInit m sz k) t)
    (hone : connects t.log ≤ 1) : Synced sz t :=
  h.synced ((h.first (clientInit_first m sz k)).boundary hone) (clientInit_synced m sz k)

theorem Steps.decoded_init {m : Client} {k : ℕ} (h : Steps (clientInit m sz k) t) : Decoded t :=
  h.decoded fun _ => rfl

end

end Messi.LinuxClient
