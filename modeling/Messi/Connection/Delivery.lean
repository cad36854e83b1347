import Messi.Connection.Parties
import Messi.LinuxServer.Pongs
import Messi.LinuxServer.Streams
import Messi.Receiver

/-!
# Delivery

What the server's user sends is handed to the client's user, in order: the frames of the messages
that have been issued are the stream that the server's socket accepts and its queue holds
(`LinuxServer.stream_exact`), the client has received the first bytes of it, and has handled the
messages in what it has received (`LinuxClient.Synced`).
-/

namespace Messi.Connection

open Framing
open LinuxClient (Client decoded userPayloads clientInit)
open LinuxServer (Server issued accepted mallocOk phase started BadUnlink)

/-- The payloads that the client has handed to the decoder are the first ones of those that the
server has encoded for it; and they are all of them when the server has nothing queued and the
client has received all that has been accepted. -/
structure Delivered (σ : Setting) (sz : ℕ) (p : Parties) : Prop where
  inOrder : decoded p.client.log <+: userPayloads (issued σ.slot p.server.log)
  drained : phase σ.slot p.server.log = some .connected →
    (p.server.output σ.slot).headP = none →
    LinuxClient.received p.client.log = accepted σ.slot p.server.log →
    (∀ m ∈ issued σ.slot p.server.log, m.1 = messageTypeServerToClientUser →
      m.2.length + headerSize ≤ sz) →
    decoded p.client.log = userPayloads (issued σ.slot p.server.log)

section

variable {sz : ℕ} {ms : List Message} {s : Server} {t : Client} {p : Parties} {σ : Setting}

/-- A receiver whose buffer is large enough for them handles all messages of a stream. -/
theorem parse_wire (hshort : ∀ m ∈ ms, m.2.length < 2 ^ 24)
    (hfit : ∀ m ∈ ms, m.2.length + headerSize ≤ sz) :
    (parse messi (fits sz) (ms.flatMap frameBytes)).1.map messageOf = ms := by
  have hok : ∀ m ∈ ms, m.2.length < 2 ^ 24 ∧ fits sz (frameOf m).1 = true := by
    intro m hm
    refine ⟨hshort m hm, decide_eq_true ?_⟩
    rw [bodyLen_frameOf (hshort m hm)]
    exact hfit m hm
  have hall := parse_frameBytes hok []
  rw [List.append_nil, parse_nil, List.append_nil] at hall
  rw [hall, List.map_map]
  exact List.map_id ms

/-- No message of the user fits in a buffer that does not hold a header. -/
theorem userPayloads_nil (hsz : sz < headerSize) (hfit : ∀ m ∈ ms,
    m.1 = messageTypeServerToClientUser → m.2.length + headerSize ≤ sz) : userPayloads ms = [] := by
  unfold userPayloads
  rw [List.filter_eq_nil_iff.2, List.map_nil]
  intro m hm huser
  have hle := hfit m hm (of_decide_eq_true huser)
  omega

/-- The client has handled the first messages of those that the server has issued. -/
theorem handled_first (hw : Wired σ p) (hstream : LinuxServer.StreamExact p.server σ.slot)
    (hmalloc : mallocOk σ.slot p.server.log)
    (hshort : ∀ m ∈ issued σ.slot p.server.log, m.2.length < 2 ^ 24)
    (hsynced : LinuxClient.Synced sz p.client) :
    LinuxClient.handled p.client.log <+: issued σ.slot p.server.log := by
  have hbytes := hw.toClient.trans (hstream.any hmalloc)
  have hmessages := messages_mono hbytes
  rw [messages_wire hshort] at hmessages
  exact hsynced.frames.head.trans hmessages

/-! ## What each of the two keeps to -/

variable {n serverSize messageSize : ℕ} {w : Server} {e : LinuxServer.StartEnv} {s : Server}
  {c t₀ : Client} {k : ℕ} {calls : List LinuxClient.Call}

theorem Seen.streamExact (h : Seen σ s t₀ p) (hn : 0 < n)
    (hs : started w n serverSize messageSize e = (0, s))
    (hu : σ.callInDisconnected = true → ¬ BadUnlink p.server.log) :
    LinuxServer.StreamExact p.server σ.slot := by
  obtain ⟨calls, hcalls⟩ := h.server
  rw [← hcalls]
  obtain ⟨v, hb, hg, -⟩ :=
    LinuxServer.run_good hn hs rfl σ.depth calls fun hb => hcalls.symm ▸ hu hb
  exact hg.streamExact hb σ.slot

theorem Seen.answers (h : Seen σ s t₀ p) (hs : started w n serverSize messageSize e = (0, s)) :
    LinuxServer.Answers σ.slot p.server.log := by
  obtain ⟨calls, hcalls⟩ := h.server
  exact hcalls ▸ LinuxServer.run_answers hs σ.discipline σ.depth calls σ.slot

/-- The client goes on from what it has done before. -/
theorem Seen.steps (h : Seen σ s t₀ p)
    (ht₀ : t₀ = LinuxClient.run σ.top σ.inner σ.nest calls (clientInit c sz k)) :
    LinuxClient.Steps (clientInit c sz k) p.client := by
  obtain ⟨calls', hcalls⟩ := h.client
  rw [hcalls, ht₀]
  exact (LinuxClient.run_steps _ _ _ _ _).trans (LinuxClient.run_steps _ _ _ _ _)

/-! ## Delivery -/

/-- Delivery, whatever the two have done before: the server since it was started, the client since
`NAME_client_init()`. -/
theorem delivered_in_order {s₀ : Server} (hn : 0 < n)
    (hs : started w n serverSize messageSize e = (0, s)) (σ : Setting)
    (before : List LinuxServer.Call)
    (hs₀ : LinuxServer.run σ.discipline σ.depth before s = .done () s₀) (c : Client) (sz k : ℕ)
    (calls : List LinuxClient.Call)
    (ht₀ : t₀ = LinuxClient.run σ.top σ.inner σ.nest calls (clientInit c sz k))
    (hw : Wired σ ⟨s₀, t₀⟩) (acts : List Act) (hp : p = (run σ acts ⟨s₀, t₀⟩).state)
    (hu : σ.callInDisconnected = true → ¬ BadUnlink p.server.log)
    (hmalloc : mallocOk σ.slot p.server.log)
    (hshort : ∀ m ∈ issued σ.slot p.server.log, m.2.length < 2 ^ 24)
    (hnew : .newFailed ∉ p.client.log) : Delivered σ sz p := by
  have hseen : Seen σ s t₀ p := hp ▸ run_seen acts ⟨hw, ⟨before, hs₀⟩, [], rfl⟩
  have hwired := hseen.wired
  have hstream := hseen.streamExact hn hs hu
  have hanswers := hseen.answers hs
  have hsteps := hseen.steps ht₀
  have hsynced := hsteps.synced_first hwired.connects.le
  have hdecoded := hsteps.decoded_init hnew
  have hprefix := handled_first hwired hstream hmalloc hshort hsynced
  have horder : decoded p.client.log <+: userPayloads (issued σ.slot p.server.log) := by
    rw [hdecoded]
    exact LinuxClient.userPayloads_prefix hprefix
  refine ⟨horder, fun hcon hqueue hwire hfit => ?_⟩
  by_cases hsz : headerSize ≤ sz
  · -- All that has been issued has been received.
    obtain ⟨q, hq, howes⟩ := hstream.connected hmalloc hcon
    have hnil : q = [] := hq.eq_nil hqueue
    subst hnil
    have hall : LinuxClient.received p.client.log =
        (issued σ.slot p.server.log).flatMap frameBytes := by
      rw [hwire, ← howes]
      exact (List.append_nil _).symm
    have hfits : ∀ m ∈ issued σ.slot p.server.log, m.2.length + headerSize ≤ sz := by
      intro m hm
      rcases hanswers.issued m hm with huser | rfl
      · exact hfit m hm huser
      · exact hsz
    have hhandled := hsynced.received
    unfold LinuxClient.Received at hhandled
    rw [hdecoded, hhandled, hall, parse_wire hshort hfits]
  · have hnone := userPayloads_nil (Nat.lt_of_not_le hsz) hfit
    rw [hnone] at horder ⊢
    exact List.prefix_nil.1 horder

end

/-! ## A run -/

namespace Sample

/-- The users do not call back, and the client is in the first slot. -/
def setting : Setting := ⟨false, 0, LinuxClient.Sample.anything, LinuxClient.Sample.anything, 1, 0⟩

/-- A server whose only slot is taken, and a client that has connected. -/
def connected (sz messageSize : ℕ) : Parties where
  server := (LinuxServer.run ⟨false, false⟩ 0 [LinuxServer.Sample.connect 5 6]
    (started LinuxServer.Sample.memory 1 sz messageSize LinuxServer.Sample.start).2).state
  client := LinuxClient.run LinuxClient.Sample.anything LinuxClient.Sample.anything 1
    [.start (LinuxClient.Sample.accepts 5 6)] (LinuxClient.Sample.client sz)

end Sample

open Sample

/-- A message is written in part, and the rest of it is queued and drained; the client reads it in
three pieces, one of which comes before the rest is drained. -/
def piecesActs : List Act :=
  [.server (.send 0 (fun _ => some [20, 21]) (LinuxServer.Sample.writes [.accepted 5, .eagain])),
    .client (LinuxClient.Sample.receive 5 [LinuxClient.Sample.read (.data [2, 0, 0]) []] 7),
    .server (.process 5 ⟨false, true⟩ { LinuxServer.Sample.nothing with writes := [.accepted 1] }),
    .client (LinuxClient.Sample.receive 5 [LinuxClient.Sample.read (.data [2]) [],
      LinuxClient.Sample.read (.data [20, 21]) []] 7)]

set_option maxRecDepth 8000 in
theorem delivered_in_order_piecesActs :
    Delivered setting 16 (run setting piecesActs (connected 16 64)).state :=
  delivered_in_order (n := 1) (w := LinuxServer.Sample.memory) (e := LinuxServer.Sample.start)
    (by decide) rfl setting [LinuxServer.Sample.connect 5 6] rfl LinuxClient.Sample.memory 16 64
    [.start (LinuxClient.Sample.accepts 5 6)] rfl (by decide) piecesActs rfl nofun (.inl rfl)
      (by decide)
    (by decide)

end Messi.Connection
