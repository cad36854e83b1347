import Messi.Connection.Delivery
import Messi.LinuxClient.KeepAlive

/-!
# Keep alive

A pong that the client handles is one that the server has issued, for a ping that the client had
sent before: what either of the two has handled are the first messages of those that the other one
has sent (`pongs_le`, `issued_le`). So the client knows by `pong_received` whether a ping is
outstanding (`kept_alive`). That fails when a payload of 16 MiB or more is sent: the size in its
header is too small, and a part of it is taken for messages (`not_keptAlive_longActs`).
-/

namespace Messi.Connection

open Framing Trace
open LinuxClient (Client Event Moves Sending Short clientInit connects pings pongs)
open LinuxServer (Server issued mallocOk BadUnlink started)

/-- The number of pongs that the server has issued to the client. -/
def pongsIssued (σ : Setting) (s : Server) : ℕ := (issued σ.slot s.log).countP isPong

/-- At most one ping is outstanding, and none is just when `pong_received` is true; no ping is sent
while one is outstanding, and the client disconnects with `keep_alive_timeout` only when one was at
the last expiry of its timer. -/
structure KeptAlive (σ : Setting) (p : Parties) : Prop where
  once : LinuxClient.outstanding (pongsIssued σ p.server) p.client.log ≤ 1
  flag : LinuxClient.outstanding (pongsIssued σ p.server) p.client.log = 0 ↔
    p.client.pongReceived = true
  prompt : Always (Event.Prompt (pongsIssued σ p.server)) p.client.log

/-- The client has received nothing on its connection, and no disconnect was pending when it was
made. -/
structure Fresh (t : Client) : Prop where
  received : LinuxClient.received t.log = []
  clear : Always (fun _ => Event.ConnectedClear) t.log

/-- No allocation has failed on the connection, and no client was unlinked with a wrong `prev_p`. -/
structure Assumed (σ : Setting) (p : Parties) : Prop where
  malloc : mallocOk σ.slot p.server.log
  unlinked : σ.callInDisconnected = true → ¬ BadUnlink p.server.log

/-- The size of every message fits in its header, in either direction. -/
structure InSize (σ : Setting) (p : Parties) : Prop where
  toClient : ∀ m ∈ issued σ.slot p.server.log, m.2.length < 2 ^ 24
  toServer : Short p.client.log

instance (σ : Setting) (p : Parties) : Decidable (Assumed σ p) :=
  decidable_of_iff (mallocOk σ.slot p.server.log ∧
    (σ.callInDisconnected = true → ¬ BadUnlink p.server.log))
    ⟨fun ⟨h, h'⟩ => ⟨h, h'⟩, fun ⟨h, h'⟩ => ⟨h, h'⟩⟩

instance (σ : Setting) (p : Parties) : Decidable (InSize σ p) :=
  decidable_of_iff ((∀ m ∈ issued σ.slot p.server.log, m.2.length < 2 ^ 24) ∧ Short p.client.log)
    ⟨fun ⟨h, h'⟩ => ⟨h, h'⟩, fun ⟨h, h'⟩ => ⟨h, h'⟩⟩

section

variable {σ : Setting} {s : Server} {t : Client} {p q : Parties} {sz n serverSize messageSize : ℕ}

/-! ## One step -/

/-- What one party does the other one does not. -/
def Turn (p q : Parties) : Prop :=
  q.client = p.client ∨ (q.server = p.server ∧ Moves p.client q.client)

theorem step_turn (a : Act) (p : Parties) : Turn p (step σ a p).state := by
  cases a with
  | server call =>
    unfold step
    dsimp only
    generalize serverAct σ call p.server = x
    cases x <;> dsimp only <;> split_ifs <;> exact Or.inl rfl
  | client call =>
    unfold step
    dsimp only
    split_ifs
    · exact Or.inr ⟨rfl, LinuxClient.callWith_moves _ _ _ call p.client⟩
    · exact Or.inl rfl

theorem run_turn (acts : List Act) (a : Act) (p : Parties) :
    Turn (run σ acts p).state (run σ (acts ++ [a]) p).state := by
  unfold run
  rw [Exec.runList_append]
  generalize Exec.runList (step σ) acts p = x
  cases x with
  | done r q =>
    rw [Exec.bind_done, Exec.runList_single]
    exact step_turn a q
  | inside q => exact Or.inl rfl

/-! ## Pongs come after their pings -/

theorem pongs_le (hw : Wired σ p) (hstream : LinuxServer.StreamExact p.server σ.slot)
    (hmalloc : mallocOk σ.slot p.server.log)
    (hshort : ∀ m ∈ issued σ.slot p.server.log, m.2.length < 2 ^ 24)
    (hsynced : LinuxClient.Synced sz p.client) : pongs p.client.log ≤ pongsIssued σ p.server :=
  (handled_first hw hstream hmalloc hshort hsynced).sublist.countP_le

theorem issued_le (hw : Wired σ ⟨s, t⟩) (hframes : LinuxServer.FramesHandled serverSize s.log)
    (hanswers : LinuxServer.Answers σ.slot s.log) (hsending : Sending t) :
    pongsIssued σ s ≤ pings t.log := by
  have hprefix := hframes.stream σ.slot _ hw.toServer
  rw [hsending.framed] at hprefix
  exact hanswers.pongs.trans hprefix.sublist.countP_le

/-! ## Runs -/

variable {w : Server} {e : LinuxServer.StartEnv} {c t₀ : Client} {s₀ : Server} {k : ℕ}
  {calls : List LinuxClient.Call}

theorem Seen.framesHandled (h : Seen σ s t₀ p) (hn : 0 < n) (hsz : headerSize ≤ serverSize)
    (hs : started w n serverSize messageSize e = (0, s))
    (hu : σ.callInDisconnected = true → ¬ BadUnlink p.server.log) :
    LinuxServer.FramesHandled serverSize p.server.log := by
  obtain ⟨calls, hcalls⟩ := h.server
  rw [← hcalls]
  obtain ⟨v, hb, hg, -⟩ :=
    LinuxServer.run_good hn hs rfl σ.depth calls fun hb => hcalls.symm ▸ hu hb
  exact hg.framesHandled hb hsz

theorem Seen.moves (h : Seen σ s t₀ p) : Moves t₀ p.client := by
  obtain ⟨calls, hcalls⟩ := h.client
  rw [hcalls]
  exact LinuxClient.run_moves _ _ _ _ _

theorem Seen.clear (h : Seen σ s t₀ p) (hone : connects t₀.log = 1) (hfresh : Fresh t₀) :
    Always (fun _ => Event.ConnectedClear) p.client.log :=
  LinuxClient.clear_extend hfresh.clear h.moves.log_suffix hone h.wired.connects

theorem Seen.sending (h : Seen σ s t₀ p) (hone : connects t₀.log = 1) (hfresh : Fresh t₀)
    (ht₀ : t₀ = LinuxClient.run σ.top σ.inner σ.nest calls (clientInit c sz k))
    (hshort : Short p.client.log) : Sending p.client := by
  have hmoves : Moves (clientInit c sz k) p.client :=
    (ht₀ ▸ LinuxClient.run_moves _ _ _ _ _ : Moves _ t₀).trans h.moves
  exact hmoves.sending (LinuxClient.clientInit_sending c sz k) (h.clear hone hfresh) hshort

/-- Every pong that the client handles is due. -/
theorem run_due (hn : 0 < n) (hsz : headerSize ≤ serverSize)
    (hs : started w n serverSize messageSize e = (0, s))
    (ht₀ : t₀ = LinuxClient.run σ.top σ.inner σ.nest calls (clientInit c sz k))
    (hfresh : Fresh t₀) (hjoined : Joined σ s t₀ ⟨s₀, t₀⟩) (acts : List Act)
    (hok : ∀ r, r <+: acts →
      Assumed σ (run σ r ⟨s₀, t₀⟩).state ∧ InSize σ (run σ r ⟨s₀, t₀⟩).state) :
    Always (Event.Due (pongsIssued σ (run σ acts ⟨s₀, t₀⟩).state.server))
      (run σ acts ⟨s₀, t₀⟩).state.client.log := by
  have hone := hjoined.wired.connects
  induction acts using List.reverseRecOn with
  | nil =>
    have hsynced := (hjoined.seen.steps ht₀).synced_first hone.le
    have hprefix := hsynced.frames.head
    rw [hfresh.received] at hprefix
    have hnone : LinuxClient.handled t₀.log = [] := List.prefix_nil.1 hprefix
    refine LinuxClient.due_none hone.le ?_
    show (LinuxClient.handled t₀.log).countP isPong = 0
    rw [hnone]
    rfl
  | append_singleton acts a ih =>
    have hdue := ih fun r hr => hok r (hr.trans (List.prefix_append _ _))
    have hbefore : Seen σ s t₀ (run σ acts ⟨s₀, t₀⟩).state := run_seen acts hjoined
    have hafter : Seen σ s t₀ (run σ (acts ++ [a]) ⟨s₀, t₀⟩).state := run_seen _ hjoined
    have hturn := run_turn (σ := σ) acts a ⟨s₀, t₀⟩
    obtain ⟨-, hsize⟩ := hok acts (List.prefix_append _ _)
    obtain ⟨hassumed', hsize'⟩ := hok (acts ++ [a]) List.prefix_rfl
    generalize (run σ acts ⟨s₀, t₀⟩).state = p at hdue hbefore hturn hsize
    generalize (run σ (acts ++ [a]) ⟨s₀, t₀⟩).state = q at hafter hturn hassumed' hsize'
    -- The server has issued its pongs for pings that were sent before this act.
    have hwired : Wired σ ⟨q.server, p.client⟩ := by
      rcases hturn with hclient | ⟨hserver, -⟩
      · rw [← hclient]
        exact hafter.wired
      · rw [hserver]
        exact hbefore.wired
    have hlog : p.client.log <:+ q.client.log := by
      rcases hturn with hclient | ⟨-, hmoves⟩
      · rw [hclient]
      · exact hmoves.log_suffix
    have hissued := issued_le hwired (hafter.framesHandled hn hsz hs hassumed'.unlinked)
      (hafter.answers hs) (hbefore.sending hone hfresh ht₀ hsize.toServer)
    have hpongs := pongs_le hafter.wired (hafter.streamExact hn hs hassumed'.unlinked)
      hassumed'.malloc hsize'.toClient ((hafter.steps ht₀).synced_first hafter.wired.connects.le)
    exact LinuxClient.due_extend hdue hlog hbefore.wired.connects hafter.wired.connects
      (hpongs.trans hissued) hpongs

/-- Keep alive, on a connection on which all messages are short enough. -/
theorem kept_alive (hn : 0 < n) (hsz : headerSize ≤ serverSize)
    (hs : started w n serverSize messageSize e = (0, s)) (σ : Setting)
    (before : List LinuxServer.Call)
    (hs₀ : LinuxServer.run σ.discipline σ.depth before s = .done () s₀) (c : Client) (sz k : ℕ)
    (calls : List LinuxClient.Call)
    (ht₀ : t₀ = LinuxClient.run σ.top σ.inner σ.nest calls (clientInit c sz k))
    (hw : Wired σ ⟨s₀, t₀⟩) (hfresh : Fresh t₀) (acts : List Act)
    (hok : ∀ r, r <+: acts →
      Assumed σ (run σ r ⟨s₀, t₀⟩).state ∧ InSize σ (run σ r ⟨s₀, t₀⟩).state) :
    KeptAlive σ (run σ acts ⟨s₀, t₀⟩).state := by
  have hjoined : Joined σ s t₀ ⟨s₀, t₀⟩ := ⟨hw, ⟨before, hs₀⟩, [], rfl⟩
  have hdue := run_due hn hsz hs ht₀ hfresh hjoined acts hok
  have hseen : Seen σ s t₀ (run σ acts ⟨s₀, t₀⟩).state := run_seen acts hjoined
  generalize (run σ acts ⟨s₀, t₀⟩).state = p at hdue hseen
  have hmoves : Moves (clientInit c sz k) p.client :=
    (ht₀ ▸ LinuxClient.run_moves _ _ _ _ _ : Moves _ t₀).trans hseen.moves
  have hbeating := hmoves.beating (LinuxClient.clientInit_beating c sz k)
    (hseen.clear hw.connects hfresh) hdue
  have hbeats := hbeating.beats (hseen.wired.connects.symm ▸ Nat.one_ne_zero)
  exact ⟨hbeats.outstanding_le, hbeats.outstanding_iff, hbeating.prompt⟩

end

/-! ## Two runs -/

open Sample

/-- A ping is sent, and a pong is queued behind a part of a message of the user; then the timer
expires again. -/
def pingActs : List Act :=
  [.client (.process 6 LinuxClient.Sample.nothing),
    .server (.send 0 (fun _ => some [20]) (LinuxServer.Sample.writes [.accepted 2, .eagain])),
    .server (LinuxServer.Sample.receive 5
      [LinuxServer.Sample.read (.data [3, 0, 0]) [], LinuxServer.Sample.read (.data [0]) []]),
    .server (.process 5 ⟨false, true⟩
      { LinuxServer.Sample.nothing with writes := [.accepted 3, .accepted 4] }),
    .client (LinuxClient.Sample.receive 5 [LinuxClient.Sample.read (.data [2, 0, 0, 1]) [],
      LinuxClient.Sample.read (.data [20]) [], LinuxClient.Sample.read (.data [4, 0, 0, 0]) []] 7),
    .client (.process 6 LinuxClient.Sample.nothing)]

set_option maxRecDepth 8000 in
theorem kept_alive_pingActs : KeptAlive setting (run setting pingActs (connected 16 64)).state :=
  have hok : ∀ r ∈ pingActs.inits, Assumed setting (run setting r (connected 16 64)).state ∧
      InSize setting (run setting r (connected 16 64)).state := by decide
  kept_alive (n := 1) (w := LinuxServer.Sample.memory) (e := LinuxServer.Sample.start) (by decide)
    (by decide) rfl setting [LinuxServer.Sample.connect 5 6] rfl LinuxClient.Sample.memory 16 64
    [.start (LinuxClient.Sample.accepts 5 6)] rfl (by decide) ⟨by decide, by decide⟩ pingActs
    fun r hr => hok r ((List.mem_inits r pingActs).2 hr)

/-- An encoder that needs room for the given payload. -/
def fitting (payload : List UInt8) : Encoder := fun room =>
  if payload.length ≤ room then some payload else none

/-- A server that can send `2 ^ 24` bytes, and its client. -/
def longStart : Parties := connected 16 (2 ^ 24 + 4)

def pingCall : LinuxClient.Call := .process 6 LinuxClient.Sample.nothing

/-- The user of the server sends a message whose payload begins with the header of a pong, and eight
bytes of it are accepted. -/
def longCall (q : List UInt8) : LinuxServer.Call :=
  .send 0 (fitting ([4, 0, 0, 0] ++ q)) (LinuxServer.Sample.writes [.accepted 8, .eagain])

def readCall : LinuxClient.Call :=
  LinuxClient.Sample.receive 5 [LinuxClient.Sample.read (.data [2, 0, 0, 0]) [],
    LinuxClient.Sample.read (.data [4, 0, 0, 0]) []] 7

/-- The header of the message says that its payload is empty, and the client takes the first bytes
of it for a pong. -/
def longActs (q : List UInt8) : List Act :=
  [.client pingCall, .server (longCall q), .client readCall]

def pinged : Client := clientAct setting pingCall longStart.client

def fooled : Client := clientAct setting readCall pinged

def longServer (q : List UInt8) : Server :=
  LinuxServer.serverSend longStart.server 0 (fitting ([4, 0, 0, 0] ++ q))
    (LinuxServer.Sample.writes [.accepted 8, .eagain])

section

variable {σ : Setting} {p p' : Parties} {s : Server} {t : Client} {q : List UInt8}

theorem frameBytes_long (hq : q.length = 2 ^ 24 - 4) :
    frameBytes (messageTypeServerToClientUser, [4, 0, 0, 0] ++ q) =
      [2, 0, 0, 0, 4, 0, 0, 0] ++ q := by
  have hlen : ([4, 0, 0, 0] ++ q).length = 2 ^ 24 := by
    rw [List.length_append, hq]
    norm_num
  unfold frameBytes frameOf
  dsimp only
  rw [hlen]
  rfl

theorem drain_part (as : List UInt8) (has : as ≠ []) (hq : q ≠ []) :
    LinuxServer.drain [.accepted as.length, .eagain] (as ++ q) = ([as, []], .blocked q) := by
  have hpos := List.length_pos_of_ne_nil has
  have hpos' := List.length_pos_of_ne_nil hq
  have hmin : min as.length (as ++ q).length = as.length := by
    rw [List.length_append]
    omega
  have hne : as.length ≠ (as ++ q).length := by
    rw [List.length_append]
    omega
  unfold LinuxServer.drain
  dsimp only
  rw [hmin, if_neg hne, if_pos hpos, if_pos (hpos.trans_le (by simp)), List.drop_left,
    List.take_left]
  unfold LinuxServer.drain
  rw [if_pos hpos']

theorem encodeUserMessage_fitting {payload : List UInt8}
    (h : payload.length ≤ sizeSub s.encodedSize headerSize)
    (hlt : payload.length + headerSize < 2 ^ 31) :
    LinuxServer.encodeUserMessage s (fitting payload) =
      some (messageTypeServerToClientUser, payload) :=
  encodeInto_eq (if_pos h) hlt

theorem serverSend_of_some {enc : Encoder} {m : Message} {c : LinuxServer.Slot}
    {e : LinuxServer.WriteEnv} (h : LinuxServer.encodeUserMessage s enc = some m) :
    LinuxServer.serverSend s c enc e =
      LinuxServer.clientWrite (s.emit (.frame c m)) c (frameBytes m) e := by
  unfold LinuxServer.serverSend
  rw [h]
  rfl

/-- A part of a buffer is written, and the rest is queued. -/
theorem clientWrite_part (as : List UInt8) (has : as ≠ []) (hq : q ≠ [])
    (hfd : s.clientFd 0 ≠ -1) (hqueue : (s.output 0).headP = none) :
    (LinuxServer.clientWrite s 0 (as ++ q)
      (LinuxServer.Sample.writes [.accepted as.length, .eagain])).log =
        .epollCtl .mod (s.clientFd 0) ⟨true, true⟩ true :: .malloc 0 (some (s.output 0).brk) ::
          .write 0 (s.clientFd 0) [] :: .write 0 (s.clientFd 0) as :: s.log := by
  unfold LinuxServer.clientWrite
  rw [if_neg (not_not_intro hqueue), LinuxServer.writeLoop_eq hfd (by rw [List.drop_zero]),
    List.drop_zero]
  dsimp only [LinuxServer.Sample.writes]
  rw [drain_part as has hq]
  dsimp only
  have hqueue' : ((s.wrote 0 [as, []]).output 0).headP = none := hqueue
  unfold LinuxServer.clientOutputAppend
  dsimp only [LinuxServer.Output.setItem_headP]
  rw [hqueue']
  rfl

/-- Eight bytes of the message are written, and the rest is queued. -/
theorem send_long (hq : q.length = 2 ^ 24 - 4)
    (hroom : sizeSub s.encodedSize headerSize = 2 ^ 24) (hfd : s.clientFd 0 ≠ -1)
    (hqueue : (s.output 0).headP = none) :
    (LinuxServer.serverSend s 0 (fitting ([4, 0, 0, 0] ++ q))
      (LinuxServer.Sample.writes [.accepted 8, .eagain])).log =
        .epollCtl .mod (s.clientFd 0) ⟨true, true⟩ true :: .malloc 0 (some (s.output 0).brk) ::
          .write 0 (s.clientFd 0) [] :: .write 0 (s.clientFd 0) [2, 0, 0, 0, 4, 0, 0, 0] ::
          .frame 0 (messageTypeServerToClientUser, [4, 0, 0, 0] ++ q) :: s.log := by
  have hlen : ([4, 0, 0, 0] ++ q).length ≤ 2 ^ 24 := by
    rw [List.length_append, hq]
    norm_num
  have hne : q ≠ [] := by
    rintro rfl
    norm_num at hq
  have hlt : ([4, 0, 0, 0] ++ q).length + headerSize < 2 ^ 31 := by
    unfold headerSize
    omega
  rw [serverSend_of_some (encodeUserMessage_fitting (hroom.symm ▸ hlen) hlt), frameBytes_long hq]
  exact clientWrite_part
    (s := s.emit (.frame 0 (messageTypeServerToClientUser, [4, 0, 0, 0] ++ q)))
    [2, 0, 0, 0, 4, 0, 0, 0] (by decide) hne hfd hqueue

set_option maxRecDepth 8000 in
theorem longServer_log (hq : q.length = 2 ^ 24 - 4) : (longServer q).log =
    .epollCtl .mod 5 ⟨true, true⟩ true :: .malloc 0 (some 0) :: .write 0 5 [] ::
      .write 0 5 [2, 0, 0, 0, 4, 0, 0, 0] ::
      .frame 0 (messageTypeServerToClientUser, [4, 0, 0, 0] ++ q) :: longStart.server.log :=
  send_long hq (by decide) (by decide) (by decide)

set_option maxRecDepth 8000 in
theorem longServer_says (hq : q.length = 2 ^ 24 - 4) :
    LinuxServer.accepted 0 (longServer q).log = [2, 0, 0, 0, 4, 0, 0, 0] ∧
      LinuxServer.received 0 (longServer q).log = [] ∧ pongsIssued setting (longServer q) = 0 ∧
      mallocOk 0 (longServer q).log := by
  unfold pongsIssued
  rw [longServer_log hq]
  exact ⟨rfl, rfl, rfl, Or.inl rfl⟩

theorem step_client {call : LinuxClient.Call}
    (hw : Wired σ ⟨p.server, clientAct σ call p.client⟩) :
    step σ (.client call) p = .done () ⟨p.server, clientAct σ call p.client⟩ := if_pos hw

theorem step_server {call : LinuxServer.Call} (h : serverAct σ call p.server = .done () s)
    (hw : Wired σ ⟨s, p.client⟩) : step σ (.server call) p = .done () ⟨s, p.client⟩ := by
  unfold step
  dsimp only
  rw [h]
  exact if_pos hw

set_option maxRecDepth 8000 in
theorem step_long (hq : q.length = 2 ^ 24 - 4) :
    step setting (.client pingCall) longStart = .done () ⟨longStart.server, pinged⟩ ∧
      step setting (.server (longCall q)) ⟨longStart.server, pinged⟩ =
        .done () ⟨longServer q, pinged⟩ ∧
      step setting (.client readCall) ⟨longServer q, pinged⟩ =
        .done () ⟨longServer q, fooled⟩ := by
  obtain ⟨haccepted, hreceived, -, -⟩ := longServer_says hq
  have hlive : LinuxServer.live longStart.server 0 = true := by decide
  have hserver : serverAct setting (longCall q) longStart.server = .done () (longServer q) :=
    congrArg (Exec.done ()) (if_pos hlive)
  generalize longServer q = u at haccepted hreceived hserver ⊢
  have hping : Wired setting ⟨longStart.server, pinged⟩ := by decide
  have htoServer : ∀ bs, LinuxServer.received setting.slot u.log <+: bs := by
    intro bs
    rw [show LinuxServer.received setting.slot u.log = [] from hreceived]
    exact List.nil_prefix
  have hsend : Wired setting ⟨u, pinged⟩ := by
    refine ⟨hping.connects, ?_, htoServer _⟩
    rw [show LinuxClient.received pinged.log = [] by decide]
    exact List.nil_prefix
  have hread : Wired setting ⟨u, fooled⟩ := by
    have hconnects : connects fooled.log = 1 := by decide
    refine ⟨hconnects, ?_, htoServer _⟩
    rw [show LinuxServer.accepted setting.slot u.log = _ from haccepted]
    show LinuxClient.received fooled.log <+: [2, 0, 0, 0, 4, 0, 0, 0]
    decide
  exact ⟨step_client hping, step_server (p := ⟨longStart.server, pinged⟩) hserver hsend,
    step_client (p := ⟨u, pinged⟩) hread⟩

theorem run_cons {a : Act} {acts : List Act} (h : step σ a p = .done () p') :
    run σ (a :: acts) p = run σ acts p' := by
  show (step σ a p).bind _ = _
  rw [h]
  rfl

theorem run_nil (σ : Setting) (p : Parties) : (run σ [] p).state = p := rfl

theorem run_long (hq : q.length = 2 ^ 24 - 4) :
    (run setting (longActs q) longStart).state = ⟨longServer q, fooled⟩ ∧
      ∀ r, r <+: longActs q → Assumed setting (run setting r longStart).state := by
  obtain ⟨hping, hlong, hread⟩ := step_long hq
  obtain ⟨-, -, -, hmalloc⟩ := longServer_says hq
  generalize longServer q = u at hlong hread hmalloc ⊢
  have hassumed : ∀ s t, mallocOk 0 s.log → Assumed setting ⟨s, t⟩ := fun s t h =>
    ⟨h, fun hcall => absurd hcall Bool.false_ne_true⟩
  have hstart : mallocOk 0 longStart.server.log := Or.inl rfl
  unfold longActs
  refine ⟨by rw [run_cons hping, run_cons hlong, run_cons hread, run_nil], fun r hr => ?_⟩
  rcases List.prefix_cons_iff.1 hr with rfl | ⟨r₁, rfl, hr₁⟩
  · exact hassumed longStart.server longStart.client hstart
  rw [run_cons hping]
  rcases List.prefix_cons_iff.1 hr₁ with rfl | ⟨r₂, rfl, hr₂⟩
  · exact hassumed _ _ hstart
  rw [run_cons hlong]
  rcases List.prefix_cons_iff.1 hr₂ with rfl | ⟨r₃, rfl, hr₃⟩
  · exact hassumed _ _ hmalloc
  rw [run_cons hread, List.prefix_nil.1 hr₃]
  exact hassumed _ _ hmalloc

theorem not_keptAlive (hnone : pongsIssued σ s = 0)
    (hcount : LinuxClient.outstanding 0 t.log = 1) (hpong : t.pongReceived = true) :
    ¬ KeptAlive σ ⟨s, t⟩ := by
  intro h
  have hflag : LinuxClient.outstanding (pongsIssued σ s) t.log = 0 ↔ t.pongReceived = true := h.flag
  rw [hnone] at hflag
  exact absurd (hcount.symm.trans (hflag.2 hpong)) Nat.one_ne_zero

set_option maxRecDepth 8000 in
/-- The client has handled a pong that the server has not issued: a ping is outstanding, and
`pong_received` is true. -/
theorem not_keptAlive_longActs : Wired setting longStart ∧ Fresh longStart.client ∧
    (∀ r, r <+: longActs (List.replicate (2 ^ 24 - 4) 0) →
      Assumed setting (run setting r longStart).state) ∧
    ¬ KeptAlive setting
      (run setting (longActs (List.replicate (2 ^ 24 - 4) 0)) longStart).state := by
  have hq : (List.replicate (2 ^ 24 - 4) (0 : UInt8)).length = 2 ^ 24 - 4 := List.length_replicate
  generalize List.replicate (2 ^ 24 - 4) (0 : UInt8) = q at hq ⊢
  obtain ⟨hrun, hassumed⟩ := run_long hq
  have hwired : Wired setting longStart := by decide
  have hfresh : Fresh longStart.client := ⟨by decide, by decide⟩
  obtain ⟨-, -, hnone, -⟩ := longServer_says hq
  have hcount : LinuxClient.outstanding 0 fooled.log = 1 := by decide
  have hpong : fooled.pongReceived = true := by decide
  exact ⟨hwired, hfresh, hassumed, hrun ▸ not_keptAlive hnone hcount hpong⟩

end

end Messi.Connection
