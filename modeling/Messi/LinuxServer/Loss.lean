import Messi.LinuxServer.Streams

/-!
# Loss by error

`NAME_server_send()`, `NAME_server_reply()` and `NAME_server_broadcast()` tell their caller nothing.
A message that a connected client does not get should cost it the connection. That is so when
`write()` fails, but not when the message cannot be encoded, nor when an output item is needed and
cannot be allocated (`loss_iff`).
-/

namespace Messi.LinuxServer

open PointerList Sample

/-- The connected clients, in the order of the list. -/
def connectedSlots (s : Server) : List Slot :=
  walk s.clients.nextP s.clientsMax s.clients.connectedListP

def pendingSlots (s : Server) : List Slot :=
  walk s.clients.nextP s.clientsMax s.clients.pendingDisconnectListP

/-- What the socket of a client has accepted, and then what is queued for it. -/
def stream (s : Server) (c : Slot) : List UInt8 := accepted c s.log ++ queued (s.output c)

/-- From `s` to `s'` the client has got the whole message, or has been disconnected. -/
def NotLost (s s' : Server) (c : Slot) (enc : Encoder) : Prop :=
  if c ∈ connectedSlots s' then
    (encodeUserMessage s enc).any (fun m => stream s' c = stream s c ++ frameBytes m) = true
  else c ∈ pendingSlots s'

instance (s s' : Server) (c : Slot) (enc : Encoder) : Decidable (NotLost s s' c enc) := by
  unfold NotLost
  infer_instance

/-- An output item is needed for a message: others are queued, or the socket would block. -/
def needsItem (o : Output) (m : Message) (e : WriteEnv) : Bool :=
  o.headP.isSome || match (drain e.writes (frameBytes m)).2 with
    | .blocked _ => true
    | _ => false

/-- The message can be encoded, and the item that it needs can be allocated. -/
def Conveyable (s : Server) (c : Slot) (enc : Encoder) (e : WriteEnv) : Prop :=
  (encodeUserMessage s enc).any fun m => !needsItem (s.output c) m e || e.malloc

section

variable {sz n : ℕ} {s s' t : Server} {v v' : View} {c d : Slot} {m : Message}
  {e : WriteEnv} {enc : Encoder}

/-! ## One client -/

/-- The states agree on the stream to a client, and on its descriptor. -/
structure SameStream (d : Slot) (s s' : Server) : Prop where
  output : s'.output d = s.output d
  accepted : accepted d s'.log = accepted d s.log
  clientFd : s'.clientFd d = s.clientFd d

theorem SameStream.refl (d : Slot) (s : Server) : SameStream d s s := ⟨rfl, rfl, rfl⟩

theorem SameStream.trans (h : SameStream d s s') (h' : SameStream d s' t) : SameStream d s t :=
  ⟨h'.output.trans h.output, h'.accepted.trans h.accepted, h'.clientFd.trans h.clientFd⟩

theorem SameStream.stream (h : SameStream d s s') : stream s' d = stream s d := by
  unfold LinuxServer.stream
  rw [h.output, h.accepted]

theorem SameOutput.sameStream (h : SameOutput d s s') (hs : SameSlots s s') : SameStream d s s' :=
  ⟨h.output, h.accepted, by rw [hs.clientFd]⟩

theorem clientPendingDisconnect_sameStream (hfd : s.clientFd c ≠ -1)
    (he : QueueEnds (s.output c)) (hd : d ≠ c) :
    SameStream d s (clientPendingDisconnect s c) := by
  obtain ⟨evs, hevs, heq⟩ := clientPendingDisconnect_eq hfd he
  have hlog : SameLog (closeFd s (s.clientFd c)).log (evs ++ (closeFd s (s.clientFd c)).log) :=
    (SameLog.refl _).append_items hevs
  rw [heq]
  exact ⟨Function.update_of_ne hd _ _, hlog.accepted d, Function.update_of_ne hd _ _⟩

theorem clientPendingDisconnect_clientFd (he : QueueEnds (s.output c)) :
    (clientPendingDisconnect s c).clientFd c = -1 := by
  by_cases hfd : s.clientFd c = -1
  · rw [clientPendingDisconnect_of_pending hfd]
    exact hfd
  · obtain ⟨evs, -, heq⟩ := clientPendingDisconnect_eq hfd he
    rw [heq]
    exact Function.update_self _ _ _

/-- What `client_output_append()` does to the streams. -/
theorem clientOutputAppend_stream (buf : List UInt8) {q : List ℕ} (hq : Queue (s.output c) q)
    (hfd : s.clientFd c = -1 ∨ s.clientFd c ∈ openFds s.log) (hok : LogOk sz s.log) :
    (∀ d, d ≠ c → SameStream d s (clientOutputAppend s c buf e)) ∧
      (clientOutputAppend s c buf e).clientFd c = s.clientFd c ∧
      stream (clientOutputAppend s c buf e) c =
        stream s c ++ if e.malloc = true then buf else [] := by
  cases hm : e.malloc with
  | false =>
    have he : clientOutputAppend s c buf e = s.emit (.malloc c none) := by
      unfold clientOutputAppend
      simp [hm]
    rw [he]
    exact ⟨fun d _ => ⟨rfl, rfl, rfl⟩, rfl, (List.append_nil _).symm⟩
  | true =>
    obtain ⟨hs, -, hout, ho, hl, -⟩ := clientOutputAppend_spec (c := c) buf hm hfd hok
    refine ⟨fun d hd => (hout d hd).sameStream hs, by rw [hs.clientFd], ?_⟩
    unfold stream
    rw [hl.accepted, ho, (hq.append buf).1.queued_eq, (hq.append buf).2, hq.queued_eq,
      List.append_assoc]
    rfl

/-- What has become of a client to which a message was to be written: it is disconnected, or it has
got the message just if no allocation failed. -/
structure Outcome (s s' : Server) (c : Slot) (m : Message) (e : WriteEnv) : Prop where
  down : s'.clientFd c = -1 → needsItem (s.output c) m e = false
  up : s'.clientFd c ≠ -1 → (stream s' c = stream s c ++ frameBytes m ↔
    (!needsItem (s.output c) m e || e.malloc) = true)

theorem needsItem_of_some {i : ℕ} {o : Output} (h : o.headP = some i) :
    needsItem o m e = true := by
  simp [needsItem, h]

theorem Outcome.of_append (hup : s'.clientFd c ≠ -1) (hneeds : needsItem (s.output c) m e = true)
    {written rest : List UInt8} (hm : written ++ rest = frameBytes m) (hrest : rest ≠ [])
    (hs : stream s' c = stream s c ++ written ++ if e.malloc = true then rest else []) :
    Outcome s s' c m e := by
  refine ⟨fun hfd => absurd hfd hup, fun _ => ?_⟩
  rw [hneeds, hs, ← hm]
  cases e.malloc with
  | true => simp
  | false => simpa using hrest

/-- The direct writer, on an empty queue. -/
theorem writeLoop_outcome (hq : Queue (s.output c) []) (hfd : s.clientFd c ≠ -1)
    (hopen : s.clientFd c ∈ openFds s.log) (hok : LogOk sz s.log) :
    (∀ d, d ≠ c →
        SameStream d s (writeLoop c (frameBytes m) e e.writes 0 (frameBytes m).length s)) ∧
      Outcome s (writeLoop c (frameBytes m) e e.writes 0 (frameBytes m).length s) c m e := by
  have hspec := drain_spec e.writes (frameBytes m)
  obtain ⟨hs, -, hout, ho, hf, ha, -, -⟩ := wrote_spec s c (drain e.writes (frameBytes m)).1
  have hwrote := hok.wrote (Or.inr hopen) (drain e.writes (frameBytes m)).1
  have hneeds : needsItem (s.output c) m e = match (drain e.writes (frameBytes m)).2 with
      | .blocked _ => true
      | _ => false := by
    simp [needsItem, show (s.output c).headP = none from hq.links]
  rw [writeLoop_eq hfd (by simp), List.drop_zero]
  generalize s.wrote c (drain e.writes (frameBytes m)).1 = t at *
  have hsame : ∀ d, d ≠ c → SameStream d s t := fun d hd => (hout d hd).sameStream hs
  have htfd : t.clientFd c = s.clientFd c := by rw [hs.clientFd]
  have htq : Queue (t.output c) [] := ho ▸ hq
  have hstream : stream t c = stream s c ++ (drain e.writes (frameBytes m)).1.flatten := by
    unfold stream
    rw [ha, htq.queued_eq, hq.queued_eq]
    simp [itemsBytes]
  cases hend : (drain e.writes (frameBytes m)).2 with
  | done =>
    rw [hend] at hspec hneeds
    refine ⟨hsame, fun hdown => absurd (htfd.symm.trans hdown) hfd, fun _ => ?_⟩
    rw [hstream, hneeds]
    simpa using hspec
  | blocked rest =>
    rw [hend] at hspec hneeds
    obtain ⟨hother, hfd', hs'⟩ := clientOutputAppend_stream rest (e := e) htq
      (Or.inr (by rwa [htfd, hf])) hwrote
    refine ⟨fun d hd => (hsame d hd).trans (hother d hd), ?_⟩
    exact Outcome.of_append (by rwa [hfd', htfd]) hneeds hspec.1 hspec.2 (by rw [hs', hstream])
  | failed =>
    rw [hend] at hneeds
    have hends : QueueEnds (t.output c) := htq.ends
    refine ⟨fun d hd => (hsame d hd).trans ?_, fun _ => hneeds, fun hup => ?_⟩
    · exact clientPendingDisconnect_sameStream (htfd.symm ▸ hfd) hends hd
    · exact absurd (clientPendingDisconnect_clientFd hends) hup

theorem issueMessage_outcome (h : Good sz s v) (hb : v.busy = none) (hc : c ∈ v.connected) :
    (∀ d, d ≠ c → SameStream d s (issueMessage s c m e)) ∧
      Outcome s (issueMessage s c m e) c m e := by
  obtain ⟨q, hq, -⟩ := h.output c hc (by simp [hb])
  have hfd := h.slots.connectedFd c hc
  have hopen := h.clientFd_open (Or.inl hc)
  have hframe : ∀ d, SameStream d s (s.emit (.frame c m)) := fun d => ⟨rfl, rfl, rfl⟩
  have hok : LogOk sz (s.emit (.frame c m)).log := ⟨trivial, h.log⟩
  unfold issueMessage clientWrite
  cases hhead : (s.output c).headP with
  | none =>
    obtain rfl := hq.eq_nil hhead
    obtain ⟨hother, hout⟩ := writeLoop_outcome (s := s.emit (.frame c m)) (m := m) (e := e) hq hfd
      (hopen.resolve_left hfd) hok
    rw [if_neg (by simpa using hhead)]
    exact ⟨fun d hd => (hframe d).trans (hother d hd), hout.down, hout.up⟩
  | some i =>
    obtain ⟨hother, hfd', hs⟩ := clientOutputAppend_stream (s := s.emit (.frame c m))
      (frameBytes m) (e := e) hq hopen hok
    rw [if_pos (by simp [hhead])]
    refine ⟨fun d hd => (hframe d).trans (hother d hd), ?_⟩
    exact Outcome.of_append (by rwa [hfd']) (needsItem_of_some hhead) (List.nil_append _)
      (frameBytes_ne_nil m) (by rw [hs, List.append_nil]; rfl)

/-! ## The calls -/

theorem Good.connectedSlots_eq (h : Good sz s v) : connectedSlots s = v.connected := by
  refine h.slots.lists.connected.walk_eq ?_
  have hall := h.slots.all.length_eq
  simp only [List.length_append, List.length_range] at hall
  omega

theorem Good.pendingSlots_eq (h : Good sz s v) : pendingSlots s = v.pending := by
  refine h.slots.lists.pending.walk_eq ?_
  have hall := h.slots.all.length_eq
  simp only [List.length_append, List.length_range] at hall
  omega

/-- A client that is connected or pending is known by its descriptor. -/
theorem Good.mem_connectedSlots (h : Good sz s v) (hc : c ∈ v.connected ∨ c ∈ v.pending) :
    c ∈ connectedSlots s ↔ s.clientFd c ≠ -1 := by
  rw [h.connectedSlots_eq]
  constructor
  · exact h.slots.connectedFd c
  · intro hfd
    exact hc.resolve_right fun hp => hfd (h.slots.pendingFd c hp)

theorem Good.notLost_iff (h : Good sz s' v) (hc : c ∈ v.connected ∨ c ∈ v.pending) :
    NotLost s s' c enc ↔ (s'.clientFd c ≠ -1 →
      (encodeUserMessage s enc).any
        (fun m => stream s' c = stream s c ++ frameBytes m) = true) := by
  unfold NotLost
  by_cases hmem : c ∈ connectedSlots s'
  · rw [if_pos hmem]
    have hfd := (h.mem_connectedSlots hc).1 hmem
    exact ⟨fun hs _ => hs, fun hs => hs hfd⟩
  · rw [if_neg hmem]
    have hfd : s'.clientFd c = -1 := by
      by_contra hn
      exact hmem ((h.mem_connectedSlots hc).2 hn)
    rw [h.pendingSlots_eq]
    refine ⟨fun _ hn => absurd hfd hn, fun _ => hc.resolve_left fun hcon => ?_⟩
    exact h.slots.connectedFd c hcon hfd

/-- Between two states with the same slots, a client stays connected or becomes pending. -/
theorem Shrunk.mem (hs : Shrunk v v') (h : Good sz s v) (h' : Good sz s' v')
    (hmax : s'.clientsMax = s.clientsMax) (hc : c ∈ v.connected ∨ c ∈ v.pending) :
    c ∈ v'.connected ∨ c ∈ v'.pending := by
  have hrange := List.mem_range.2 (h.mem_range hc)
  rw [← hmax] at hrange
  have hfree : c ∉ v'.free := by
    rw [hs.free]
    intro hf
    rcases hc with hc | hc
    · exact (List.nodup_append.1 h.slots.lists.nodup).2.2 c hc c (by simp [hf]) rfl
    · exact h.slots.lists.disjoint_connected.2.2 c hc hf
  have hall := h'.slots.all.mem_iff.2 hrange
  simp only [List.mem_append] at hall
  tauto

/-- What an outcome means for a message to a connected client. -/
theorem Outcome.notLost_iff (hout : Outcome s s' c m e) (henc : encodeUserMessage s enc = some m)
    (h : Good sz s' v) (hc : c ∈ v.connected ∨ c ∈ v.pending) :
    NotLost s s' c enc ↔ Conveyable s c enc e := by
  rw [h.notLost_iff hc, Conveyable, henc, Option.any_some, Option.any_some]
  by_cases hfd : s'.clientFd c = -1
  · rw [hout.down hfd]
    simp [hfd]
  · have hup := hout.up hfd
    simpa [hfd] using hup

theorem serverSend_notLost (h : Good sz s v) (hb : v.busy = none)
    (hc : c ∈ v.connected ∨ c ∈ v.pending) :
    NotLost s (serverSend s c enc e) c enc ↔ (c ∈ connectedSlots s → Conveyable s c enc e) := by
  have hgood : GoodAfter sz v (serverSend s c enc e) := serverSend_good h hb hc
  obtain ⟨v', hs, hg⟩ := hgood
  have hmem := hs.mem h hg (serverSend_grows s c enc e).2.1 hc
  rw [h.mem_connectedSlots hc]
  unfold serverSend at hg ⊢
  cases henc : encodeUserMessage s enc with
  | none =>
    rw [henc] at hg
    rw [hg.notLost_iff hmem]
    simp [Conveyable, henc]
  | some m =>
    rw [henc] at hg
    dsimp only at hg ⊢
    rcases hc with hc | hc
    · have hfd := h.slots.connectedFd c hc
      rw [(issueMessage_outcome h hb hc).2.notLost_iff henc hg hmem]
      exact ⟨fun hs _ => hs, fun hs => hs hfd⟩
    · have hfd := h.slots.pendingFd c hc
      obtain ⟨new, hnew⟩ := hs.pending
      have hdown : (issueMessage s c m e).clientFd c = -1 :=
        hg.slots.pendingFd c (by simp [hnew, hc])
      rw [hg.notLost_iff hmem]
      exact ⟨fun _ hn => absurd hfd hn, fun _ hn => absurd hdown hn⟩

/-- The loop of `NAME_server_broadcast()` writes to the clients that are left one by one, and to no
other. -/
theorem broadcastLoop_outcome {f : Slot → WriteEnv} {p : Option Slot} {done rest : List Slot}
    (h : Good sz s v) (hb : v.busy = none) (hv : v.connected = done ++ rest) (hp : p = rest.head?)
    (hn : rest.length < n) :
    (∀ d, d ∉ rest → SameStream d s (broadcastLoop m f n p s)) ∧
      ∀ c ∈ rest, Outcome s (broadcastLoop m f n p s) c m (f c) := by
  induction n generalizing s v p done rest with
  | zero => exact absurd hn (Nat.not_lt_zero _)
  | succ n ih =>
    cases rest with
    | nil =>
      subst hp
      exact ⟨fun d _ => SameStream.refl d s, nofun⟩
    | cons c rest =>
      subst hp
      have hlinks := h.slots.lists.connected
      have hcon : c ∈ v.connected := by simp [hv]
      have hnext : s.clients.nextP c = rest.head? :=
        Links.next_eq (show Links _ _ (done ++ c :: rest) from hv ▸ hlinks)
      have hnot : c ∉ rest := by
        have hd := hlinks.nodup
        rw [hv] at hd
        exact (List.nodup_cons.1 (List.nodup_append.1 hd).2.1).1
      obtain ⟨hother, hout⟩ := issueMessage_outcome (m := m) (e := f c) h hb hcon
      obtain ⟨v', hm, hg⟩ := issueMessage_good (c := c) (m := m) (e := f c) h hb (Or.inl hcon)
      obtain ⟨done', hdone'⟩ := hm.rest hv hlinks.nodup
      obtain ⟨hsame, houts⟩ := ih (p := s.clients.nextP c) hg ((hm.shrunk hb).busy.trans hb) hdone'
        hnext (by simp at hn; omega)
      refine ⟨fun d hd => ?_, fun d hd => ?_⟩
      · simp only [List.mem_cons, not_or] at hd
        exact (hother d hd.1).trans (hsame d hd.2)
      · rcases List.mem_cons.1 hd with rfl | hd
        · -- this client is not written to again
          have hlast := hsame d hnot
          refine ⟨fun hfd => hout.down (hlast.clientFd.symm.trans hfd), fun hfd => ?_⟩
          rw [← hout.up fun hn => hfd (hlast.clientFd.trans hn), ← hlast.stream]
          rfl
        · have hfirst := hother d (ne_of_mem_of_not_mem hd hnot)
          have houtd := houts d hd
          refine ⟨fun hfd => ?_, fun hfd => ?_⟩
          · rw [← hfirst.output]
            exact houtd.down hfd
          · rw [← hfirst.output, ← hfirst.stream]
            exact houtd.up hfd

theorem serverBroadcast_notLost {f : Slot → WriteEnv} (h : Good sz s v) (hb : v.busy = none)
    (hc : c ∈ v.connected) :
    NotLost s (serverBroadcast s enc f) c enc ↔ Conveyable s c enc (f c) := by
  have hgood : GoodAfter sz v (serverBroadcast s enc f) := serverBroadcast_good h hb
  obtain ⟨v', hs, hg⟩ := hgood
  have hmax : (serverBroadcast s enc f).clientsMax = s.clientsMax := by
    have hgrow : Grows s (serverBroadcast s enc f) := apiCall_grows (.broadcast enc f) s
    exact hgrow.2.1
  have hmem := hs.mem h hg hmax (Or.inl hc)
  unfold serverBroadcast at hg ⊢
  cases henc : encodeUserMessage s enc with
  | none =>
    rw [henc] at hg
    rw [hg.notLost_iff hmem]
    simp [Conveyable, henc, h.slots.connectedFd c hc]
  | some m =>
    rw [henc] at hg
    have hlen : v.connected.length < s.clientsMax + 1 := by
      have hall := h.slots.all.length_eq
      simp only [List.length_append, List.length_range] at hall
      omega
    have houts := (broadcastLoop_outcome (m := m) (f := f) (n := s.clientsMax + 1) h hb
      (List.nil_append _).symm h.slots.lists.connected.head hlen).2
    exact (houts c hc).notLost_iff henc hg hmem

/-- A connected client misses a message without being disconnected just if the message could not be
encoded or the output item that it needed could not be allocated. -/
theorem loss_iff {w t : Server} {messageSize : ℕ} {r : StartEnv} {b : Bool} (hn : 0 < n)
    (hs : started w n sz messageSize r = (0, t)) (depth : ℕ) (calls : List Call)
    (hu : b = true → ¬ BadUnlink (run ⟨false, b⟩ depth calls t).state.log) (enc : Encoder) :
    let s := (run ⟨false, b⟩ depth calls t).state
    (∀ c e, live s c = true →
        (NotLost s (serverSend s c enc e) c enc ↔ (c ∈ connectedSlots s → Conveyable s c enc e))) ∧
      (∀ c e, s.currentClientP = some c →
        (NotLost s (serverReply s enc e) c enc ↔ (c ∈ connectedSlots s → Conveyable s c enc e))) ∧
      (∀ c e, c ∈ connectedSlots s →
        (NotLost s (serverBroadcast s enc e) c enc ↔ Conveyable s c enc (e c))) := by
  obtain ⟨v, hb, hg, -⟩ := run_good (d := ⟨false, b⟩) hn hs rfl depth calls hu
  intro s
  refine ⟨fun c e hl => ?_, fun c e hcur => ?_, fun c e hc => ?_⟩
  · exact serverSend_notLost hg hb (mem_of_live hg hl)
  · unfold serverReply
    rw [hcur]
    exact serverSend_notLost hg hb
      (hg.slots.message c (hg.slots.currentPlace c (hg.slots.current ▸ hcur)))
  · rw [hg.connectedSlots_eq] at hc
    exact serverBroadcast_notLost hg hb hc

/-- One client is connected. -/
def oneClient : Server := (run ⟨false, false⟩ 0 [connect 5 6] (server 1 16)).state

/-- Of a message of seven bytes the socket takes two and then blocks, and `malloc()` fails. -/
theorem not_notLost_oneClient :
    ¬ NotLost oneClient (serverSend oneClient 0 (fun _ => some [20, 21, 22])
      ⟨[.accepted 2, .eagain], false, true⟩) 0 (fun _ => some [20, 21, 22]) := by
  decide

theorem loss_iff_oneClient :
    NotLost oneClient (serverSend oneClient 0 (fun _ => some [20, 21, 22])
        ⟨[.accepted 2, .eagain], true, true⟩) 0 (fun _ => some [20, 21, 22]) ↔
      (0 ∈ connectedSlots oneClient →
        Conveyable oneClient 0 (fun _ => some [20, 21, 22]) ⟨[.accepted 2, .eagain], true, true⟩) :=
  (loss_iff (n := 1) (w := memory) (r := start) (b := false) (by decide) rfl 0 [connect 5 6] nofun
    (fun _ => some [20, 21, 22])).1 0 _ (by decide)

end

end Messi.LinuxServer
