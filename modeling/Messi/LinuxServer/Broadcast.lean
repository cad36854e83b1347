import Messi.LinuxServer.Loss

/-!
# Broadcasts

`NAME_server_broadcast()` goes through the connected list while the loop moves the clients whose
`write()` fails to another one. Every other client gets the message, once (`broadcast_once`).
-/

namespace Messi.LinuxServer

open PointerList Sample

/-- The message is written to the client's socket, not queued, and a `write()` fails. -/
def failsOn (s : Server) (m : Message) (f : Slot → WriteEnv) (c : Slot) : Bool :=
  (s.output c).headP.isNone && match (drain (f c).writes (frameBytes m)).2 with
    | .failed => true
    | _ => false

/-- What is read from the clients, and their timers, are as they were. -/
structure SameReading (s t : Server) : Prop where
  input : t.input = s.input
  inputBufs : t.inputBufs = s.inputBufs
  keepAliveTimerFd : t.keepAliveTimerFd = s.keepAliveTimerFd

/-- The message has been broadcast between the two states. -/
structure BroadcastOnce (s t : Server) (m : Message) (f : Slot → WriteEnv) : Prop where
  streams : ∀ c ∈ connectedSlots s, failsOn s m f c = false →
    stream t c = stream s c ++ frameBytes m
  connected : connectedSlots t = (connectedSlots s).filter fun c => !failsOn s m f c
  pending : pendingSlots t = ((connectedSlots s).filter (failsOn s m f)).reverse ++ pendingSlots s
  others : ∀ c, c ∉ connectedSlots s → t.output c = s.output c ∧ t.clientFd c = s.clientFd c
  sockets : ∀ c ∈ connectedSlots t, t.clientFd c = s.clientFd c
  reading : SameReading s t

section

variable {sz n : ℕ} {s t u : Server} {v v' : View} {c d : Slot} {m : Message} {f : Slot → WriteEnv}
  {enc : Encoder}

/-! ## One client -/

theorem SameReading.refl (s : Server) : SameReading s s := ⟨rfl, rfl, rfl⟩

theorem SameReading.trans (h : SameReading s t) (h' : SameReading t u) : SameReading s u :=
  ⟨h'.input.trans h.input, h'.inputBufs.trans h.inputBufs,
    h'.keepAliveTimerFd.trans h.keepAliveTimerFd⟩

theorem freeItems_reading (c : Slot) (n : ℕ) (p : Option ℕ) (s : Server) :
    SameReading s (freeItems c n p s) := by
  induction n generalizing p s with
  | zero => exact ⟨rfl, rfl, rfl⟩
  | succ n ih =>
    cases p with
    | none => exact SameReading.refl s
    | some i =>
      apply SameReading.trans _ (ih _ _)
      exact ⟨rfl, rfl, rfl⟩

theorem clientPendingDisconnect_reading (s : Server) (c : Slot) :
    SameReading s (clientPendingDisconnect s c) := by
  unfold clientPendingDisconnect
  split_ifs
  · exact SameReading.refl s
  · obtain ⟨hi, hb, hk⟩ := freeItems_reading c _ _ _
    exact ⟨hi, hb, hk⟩

theorem clientOutputAppend_reading (s : Server) (c : Slot) (buf : List UInt8) (e : WriteEnv) :
    SameReading s (clientOutputAppend s c buf e) := by
  unfold clientOutputAppend
  dsimp only
  split_ifs
  · exact ⟨rfl, rfl, rfl⟩
  · split
    · exact ⟨rfl, rfl, rfl⟩
    · split <;> exact ⟨rfl, rfl, rfl⟩

theorem writeLoop_reading (c : Slot) (buf : List UInt8) (e : WriteEnv) (ws : List WriteRes)
    (offset size : ℕ) (s : Server) : SameReading s (writeLoop c buf e ws offset size s) := by
  have hwrite : ∀ fd bs, SameReading s (s.emit (.write c fd bs)) := fun _ _ => ⟨rfl, rfl, rfl⟩
  induction ws generalizing offset size s with
  | nil =>
    unfold writeLoop
    split_ifs
    · split
      · exact (hwrite _ _).trans (clientOutputAppend_reading _ _ _ _)
      · exact (hwrite _ _).trans (clientPendingDisconnect_reading _ _)
    · exact SameReading.refl s
  | cons w ws ih =>
    unfold writeLoop
    split_ifs
    · split
      · dsimp only
        split_ifs
        · exact hwrite _ _
        · exact (hwrite _ _).trans (ih _ _ _ fun _ _ => ⟨rfl, rfl, rfl⟩)
        · exact (hwrite _ _).trans (clientPendingDisconnect_reading _ _)
      · exact (hwrite _ _).trans (clientOutputAppend_reading _ _ _ _)
      · exact (hwrite _ _).trans (clientPendingDisconnect_reading _ _)
    · exact SameReading.refl s

/-- Writing a message does not touch what is read. -/
theorem issueMessage_reading (s : Server) (c : Slot) (m : Message) (e : WriteEnv) :
    SameReading s (issueMessage s c m e) := by
  have hframe : SameReading s (s.emit (.frame c m)) := ⟨rfl, rfl, rfl⟩
  unfold issueMessage clientWrite
  split_ifs
  · exact hframe.trans (clientOutputAppend_reading _ _ _ _)
  · exact hframe.trans (writeLoop_reading _ _ _ _ _ _ _)

/-- A client is disconnected just if the `write()` of the message fails. -/
theorem issueMessage_clientFd (h : Good sz s v) (hc : c ∈ v.connected) :
    (issueMessage s c m (f c)).clientFd c = if failsOn s m f c then -1 else s.clientFd c := by
  have happend :
      ∀ (t : Server) buf, (clientOutputAppend t c buf (f c)).clientFd c = t.clientFd c := by
    intro t buf
    unfold clientOutputAppend
    dsimp only
    split_ifs
    · rfl
    · split
      · rfl
      · split <;> rfl
  unfold issueMessage clientWrite failsOn
  by_cases hhead : (s.output c).headP = none
  · have hfd : (s.emit (.frame c m)).clientFd c ≠ -1 := h.slots.connectedFd c hc
    rw [if_neg (by simpa using hhead), writeLoop_eq hfd (by simp), List.drop_zero, hhead]
    obtain ⟨hs, -, -, hout, -⟩ :=
      wrote_spec (s.emit (.frame c m)) c (drain (f c).writes (frameBytes m)).1
    cases (drain (f c).writes (frameBytes m)).2 with
    | done => exact congrFun hs.clientFd c
    | blocked rest => exact (happend _ rest).trans (congrFun hs.clientFd c)
    | failed => exact clientPendingDisconnect_clientFd (hout ▸ h.ends c hc)
  · rw [if_pos (by simpa using hhead)]
    have hsome : (s.output c).headP.isNone = false := by
      rw [Option.isNone_eq_false_iff, Option.isSome_iff_ne_none]
      exact hhead
    rw [hsome]
    exact happend _ _

/-! ## The loop -/

/-- What happens to one client is decided by its own queue. -/
theorem failsOn_congr (h : t.output c = s.output c) : failsOn t m f c = failsOn s m f c := by
  unfold failsOn
  rw [h]

/-- The client whose turn it is goes to the head of the pending list, or stays. -/
theorem issueMessage_moved {done rest : List Slot} (h : Good sz s v) (hb : v.busy = none)
    (hv : v.connected = done ++ c :: rest) :
    ∃ v', Good sz (issueMessage s c m (f c)) v' ∧ v'.busy = none ∧
      if failsOn s m f c then v'.connected = done ++ rest ∧ v'.pending = c :: v.pending
      else v'.connected = done ++ c :: rest ∧ v'.pending = v.pending := by
  have hc : c ∈ v.connected := by simp [hv]
  have hfd := issueMessage_clientFd (m := m) (f := f) h hc
  obtain ⟨v', hm, hg⟩ := issueMessage_good (m := m) (e := f c) h hb (Or.inl hc)
  refine ⟨v', hg, (hm.shrunk hb).busy.trans hb, ?_⟩
  rcases hm.eq_or hv h.slots.lists.connected.nodup with rfl | rfl
  · have hup := hg.slots.connectedFd c hc
    have hok : ¬ failsOn s m f c = true := fun hf => hup (by rw [hfd, if_pos hf])
    rw [if_neg hok]
    exact ⟨hv, rfl⟩
  · have hdown := hg.slots.pendingFd c List.mem_cons_self
    have hbad : failsOn s m f c = true := by
      by_contra hok
      rw [hfd, if_neg hok] at hdown
      exact h.slots.connectedFd c hc hdown
    rw [if_pos hbad]
    exact ⟨rfl, rfl⟩

/-- The loop of `NAME_server_broadcast()` leaves behind it the clients that it has got the message
to, and moves the others. -/
theorem broadcastLoop_moved {p : Option Slot} {done rest : List Slot} (h : Good sz s v)
    (hb : v.busy = none) (hv : v.connected = done ++ rest) (hp : p = rest.head?)
    (hn : rest.length < n) :
    ∃ v', Good sz (broadcastLoop m f n p s) v' ∧
      v'.connected = done ++ rest.filter (fun c => !failsOn s m f c) ∧
      v'.pending = (rest.filter (failsOn s m f)).reverse ++ v.pending ∧
      ∀ d ∈ rest, failsOn s m f d = false →
        (broadcastLoop m f n p s).clientFd d = s.clientFd d := by
  induction n generalizing s v p done rest with
  | zero => exact absurd hn (Nat.not_lt_zero _)
  | succ n ih =>
    cases rest with
    | nil =>
      subst hp
      exact ⟨v, h, hv, rfl, nofun⟩
    | cons c rest =>
      subst hp
      have hlinks := h.slots.lists.connected
      rw [hv] at hlinks
      have hc : c ∈ v.connected := by simp [hv]
      have hnot : c ∉ rest := (List.nodup_cons.1 (List.nodup_append.1 hlinks.nodup).2.1).1
      have hlen : rest.length < n := by
        simp only [List.length_cons] at hn
        omega
      -- those that are left are decided by the queues that they had at the start
      have hother : ∀ d ∈ rest, SameStream d s (issueMessage s c m (f c)) := fun d hd =>
        (issueMessage_outcome h hb hc).1 d (ne_of_mem_of_not_mem hd hnot)
      have hsame : ∀ d ∈ rest, failsOn (issueMessage s c m (f c)) m f d = failsOn s m f d :=
        fun d hd => failsOn_congr (hother d hd).output
      obtain ⟨v₁, hg₁, hb₁, hturn⟩ := issueMessage_moved (m := m) (f := f) h hb hv
      have hfilter := List.filter_congr hsame
      have hfilter' : rest.filter (fun d => !failsOn (issueMessage s c m (f c)) m f d) =
          rest.filter fun d => !failsOn s m f d :=
        List.filter_congr fun d hd => by rw [hsame d hd]
      have hown := issueMessage_clientFd (m := m) (f := f) h hc
      cases hf : failsOn s m f c with
      | true =>
        rw [hf, if_pos rfl] at hturn
        obtain ⟨v', hg', hcon, hpend, hfds⟩ := ih (p := s.clients.nextP c) hg₁ hb₁ hturn.1
          hlinks.next_eq hlen
        refine ⟨v', hg', ?_, ?_, ?_⟩
        · rw [hcon, hfilter', List.filter_cons_of_neg (by simp [hf])]
        · rw [hpend, hfilter, hturn.2, List.filter_cons_of_pos hf, List.reverse_cons,
            List.append_assoc, List.singleton_append]
        · intro d hd hd'
          rcases List.mem_cons.1 hd with rfl | hd
          · rw [hf] at hd'
            cases hd'
          · exact (hfds d hd ((hsame d hd).trans hd')).trans (hother d hd).clientFd
      | false =>
        rw [hf, if_neg Bool.false_ne_true] at hturn
        have hsplit : v₁.connected = (done ++ [c]) ++ rest := by
          rw [hturn.1, List.append_assoc, List.singleton_append]
        obtain ⟨v', hg', hcon, hpend, hfds⟩ := ih (p := s.clients.nextP c) hg₁ hb₁ hsplit
          hlinks.next_eq hlen
        refine ⟨v', hg', ?_, ?_, ?_⟩
        · rw [hcon, hfilter', List.filter_cons_of_pos (by simp [hf]), List.append_assoc,
            List.singleton_append]
        · rw [hpend, hfilter, hturn.2, List.filter_cons_of_neg (by simp [hf])]
        · intro d hd hd'
          rcases List.mem_cons.1 hd with rfl | hd
          · have hlast := (broadcastLoop_outcome (m := m) (f := f) (n := n)
              (p := s.clients.nextP d) hg₁ hb₁ hsplit hlinks.next_eq hlen).1 d hnot
            refine hlast.clientFd.trans (hown.trans ?_)
            rw [hf, if_neg Bool.false_ne_true]
          · exact (hfds d hd ((hsame d hd).trans hd')).trans (hother d hd).clientFd

theorem broadcastLoop_reading (m : Message) (f : Slot → WriteEnv) (n : ℕ) (p : Option Slot)
    (s : Server) : SameReading s (broadcastLoop m f n p s) := by
  induction n generalizing p s with
  | zero => exact ⟨rfl, rfl, rfl⟩
  | succ n ih =>
    cases p with
    | none => exact SameReading.refl s
    | some c => exact (issueMessage_reading s c m (f c)).trans (ih _ _)

/-! ## The call -/

/-- Every client that is connected gets the message once, or is disconnected, and nothing else
happens. -/
theorem broadcast_once {w t : Server} {messageSize : ℕ} {r : StartEnv} {b : Bool} (hn : 0 < n)
    (hs : started w n sz messageSize r = (0, t)) (depth : ℕ) (calls : List Call)
    (hu : b = true → ¬ BadUnlink (run ⟨false, b⟩ depth calls t).state.log) (enc : Encoder)
    (f : Slot → WriteEnv) (m : Message) :
    let s := (run ⟨false, b⟩ depth calls t).state
    encodeUserMessage s enc = some m → (∀ c ∈ connectedSlots s, (f c).malloc = true) →
      BroadcastOnce s (serverBroadcast s enc f) m f := by
  obtain ⟨v, hb, hg, -⟩ := run_good (d := ⟨false, b⟩) hn hs rfl depth calls hu
  intro s henc hmalloc
  have hlen : v.connected.length < s.clientsMax + 1 := Nat.lt_succ_of_le hg.length_le.1
  have hhead : s.clients.connectedListP = v.connected.head? := hg.slots.lists.connected.head
  obtain ⟨hother, hout⟩ := broadcastLoop_outcome (m := m) (f := f) hg hb
    (List.nil_append _).symm hhead hlen
  obtain ⟨v', hg', hcon, hpend, hfds⟩ := broadcastLoop_moved (m := m) (f := f) hg hb
    (List.nil_append _).symm hhead hlen
  have hreading := broadcastLoop_reading m f (s.clientsMax + 1) s.clients.connectedListP s
  have hloop : serverBroadcast s enc f =
      broadcastLoop m f (s.clientsMax + 1) s.clients.connectedListP s := by
    unfold serverBroadcast
    rw [henc]
  rw [List.nil_append] at hcon
  rw [hloop]
  have hslots : connectedSlots s = v.connected := hg.connectedSlots_eq
  rw [hslots] at hmalloc
  constructor
  case streams =>
    intro c hc hok
    rw [hslots] at hc
    have hup := (hfds c hc hok).trans_ne (hg.slots.connectedFd c hc)
    rw [(hout c hc).up hup, hmalloc c hc, Bool.or_true]
  case connected => rw [hg'.connectedSlots_eq, hcon, hslots]
  case pending => rw [hg'.pendingSlots_eq, hpend, hslots, hg.pendingSlots_eq]
  case others =>
    intro c hc
    rw [hslots] at hc
    exact ⟨(hother c hc).output, (hother c hc).clientFd⟩
  case sockets =>
    intro c hc
    rw [hg'.connectedSlots_eq, hcon, List.mem_filter, Bool.not_eq_true'] at hc
    exact hfds c hc.1 hc.2
  case reading => exact hreading

/-- Three clients are connected. -/
def threeClients : Server :=
  (run ⟨false, false⟩ 0 [connect 5 6, connect 7 8, connect 9 10] (server 3 16)).state

/-- The `write()` to the second of them fails, and the third takes only a part. -/
def oneFails (c : Slot) : WriteEnv :=
  writes (if c = 1 then [.error] else if c = 2 then [.accepted 3, .eagain] else [.accepted 7])

theorem broadcast_once_oneFails :
    BroadcastOnce threeClients (serverBroadcast threeClients (fun _ => some [20, 21, 22]) oneFails)
      (messageTypeServerToClientUser, [20, 21, 22]) oneFails :=
  broadcast_once (n := 3) (w := memory) (r := start) (b := false) (by decide) rfl 0
    [connect 5 6, connect 7 8, connect 9 10] nofun (fun _ => some [20, 21, 22]) oneFails _ rfl
    fun _ _ => rfl

end

end Messi.LinuxServer
