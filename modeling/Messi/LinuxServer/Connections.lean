import Messi.LinuxServer.Invariant

/-!
# Connecting and disconnecting clients

The invariant is kept when a client is disconnected (`Good.clientPendingDisconnect`), when one is
accepted or turned away (`Good.clientInit`), and when a pending client is destroyed.
-/

namespace Messi.LinuxServer

open Framing PointerList ByteMemory

section

variable {sz n : ℕ} {s s' t : Server} {v : View} {c d : Slot} {l₁ l₂ : List Slot}

/-! ## Disconnecting -/

/-- Freeing a queue that ends uses and frees its items, and does nothing else. -/
theorem freeItems_eq {p : Option ℕ} {q : List ℕ}
    (h : Links (fun i => ((s.output c).items i).nextP) p q) (hn : q.length < n) :
    ∃ evs, (∀ e ∈ evs, e.ofItem = true) ∧
      freeItems c n p s = { s with log := evs ++ s.log } := by
  induction q generalizing p n s with
  | nil =>
    obtain ⟨n, rfl⟩ : ∃ k, n = k + 1 := ⟨n - 1, by simp at hn; omega⟩
    obtain rfl : p = none := h
    exact ⟨[], by simp, rfl⟩
  | cons i q ih =>
    obtain ⟨n, rfl⟩ : ∃ k, n = k + 1 := ⟨n - 1, by simp at hn; omega⟩
    obtain ⟨rfl, h⟩ := h
    obtain ⟨evs, hevs, he⟩ := ih (n := n) (s := (s.emit (.itemUse c i)).emit (.itemFree c i)) h
      (by simp at hn; omega)
    refine ⟨evs ++ [.itemFree c i, .itemUse c i], ?_, ?_⟩
    · intro e hm
      rcases List.mem_append.1 hm with hm | hm
      · exact hevs e hm
      · simp only [List.mem_cons, List.not_mem_nil, or_false] at hm
        rcases hm with rfl | rfl <;> rfl
    · rw [freeItems, he, List.append_assoc]
      rfl

theorem clientPendingDisconnect_of_pending (h : s.clientFd c = -1) :
    clientPendingDisconnect s c = s := by
  unfold clientPendingDisconnect
  rw [if_pos h]

theorem clientPendingDisconnect_eq (hfd : s.clientFd c ≠ -1) (he : QueueEnds (s.output c)) :
    ∃ evs, (∀ e ∈ evs, e.ofItem = true) ∧ clientPendingDisconnect s c =
      { s with
        clientFd := Function.update s.clientFd c (-1)
        output := Function.update s.output c { s.output c with headP := none }
        clients := (moveClientToPendingDisconnectList s c).clients
        log := .pendingDisconnect c ::
          .unlinked c (unlinkable s.clientsMax s.clients s.clients.connectedListP c) ::
            (evs ++ .closed (s.clientFd c) ::
              .epollCtl .del (s.clientFd c) ⟨false, false⟩ true :: s.log) } := by
  obtain ⟨q, hq, hlen⟩ := he
  unfold clientPendingDisconnect
  rw [if_neg hfd]
  dsimp only
  unfold freeClientOutput
  obtain ⟨evs, hevs, hitems⟩ := freeItems_eq (c := c) (n := (s.output c).brk + 1) (q := q)
    (p := (s.output c).headP)
    (s := ((closeFd s (s.clientFd c)).setClientFd c (-1)).setOutput c
      { s.output c with headP := none })
    (by simpa using hq) (by omega)
  refine ⟨evs, hevs, ?_⟩
  have hout : ((closeFd s (s.clientFd c)).setClientFd c (-1)).output = s.output := rfl
  rw [hout]
  simp only [Server.setOutput_output, Function.update_self]
  rw [hitems]
  rfl

theorem owned_disconnect (hv : v.connected = l₁ ++ c :: l₂) (hc : c ∉ l₁ ++ l₂)
    (hp : v.place ≠ .disconnected c) (hfd : t.clientFd = Function.update s.clientFd c (-1))
    (ht : t.keepAliveTimerFd = s.keepAliveTimerFd) (hl : t.listenerFd = s.listenerFd) :
    (v.owned s).Perm (s.clientFd c ::
      View.owned { v with connected := l₁ ++ l₂, pending := c :: v.pending, busy := none } t) := by
  have hsame : (l₁ ++ l₂).flatMap (connectedFds t) = (l₁ ++ l₂).flatMap (connectedFds s) := by
    refine flatMap_connectedFds fun d hd => ⟨?_, by rw [ht]⟩
    rw [hfd, Function.update_of_ne (ne_of_mem_of_not_mem hd hc)]
  have hpend : (c :: v.pending).flatMap (pendingFds t v.place) =
      (c :: v.pending).flatMap (pendingFds s v.place) :=
    flatMap_pendingFds fun d _ => by rw [ht]
  have hnew : pendingFds s v.place c = [s.keepAliveTimerFd c] := if_neg hp
  unfold View.owned
  dsimp only
  rw [hsame, hpend, hl, hv, List.flatMap_cons, hnew]
  refine List.perm_iff_count.2 fun x => ?_
  simp only [List.count_append, List.flatMap_append, List.flatMap_cons, List.count_cons,
    connectedFds, List.count_nil]
  omega

/-- A connected client is disconnected: it moves to the front of the pending list. -/
theorem Good.clientPendingDisconnect (h : Good sz s v) (hv : v.connected = l₁ ++ c :: l₂)
    (hb : v.busy = none ∨ v.busy = some c) (hrec : headerSize ≤ sz → Received sz s c) :
    Good sz (clientPendingDisconnect s c)
      { v with connected := l₁ ++ l₂, pending := c :: v.pending, busy := none } := by
  have hmem : c ∈ v.connected := by simp [hv]
  have hlists := h.slots.lists
  rw [hv] at hlists
  have hnot := hlists.notMem_of_connected
  have hfd := h.slots.connectedFd c hmem
  have hplace : v.place ≠ .disconnected c := fun hp => hnot.2.2 (h.slots.disconnected c hp)
  obtain ⟨evs, hevs, heq⟩ := clientPendingDisconnect_eq hfd (h.ends c hmem)
  have hne : ∀ d ∈ l₁ ++ l₂, d ≠ c := fun d hd => ne_of_mem_of_not_mem hd hnot.1
  have hin : ∀ d, d ∈ v.connected ↔ d = c ∨ d ∈ l₁ ++ l₂ := fun d => by
    rw [hv]
    simp only [List.mem_append, List.mem_cons]
    tauto
  have hbusy : ∀ d, d ≠ c → v.busy ≠ some d := fun d hd => by
    rcases hb with hb | hb <;> simp [hb, Ne.symm hd]
  -- the log, up to the events that no observation is about
  let s₁ := closeFd s (s.clientFd c)
  have hlog : SameLog s₁.log (evs ++ s₁.log) := (SameLog.refl _).append_items hevs
  have howned := h.fds.trans (owned_disconnect (t := LinuxServer.clientPendingDisconnect s c) hv
    hnot.1 hplace (by rw [heq]) (by rw [heq]) (by rw [heq]))
  have hmemfd : s.clientFd c ∈ openFds s.log := howned.mem_iff.2 List.mem_cons_self
  have hlen : (l₁ ++ c :: l₂).length ≤ s.clientsMax := by
    have := h.slots.all.length_eq
    rw [hv] at this
    simp only [List.length_append, List.length_range] at this ⊢
    omega
  rw [heq] at howned ⊢
  have hperm : (l₁ ++ l₂ ++ (v.free ++ c :: v.pending)).Perm (List.range s.clientsMax) := by
    refine List.Perm.trans ?_ h.slots.all
    rw [hv]
    refine List.perm_iff_count.2 fun x => ?_
    simp only [List.count_append, List.count_cons]
    omega
  constructor
  case slots =>
    exact {
      lists := hlists.moveClientToPendingDisconnectList
      all := hperm
      connectedFd := fun d hd => by
        show Function.update s.clientFd c (-1) d ≠ -1
        rw [Function.update_of_ne (hne d hd)]
        exact h.slots.connectedFd d ((hin d).2 (Or.inr hd))
      pendingFd := fun d hd => by
        show Function.update s.clientFd c (-1) d = -1
        by_cases hdc : d = c
        · rw [hdc, Function.update_self]
        · rw [Function.update_of_ne hdc]
          exact h.slots.pendingFd d ((List.mem_cons.1 hd).resolve_left hdc)
      connectedPhase := fun d hd => by
        simp only [phase, if_neg (hne d hd).symm]
        exact (hlog.phase d).trans (h.slots.connectedPhase d ((hin d).2 (Or.inr hd)))
      pendingPhase := fun d hd => by
        by_cases hdc : c = d
        · subst hdc
          have := (hlog.phase c).trans (h.slots.connectedPhase c hmem)
          simp only [phase, if_pos, if_neg hplace]
          exact if_pos this
        · simp only [phase, if_neg hdc]
          exact (hlog.phase d).trans
            (h.slots.pendingPhase d ((List.mem_cons.1 hd).resolve_left (Ne.symm hdc)))
      freePhase := fun d hd hp => by
        have hdc : c ≠ d := fun he => hp (he ▸ List.mem_cons_self)
        simp only [phase, if_neg hdc]
        refine (hlog.phase d).trans (h.slots.freePhase d (fun hm => ?_) fun hm => ?_)
        · exact hd (((hin d).1 hm).resolve_left (Ne.symm hdc))
        · exact hp (List.mem_cons_of_mem c hm)
      current := h.slots.current
      currentPlace := h.slots.currentPlace
      message := fun d hd => by
        rcases h.slots.message d hd with hm | hm
        · rcases (hin d).1 hm with rfl | hm
          · exact Or.inr List.mem_cons_self
          · exact Or.inl hm
        · exact Or.inr (List.mem_cons_of_mem c hm)
      disconnected := fun d hd => List.mem_cons_of_mem c (h.slots.disconnected d hd) }
  case fds =>
    have hopen : openFds (evs ++ s₁.log) = (openFds s.log).erase (s.clientFd c) := hlog.openFds
    show (openFds (evs ++ s₁.log)).Perm _
    rw [hopen]
    have := howned.erase (s.clientFd c)
    rwa [List.erase_cons_head] at this
  case log =>
    refine ⟨trivial, hlists.unlinkable_connected hlen, LogOk.append_items ?_ hevs⟩
    exact ⟨hmemfd, Or.inr hmemfd, h.log⟩
  case buffers => exact h.buffers
  case ends =>
    intro d hd
    show QueueEnds (Function.update s.output c _ d)
    rw [Function.update_of_ne (hne d hd)]
    exact h.ends d ((hin d).2 (Or.inr hd))
  case notEnded =>
    intro d hd
    simp only [ended, if_neg (hne d hd).symm]
    exact (hlog.ended d).trans (h.notEnded d ((hin d).2 (Or.inr hd)))
  case sent =>
    intro d
    exact (h.sent d).congr (hlog.accepted d) (hlog.issued d) (hlog.mallocOk d)
  case output =>
    intro d hd _
    refine (h.output d ((hin d).2 (Or.inr hd)) (hbusy d (hne d hd))).congr ?_
    exact ⟨Function.update_of_ne (hne d hd) _ _, (hlog.accepted d), (hlog.issued d),
      (hlog.mallocOk d)⟩
  case reception =>
    intro hsz
    have hr := h.reception hsz
    refine ⟨fun d hd _ hp => ?_, fun d _ => ?_, fun d hp => ?_⟩
    · have hw := hr.waiting d ((hin d).2 (Or.inr hd)) (hbusy d (hne d hd)) hp
      exact ⟨(pendingBytes_congr (hlog.received d)).trans hw.bytes, hw.left⟩
    · have hd : Received sz s d := by
        by_cases hdc : d = c
        · exact hdc ▸ hrec hsz
        · exact hr.received d (hbusy d hdc)
      exact hd.congr (hlog.handled d) (hlog.received d)
    · exact (pendingBytes_congr (hlog.received d)).trans (hr.message d hp)

/-! ## Connecting -/

theorem SlotsOk.withFds (h : SlotsOk s v) (fds : List ℤ) : SlotsOk s { v with fds := fds } :=
  ⟨h.lists, h.all, h.connectedFd, h.pendingFd, h.connectedPhase, h.pendingPhase, h.freePhase,
    h.current, h.currentPlace, h.message, h.disconnected⟩

theorem Good.opened {fd : ℤ} (h : Good sz s v) (hfd : fd ∉ openFds s.log) :
    Good sz (s.emit (.opened fd)) { v with fds := fd :: v.fds } where
  slots := (h.slots.congr (SameSlots.emit s rfl)).withFds _
  fds := by
    refine (h.fds.cons fd).trans ?_
    unfold View.owned
    exact List.perm_middle.symm
  log := ⟨hfd, h.log⟩
  buffers := h.buffers
  ends := h.ends
  notEnded := h.notEnded
  sent := h.sent
  output := h.output
  reception hsz :=
    have hr := h.reception hsz
    ⟨fun c hc hb hp => (hr.waiting c hc hb hp).congr (SameInput.emit s nofun), hr.received,
      hr.message⟩

theorem Good.closed {fd : ℤ} {fds : List ℤ} (h : Good sz s v) (hv : v.fds = fd :: fds) :
    Good sz (s.emit (.closed fd)) { v with fds := fds } where
  slots := (h.slots.congr (SameSlots.emit s rfl)).withFds _
  fds := by
    have hp : (openFds s.log).Perm (fd :: View.owned { v with fds := fds } s) := by
      refine h.fds.trans ?_
      unfold View.owned
      rw [hv]
      exact List.perm_middle
    have := hp.erase fd
    rwa [List.erase_cons_head] at this
  log := by
    refine ⟨h.fds.mem_iff.2 ?_, h.log⟩
    unfold View.owned
    simp [hv]
  buffers := h.buffers
  ends := h.ends
  notEnded := h.notEnded
  sent := h.sent
  output := h.output
  reception hsz :=
    have hr := h.reception hsz
    ⟨fun c hc hb hp => (hr.waiting c hc hb hp).congr (SameInput.emit s nofun), hr.received,
      hr.message⟩

/-- The states agree on everything but the slot `c`, the lists and the log. -/
structure SameBut (c : Slot) (s s' : Server) : Prop where
  clientFd : ∀ d, d ≠ c → s'.clientFd d = s.clientFd d
  keepAliveTimerFd : ∀ d, d ≠ c → s'.keepAliveTimerFd d = s.keepAliveTimerFd d
  input : ∀ d, d ≠ c → s'.input d = s.input d
  output : ∀ d, d ≠ c → s'.output d = s.output d
  buffer : (s'.input c).bufP = (s.input c).bufP ∧ (s'.input c).dataSize = (s.input c).dataSize
  inputBufs : s'.inputBufs = s.inputBufs
  listenerFd : s'.listenerFd = s.listenerFd
  currentClientP : s'.currentClientP = s.currentClientP
  clientsMax : s'.clientsMax = s.clientsMax

/-- The slot as `client_init()` sets it up. -/
structure FreshSlot (s : Server) (c : Slot) (fd : ℤ) : Prop where
  clientFd : s.clientFd c = fd
  state : (s.input c).state = .header
  size : (s.input c).size = 0
  left : (s.input c).left = headerSize
  headP : (s.output c).headP = none

theorem SameBut.trans (h : SameBut c s s') (h' : SameBut c s' t) : SameBut c s t where
  clientFd d hd := (h'.clientFd d hd).trans (h.clientFd d hd)
  keepAliveTimerFd d hd := (h'.keepAliveTimerFd d hd).trans (h.keepAliveTimerFd d hd)
  input d hd := (h'.input d hd).trans (h.input d hd)
  output d hd := (h'.output d hd).trans (h.output d hd)
  buffer := ⟨h'.buffer.1.trans h.buffer.1, h'.buffer.2.trans h.buffer.2⟩
  inputBufs := h'.inputBufs.trans h.inputBufs
  listenerFd := h'.listenerFd.trans h.listenerFd
  currentClientP := h'.currentClientP.trans h.currentClientP
  clientsMax := h'.clientsMax.trans h.clientsMax

theorem SameBut.emit {e : Event} (h : SameBut c s s') : SameBut c s (s'.emit e) :=
  ⟨h.clientFd, h.keepAliveTimerFd, h.input, h.output, h.buffer, h.inputBufs, h.listenerFd,
    h.currentClientP, h.clientsMax⟩

theorem FreshSlot.emit {e : Event} {fd : ℤ} (h : FreshSlot s c fd) : FreshSlot (s.emit e) c fd :=
  ⟨h.clientFd, h.state, h.size, h.left, h.headP⟩

/-- `client_init()` leaves nothing open but its timer, and that only if it succeeds. -/
theorem clientInit_spec {α : Type*} {fd : ℤ} {e : AcceptEnv α} {r : Bool}
    (h : clientInit s c fd e = (r, s')) (hfd : fd ∈ openFds s.log) (hlog : LogOk sz s.log) :
    SameBut c s s' ∧ s'.clients = s.clients ∧ FreshSlot s' c fd ∧ LogOk sz s'.log ∧
      match r with
      | true => s'.keepAliveTimerFd c ∉ openFds s.log ∧
          SameLog (.opened (s'.keepAliveTimerFd c) :: s.log) s'.log
      | false => SameLog s.log s'.log := by
  obtain ⟨t, ht⟩ : ∃ t, t = sysOpen (openFds s.log) e.timer := ⟨_, rfl⟩
  obtain ⟨s₀, hs₀⟩ : ∃ x, x = ((clientResetInput (s.setClientFd c fd) c).setOutput c
      { s.output c with headP := none }).setKeepAliveTimerFd c t := ⟨_, rfl⟩
  have hbut : SameBut c s s₀ := by
    rw [hs₀]
    refine ⟨fun d hd => ?_, fun d hd => ?_, fun d hd => ?_, fun d hd => ?_, ?_, rfl, rfl, rfl, rfl⟩
    · exact Function.update_of_ne hd _ _
    · exact Function.update_of_ne hd _ _
    · exact Function.update_of_ne hd _ _
    · exact Function.update_of_ne hd _ _
    · simp [clientResetInput]
  have hfresh : FreshSlot s₀ c fd := by
    rw [hs₀]
    constructor <;> simp [clientResetInput]
  have htimer : s₀.keepAliveTimerFd c = t := by simp [hs₀]
  have hlog₀ : s₀.log = s.log := by
    rw [hs₀]
    rfl
  have hclients : s₀.clients = s.clients := by
    rw [hs₀]
    rfl
  have he : clientInit s c fd e =
      if t = -1 then (false, s₀) else
        let s₁ := clientStartKeepAliveTimer (s₀.emit (.opened t)) c e.settime
        if !e.settime then (false, s₁.emit (.closed t))
        else if !e.addTimer then (false, (epollCtlAdd s₁ t e.addTimer).emit (.closed t))
        else if !e.addClient then
          (false, (epollCtlDel (epollCtlAdd (epollCtlAdd s₁ t e.addTimer) fd e.addClient) t).emit
            (.closed t))
        else (true, epollCtlAdd (epollCtlAdd s₁ t e.addTimer) fd e.addClient) := by
    rw [hs₀, ht]
    rfl
  rw [he] at h
  by_cases h0 : t = -1
  · rw [if_pos h0] at h
    obtain ⟨rfl, rfl⟩ := Prod.mk.inj h
    exact ⟨hbut, hclients, hfresh, hlog₀ ▸ hlog, hlog₀ ▸ SameLog.refl _⟩
  have hfree : t ∉ openFds s.log := ht ▸ sysOpen_spec _ _ (ht ▸ h0)
  obtain ⟨s₁, hs₁⟩ : ∃ x, x = clientStartKeepAliveTimer (s₀.emit (.opened t)) c e.settime :=
    ⟨_, rfl⟩
  rw [if_neg h0, ← hs₁] at h
  unfold clientStartKeepAliveTimer at hs₁
  rw [show (s₀.emit (.opened t)).keepAliveTimerFd c = t from htimer] at hs₁
  have hlog₁ : s₁.log = .settime t e.settime :: .opened t :: s.log := by
    rw [hs₁, ← hlog₀]
    rfl
  have hbut₁ : SameBut c s s₁ := hs₁ ▸ hbut.emit.emit
  have hfresh₁ : FreshSlot s₁ c fd := hs₁ ▸ hfresh.emit.emit
  have hclients₁ : s₁.clients = s.clients := by
    rw [hs₁, ← hclients]
    rfl
  have hl₁ : SameLog (.opened t :: s.log) s₁.log := by
    rw [hlog₁]
    exact (SameLog.refl _).cons ⟨rfl, rfl, rfl, rfl⟩
  have hmem : t ∈ openFds s₁.log := hl₁.openFds ▸ List.mem_cons_self
  have hfd₁ : fd ∈ openFds s₁.log := hl₁.openFds ▸ List.mem_cons_of_mem t hfd
  have hok₁ : LogOk sz s₁.log := by
    rw [hlog₁]
    exact ⟨List.mem_cons_self, hfree, hlog⟩
  cases h1 : e.settime
  · rw [h1] at h
    obtain ⟨rfl, rfl⟩ := Prod.mk.inj h
    exact ⟨hbut₁.emit, hclients₁, hfresh₁.emit, ⟨hmem, hok₁⟩, hl₁.close⟩
  cases h2 : e.addTimer
  · rw [h1, h2] at h
    obtain ⟨rfl, rfl⟩ := Prod.mk.inj h
    exact ⟨hbut₁.emit.emit, hclients₁, hfresh₁.emit.emit, ⟨hmem, Or.inr hmem, hok₁⟩,
      (hl₁.cons ⟨rfl, rfl, rfl, rfl⟩).close⟩
  have hl₃ :
      SameLog (.opened t :: s.log) (epollCtlAdd (epollCtlAdd s₁ t true) fd e.addClient).log :=
    (hl₁.cons ⟨rfl, rfl, rfl, rfl⟩).cons ⟨rfl, rfl, rfl, rfl⟩
  have hok₃ : LogOk sz (epollCtlAdd (epollCtlAdd s₁ t true) fd e.addClient).log :=
    ⟨Or.inr hfd₁, Or.inr hmem, hok₁⟩
  cases h3 : e.addClient
  · rw [h1, h2, h3] at h
    rw [h3] at hl₃ hok₃
    obtain ⟨rfl, rfl⟩ := Prod.mk.inj h
    exact ⟨hbut₁.emit.emit.emit.emit, hclients₁, hfresh₁.emit.emit.emit.emit,
      ⟨hmem, Or.inr hmem, hok₃⟩, (hl₃.cons ⟨rfl, rfl, rfl, rfl⟩).close⟩
  · rw [h1, h2, h3] at h
    rw [h3] at hl₃ hok₃
    obtain ⟨rfl, rfl⟩ := Prod.mk.inj h
    have htimer₃ : (epollCtlAdd (epollCtlAdd s₁ t true) fd true).keepAliveTimerFd c = t := by
      rw [← htimer, hs₁]
      rfl
    refine ⟨hbut₁.emit.emit, hclients₁, hfresh₁.emit.emit, hok₃, ?_⟩
    rw [htimer₃]
    exact ⟨hfree, hl₃⟩

/-- The other slots of the view keep their streams when `c` is set up. -/
theorem SameBut.sameInput (h : SameBut c s s') (hl : SameLog s.log s'.log) (hd : d ≠ c) :
    SameInput d s s' := by
  refine ⟨h.input d hd, ?_, hl.received d, hl.handled d, hl.ended d⟩
  unfold inputBytes
  rw [h.input d hd, h.inputBufs]

/-- A client that is turned away leaves the server as it was. -/
theorem Good.freeConnectedClient {fl : List Slot} (h : Good sz s v) (hv : v.free = c :: fl)
    (hlists : SlotLists s'.clients (c :: v.connected) fl v.pending) (hs : SameBut c s s')
    (hl : SameLog s.log s'.log) (hok : LogOk sz s'.log) :
    Good sz (freeConnectedClient s' c) v := by
  have hnot : c ∉ v.connected ∧ c ∉ v.free.tail ∧ c ∉ v.pending := by
    rw [hv]
    exact (hv ▸ h.slots.lists).notMem_of_free
  have hne : ∀ d ∈ v.connected, d ≠ c := fun d hd => ne_of_mem_of_not_mem hd hnot.1
  have hnep : ∀ d ∈ v.pending, d ≠ c := fun d hd => ne_of_mem_of_not_mem hd hnot.2.2
  have hlen : ([] ++ c :: v.connected).length ≤ s'.clientsMax := by
    have := h.slots.all.length_eq
    rw [hv, ← hs.clientsMax] at this
    simp only [List.length_append, List.length_range, List.length_cons, List.nil_append] at this ⊢
    omega
  have howned : View.owned v s' = View.owned v s := by
    unfold View.owned
    rw [hs.listenerFd, flatMap_pendingFds fun d hd => hs.keepAliveTimerFd d (hnep d hd),
      flatMap_connectedFds fun d hd =>
        ⟨hs.clientFd d (hne d hd), hs.keepAliveTimerFd d (hne d hd)⟩]
  have hunlinked : (unlinkable s'.clientsMax s'.clients s'.clients.connectedListP c) = true :=
    hlists.unlinkable_connected hlen
  constructor
  case slots =>
    exact {
      lists := hv ▸ (show SlotLists s'.clients ([] ++ c :: v.connected) fl v.pending from
        hlists).freeConnectedClient
      all := hs.clientsMax ▸ h.slots.all
      connectedFd := fun d hd => (hs.clientFd d (hne d hd)).symm ▸ h.slots.connectedFd d hd
      pendingFd := fun d hd => (hs.clientFd d (hnep d hd)).trans (h.slots.pendingFd d hd)
      connectedPhase := fun d hd => (hl.phase d).trans (h.slots.connectedPhase d hd)
      pendingPhase := fun d hd => (hl.phase d).trans (h.slots.pendingPhase d hd)
      freePhase := fun d hd hp => (hl.phase d).trans (h.slots.freePhase d hd hp)
      current := hs.currentClientP.trans h.slots.current
      currentPlace := h.slots.currentPlace
      message := h.slots.message
      disconnected := h.slots.disconnected }
  case fds =>
    show (openFds s'.log).Perm (View.owned v s')
    rw [hl.openFds, howned]
    exact h.fds
  case log => exact ⟨hunlinked, hok⟩
  case buffers =>
    intro d hd
    by_cases hdc : d = c
    · subst hdc
      show (s'.input d).bufP = _ ∧ (s'.input d).dataSize = _
      rw [hs.buffer.1, hs.buffer.2]
      exact h.buffers d (hs.clientsMax ▸ hd)
    · show (s'.input d).bufP = _ ∧ (s'.input d).dataSize = _
      rw [hs.input d hdc]
      exact h.buffers d (hs.clientsMax ▸ hd)
  case ends =>
    intro d hd
    show QueueEnds (s'.output d)
    rw [hs.output d (hne d hd)]
    exact h.ends d hd
  case notEnded => exact fun d hd => (hl.ended d).trans (h.notEnded d hd)
  case sent => exact fun d => (h.sent d).congr (hl.accepted d) (hl.issued d) (hl.mallocOk d)
  case output =>
    intro d hd hb
    exact (h.output d hd hb).congr
      ⟨hs.output d (hne d hd), hl.accepted d, hl.issued d, hl.mallocOk d⟩
  case reception =>
    intro hsz
    have hr := h.reception hsz
    refine ⟨fun d hd hb hp => ?_, fun d hb => ?_, fun d hp => ?_⟩
    · have hin := hs.sameInput hl (hne d hd)
      exact (hr.waiting d hd hb hp).congr
        ⟨hin.input, hin.bytes, hin.received, hin.handled, hin.ended⟩
    · exact (hr.received d hb).congr (hl.handled d) (hl.received d)
    · exact (pendingBytes_congr (hl.received d)).trans (hr.message d hp)

/-- A client that is accepted is connected, and its streams are empty. -/
theorem Good.onClientConnected {fl : List Slot} {fd : ℤ} {fds : List ℤ} (h : Good sz s v)
    (hv : v.free = c :: fl) (hfds : v.fds = fd :: fds) (hfd : fd ≠ -1)
    (hlists : SlotLists s'.clients (c :: v.connected) fl v.pending) (hs : SameBut c s s')
    (hfresh : FreshSlot s' c fd) (hok : LogOk sz s'.log)
    (hl : SameLog (.opened (s'.keepAliveTimerFd c) :: s.log) s'.log) :
    Good sz (s'.emit (.onClientConnected c))
      { v with connected := c :: v.connected, free := fl, fds := fds } := by
  have hnot : c ∉ v.connected ∧ c ∉ fl ∧ c ∉ v.pending := (hv ▸ h.slots.lists).notMem_of_free
  have hne : ∀ d ∈ v.connected, d ≠ c := fun d hd => ne_of_mem_of_not_mem hd hnot.1
  have hnep : ∀ d ∈ v.pending, d ≠ c := fun d hd => ne_of_mem_of_not_mem hd hnot.2.2
  have hphase : ∀ d, d ≠ c → phase d (.onClientConnected c :: s'.log) = phase d s.log :=
    fun d hd => by
      simp only [phase, if_neg (Ne.symm hd)]
      exact hl.phase d
  have hphasec : phase c (.onClientConnected c :: s'.log) = some .connected := by
    have : phase c s'.log = some .free :=
      (hl.phase c).trans (h.slots.freePhase c hnot.1 hnot.2.2)
    simp [phase, this]
  have hdisc : v.place ≠ .disconnected c := fun hp => hnot.2.2 (h.slots.disconnected c hp)
  have hmsg : v.place ≠ .message c := fun hp => by
    rcases h.slots.message c hp with hm | hm
    · exact hnot.1 hm
    · exact hnot.2.2 hm
  constructor
  case slots =>
    exact {
      lists := hlists
      all := by
        show (c :: v.connected ++ (fl ++ v.pending)).Perm (List.range s'.clientsMax)
        rw [hs.clientsMax]
        refine List.Perm.trans ?_ h.slots.all
        rw [hv]
        exact List.perm_middle.symm
      connectedFd := fun d hd => by
        rcases List.mem_cons.1 hd with rfl | hd
        · exact hfresh.clientFd.symm ▸ hfd
        · exact (hs.clientFd d (hne d hd)).symm ▸ h.slots.connectedFd d hd
      pendingFd := fun d hd => (hs.clientFd d (hnep d hd)).trans (h.slots.pendingFd d hd)
      connectedPhase := fun d hd => by
        rcases List.mem_cons.1 hd with rfl | hd
        · exact hphasec
        · exact (hphase d (hne d hd)).trans (h.slots.connectedPhase d hd)
      pendingPhase := fun d hd => (hphase d (hnep d hd)).trans (h.slots.pendingPhase d hd)
      freePhase := fun d hd hp => by
        have hdc : d ≠ c := fun he => hd (he ▸ List.mem_cons_self)
        exact (hphase d hdc).trans
          (h.slots.freePhase d (fun hm => hd (List.mem_cons_of_mem c hm)) hp)
      current := hs.currentClientP.trans h.slots.current
      currentPlace := h.slots.currentPlace
      message := fun d hd => (h.slots.message d hd).imp_left (List.mem_cons_of_mem c)
      disconnected := h.slots.disconnected }
  case fds =>
    show (openFds s'.log).Perm _
    rw [hl.openFds]
    refine (h.fds.cons (s'.keepAliveTimerFd c)).trans ?_
    unfold View.owned
    dsimp only
    rw [hfds, List.flatMap_cons]
    show (s'.keepAliveTimerFd c :: _).Perm ((if v.listening then [s'.listenerFd] else []) ++
      (fds ++ (connectedFds s' c ++ v.connected.flatMap (connectedFds s') ++
        v.pending.flatMap (pendingFds s' v.place))))
    rw [flatMap_connectedFds fun d hd =>
        ⟨hs.clientFd d (hne d hd), hs.keepAliveTimerFd d (hne d hd)⟩,
      flatMap_pendingFds fun d hd => hs.keepAliveTimerFd d (hnep d hd), hs.listenerFd]
    unfold connectedFds
    rw [hfresh.clientFd]
    refine List.perm_iff_count.2 fun x => ?_
    simp only [List.count_append, List.count_cons, List.count_nil]
    omega
  case log => exact ⟨trivial, hok⟩
  case buffers =>
    intro d hd
    show (s'.input d).bufP = _ ∧ (s'.input d).dataSize = _
    by_cases hdc : d = c
    · subst hdc
      rw [hs.buffer.1, hs.buffer.2]
      exact h.buffers d (hs.clientsMax ▸ hd)
    · rw [hs.input d hdc]
      exact h.buffers d (hs.clientsMax ▸ hd)
  case ends =>
    intro d hd
    show QueueEnds (s'.output d)
    rcases List.mem_cons.1 hd with rfl | hd
    · exact ⟨[], hfresh.headP, Nat.zero_le _⟩
    · exact hs.output d (hne d hd) ▸ h.ends d hd
  case notEnded =>
    intro d hd
    rcases List.mem_cons.1 hd with rfl | hd
    · simp [ended]
    · simp only [Server.emit_log, ended, if_neg (hne d hd).symm]
      exact (hl.ended d).trans (h.notEnded d hd)
  case sent =>
    intro d
    by_cases hdc : d = c
    · subst hdc
      exact fun _ => by simp [accepted, issued]
    · refine (h.sent d).congr ((accepted_cons ?_).trans (hl.accepted d))
        ((issued_cons ?_).trans (hl.issued d)) ((mallocOk_cons ?_).trans (hl.mallocOk d)) <;>
      simp [Event.output?, Ne.symm hdc]
  case output =>
    intro d hd hb
    rcases List.mem_cons.1 hd with rfl | hd
    · refine ⟨[], ⟨hfresh.headP, by simp, by simp⟩, fun _ => ?_⟩
      simp [accepted, issued, itemsBytes]
    · have hout : (Event.onClientConnected c).output? ≠ some d := by
        simp [Event.output?, (hne d hd).symm]
      exact (h.output d hd hb).congr ⟨hs.output d (hne d hd),
        (accepted_cons hout).trans (hl.accepted d), (issued_cons hout).trans (hl.issued d),
        (mallocOk_cons hout).trans (hl.mallocOk d)⟩
  case reception =>
    intro hsz
    have hr := h.reception hsz
    have hin : ∀ d, d ≠ c → (Event.onClientConnected c).input? ≠ some d := fun d hd => by
      simp [Event.input?, Ne.symm hd]
    refine ⟨fun d hd hb hp => ?_, fun d hb => ?_, fun d hp => ?_⟩
    · rcases List.mem_cons.1 hd with rfl | hd
      · have hbytes : inputBytes (s'.emit (.onClientConnected d)) d = [] := by
          unfold inputBytes
          rw [show ((s'.emit (.onClientConnected d)).input d).size = 0 from hfresh.size]
          rfl
        refine ⟨?_, ?_⟩
        · rw [hbytes]
          simp [pendingBytes, received]
        · rw [hbytes]
          show Awaits sz (decide ((s'.input d).state = .payload)) [] (s'.input d).left
          rw [hfresh.state, hfresh.left]
          exact awaits_header
      · have hdc := hne d hd
        refine (hr.waiting d hd hb hp).congr ⟨hs.input d hdc, ?_,
          (received_cons (hin d hdc)).trans (hl.received d),
          (handled_cons (hin d hdc)).trans (hl.handled d),
          (ended_cons (hin d hdc)).trans (hl.ended d)⟩
        show slice s'.inputBufs (s'.input d).bufP (s'.input d).size = _
        rw [hs.input d hdc, hs.inputBufs]
        rfl
    · by_cases hdc : d = c
      · subst hdc
        simp [Received, handled, received]
      · exact (hr.received d hb).congr ((handled_cons (hin d hdc)).trans (hl.handled d))
          ((received_cons (hin d hdc)).trans (hl.received d))
    · have hdc : d ≠ c := fun he => hmsg (he ▸ hp)
      exact (pendingBytes_congr ((received_cons (hin d hdc)).trans (hl.received d))).trans
        (hr.message d hp)

/-! ## Destroying -/

/-- The state in which `on_client_disconnected` is called. -/
def disconnectedState (s : Server) (c : Slot) : Server :=
  ((closeFd s (s.keepAliveTimerFd c)).setKeepAliveTimerFd c (-1)).emit (.onClientDisconnected c)

theorem Good.onClientDisconnected (h : Good sz s v) (hp : v.place = .top)
    (hv : v.pending = l₁ ++ c :: l₂) :
    Good sz (disconnectedState s c) { v with place := .disconnected c } := by
  have hmem : c ∈ v.pending := by simp [hv]
  have hlists := h.slots.lists
  rw [hv] at hlists
  have hnot := hlists.notMem_of_pending
  have hne : ∀ d ∈ v.connected, d ≠ c := fun d hd => ne_of_mem_of_not_mem hd hnot.1
  have htop : ∀ d, pendingFds s v.place d = [s.keepAliveTimerFd d] := fun d => by
    unfold pendingFds
    rw [hp, if_neg nofun]
  have howned : (v.owned s).Perm (s.keepAliveTimerFd c ::
      View.owned { v with place := .disconnected c } (disconnectedState s c)) := by
    have hrest : ∀ l : List Slot, c ∉ l →
        l.flatMap (pendingFds (disconnectedState s c) (.disconnected c)) =
          l.flatMap (pendingFds s v.place) := fun l hl => by
      refine List.flatMap_congr fun d hd => ?_
      have hdc : d ≠ c := ne_of_mem_of_not_mem hd hl
      rw [htop]
      unfold pendingFds
      rw [if_neg fun he => hdc (Place.disconnected.inj he).symm]
      exact congrArg (fun fd => [fd]) (Function.update_of_ne hdc _ _)
    have hsplit := hnot.2.2
    rw [List.mem_append, not_or] at hsplit
    have hzero : pendingFds (disconnectedState s c) (.disconnected c) c = [] := if_pos rfl
    unfold View.owned
    dsimp only
    rw [hv, List.flatMap_append, List.flatMap_append, List.flatMap_cons, List.flatMap_cons, hzero,
      hrest l₁ hsplit.1, hrest l₂ hsplit.2, htop,
      flatMap_connectedFds (s := s) (t := disconnectedState s c) fun d hd =>
        ⟨rfl, Function.update_of_ne (hne d hd) _ _⟩]
    refine List.perm_iff_count.2 fun x => ?_
    simp only [List.count_append, List.count_cons, List.count_nil]
    show _ = List.count x (if v.listening then [s.listenerFd] else []) + _ + _
    omega
  have hopen : s.keepAliveTimerFd c ∈ openFds s.log :=
    h.fds.mem_iff.2 (howned.mem_iff.2 List.mem_cons_self)
  have hphase : ∀ d, d ≠ c → phase d (disconnectedState s c).log = phase d s.log := fun d hd => by
    unfold disconnectedState
    simp only [Server.emit_log, phase, if_neg (Ne.symm hd)]
    rfl
  have hphasec : phase c (disconnectedState s c).log = some .notified := by
    have : phase c s.log = some .pending := by
      have := h.slots.pendingPhase c hmem
      rwa [hp, if_neg nofun] at this
    unfold disconnectedState
    simp only [Server.emit_log, phase, if_pos]
    exact if_pos this
  constructor
  case slots =>
    exact {
      lists := h.slots.lists
      all := h.slots.all
      connectedFd := h.slots.connectedFd
      pendingFd := h.slots.pendingFd
      connectedPhase := fun d hd => (hphase d (hne d hd)).trans (h.slots.connectedPhase d hd)
      pendingPhase := fun d hd => by
        by_cases hdc : d = c
        · rw [hdc, if_pos rfl]
          exact hphasec
        · rw [if_neg fun he => hdc (Place.disconnected.inj he).symm, hphase d hdc,
            h.slots.pendingPhase d hd, hp, if_neg nofun]
      freePhase := fun d hd hm => by
        have hdc : d ≠ c := fun he => hm (he ▸ hmem)
        exact (hphase d hdc).trans (h.slots.freePhase d hd hm)
      current := h.slots.current
      currentPlace := fun d hd => by
        have := h.slots.currentPlace d hd
        rw [hp] at this
        exact nomatch this
      message := nofun
      disconnected := fun d hd => Place.disconnected.inj hd ▸ hmem }
  case fds =>
    have := (h.fds.trans howned).erase (s.keepAliveTimerFd c)
    rwa [List.erase_cons_head] at this
  case log => exact ⟨trivial, hopen, Or.inr hopen, h.log⟩
  case buffers => exact h.buffers
  case ends => exact h.ends
  case notEnded => exact h.notEnded
  case sent => exact h.sent
  case output => exact h.output
  case reception =>
    intro hsz
    have hr := h.reception hsz
    refine ⟨fun d hd hb _ => ?_, hr.received, nofun⟩
    have hw := hr.waiting d hd hb (by rw [hp]; exact nofun)
    exact ⟨hw.bytes, hw.left⟩

/-- The client that `on_client_disconnected` was called for is freed, if it can be unlinked. -/
theorem Good.freePendingDisconnectClient (h : Good sz s v) (hp : v.place = .disconnected c)
    (hv : v.pending = l₁ ++ c :: l₂)
    (hu : unlinkable s.clientsMax s.clients s.clients.pendingDisconnectListP c = true) :
    Good sz (freePendingDisconnectClient s c)
      { v with place := .top, free := c :: v.free, pending := l₁ ++ l₂ } := by
  have hmem : c ∈ v.pending := by simp [hv]
  have hlists := h.slots.lists
  have hlen : v.pending.length ≤ s.clientsMax := by
    have := h.slots.all.length_eq
    simp only [List.length_append, List.length_range] at this
    omega
  have hunlink := (unlinkable_iff hlists.pending hlen).1 hu
  rw [hv] at hlists hunlink
  have hnot := hlists.notMem_of_pending
  have hne : ∀ d ∈ l₁ ++ l₂, d ≠ c := fun d hd => ne_of_mem_of_not_mem hd hnot.2.2
  have hin : ∀ d ∈ l₁ ++ l₂, d ∈ v.pending := fun d hd => by
    rw [hv]
    simp only [List.mem_append, List.mem_cons] at hd ⊢
    tauto
  have hphase : ∀ d, d ≠ c → phase d (LinuxServer.freePendingDisconnectClient s c).log =
      phase d s.log := fun d hd => by
    unfold LinuxServer.freePendingDisconnectClient
    simp only [Server.emit_log, Server.setClients_log, phase, if_neg (Ne.symm hd)]
  have hphasec : phase c (LinuxServer.freePendingDisconnectClient s c).log = some .free := by
    have : phase c s.log = some .notified := by
      have := h.slots.pendingPhase c hmem
      rwa [hp, if_pos rfl] at this
    unfold LinuxServer.freePendingDisconnectClient
    simp only [Server.emit_log, Server.setClients_log, phase, if_pos]
    exact if_pos this
  constructor
  case slots =>
    exact {
      lists := hlists.freePendingDisconnectClient hunlink
      all := by
        refine List.Perm.trans ?_ h.slots.all
        rw [hv]
        refine List.perm_iff_count.2 fun x => ?_
        simp only [List.count_append, List.count_cons]
        omega
      connectedFd := h.slots.connectedFd
      pendingFd := fun d hd => h.slots.pendingFd d (hin d hd)
      connectedPhase := fun d hd => (hphase d (ne_of_mem_of_not_mem hd hnot.1)).trans
        (h.slots.connectedPhase d hd)
      pendingPhase := fun d hd => by
        rw [hphase d (hne d hd), h.slots.pendingPhase d (hin d hd), hp,
          if_neg fun he => hne d hd (Place.disconnected.inj he).symm]
        rfl
      freePhase := fun d hd hm => by
        by_cases hdc : d = c
        · rw [hdc]
          exact hphasec
        · refine (hphase d hdc).trans (h.slots.freePhase d hd fun hpend => hm ?_)
          rw [hv] at hpend
          simp only [List.mem_append, List.mem_cons] at hpend ⊢
          tauto
      current := h.slots.current
      currentPlace := fun d hd => by
        have := h.slots.currentPlace d hd
        rw [hp] at this
        exact nomatch this
      message := nofun
      disconnected := nofun }
  case fds =>
    refine h.fds.trans (List.Perm.of_eq ?_)
    have hzero : pendingFds s (.disconnected c) c = [] := if_pos rfl
    have hrest : (l₁ ++ l₂).flatMap (pendingFds s (.disconnected c)) =
        (l₁ ++ l₂).flatMap (pendingFds (LinuxServer.freePendingDisconnectClient s c) .top) := by
      refine List.flatMap_congr fun d hd => ?_
      unfold pendingFds
      rw [if_neg fun he => hne d hd (Place.disconnected.inj he).symm, if_neg nofun]
      rfl
    unfold View.owned
    dsimp only
    rw [← hrest, hv, hp, List.flatMap_append, List.flatMap_append, List.flatMap_cons, hzero]
    rfl
  case log => exact ⟨trivial, hu, h.log⟩
  case buffers => exact h.buffers
  case ends => exact h.ends
  case notEnded => exact h.notEnded
  case sent => exact h.sent
  case output => exact h.output
  case reception =>
    intro hsz
    have hr := h.reception hsz
    refine ⟨fun d hd hb _ => ?_, hr.received, nofun⟩
    have hw := hr.waiting d hd hb (by rw [hp]; exact nofun)
    exact ⟨hw.bytes, hw.left⟩

end

end Messi.LinuxServer
