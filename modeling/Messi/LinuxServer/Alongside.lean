import Messi.LinuxServer.Runs

/-!
# Properties kept alongside the invariant

A property of the states that every step keeps that is taken from a state of the invariant
(`Carried`) holds in every state of a run, up to the first time that a list is unlinked from through
a stale `prev_p` (`Carried.run`). If the user makes only some calls, it is enough that these keep it
(`CarriedBy`, `CarriedBy.run`).
-/

namespace Messi.LinuxServer

open PointerList Framing

/-- The calls that are made in the callbacks are among `A`. -/
structure ProcessEnv.Within (A : Call → Prop) (e : ProcessEnv Call) : Prop where
  accept : ∀ call ∈ e.accept.callback, A call
  reads : ∀ r ∈ e.reads, ∀ call ∈ r.callback, A call
  disconnected : ∀ c, ∀ call ∈ e.disconnected c, A call

/-- A property that is kept by what the server does of itself from a state of the invariant. -/
structure CarriedAlone (sz : ℕ) (K : Server → Prop) : Prop where
  calm : ∀ {s t}, Calm s t → K s → K t
  pong : ∀ {s v c} (e : WriteEnv), Good sz s v → v.busy = none → c ∈ v.connected → K s →
    K (issueMessage s c (messageTypePong, []) e)
  disconnect : ∀ {s v c}, Good sz s v → c ∈ v.connected → K s → K (clientPendingDisconnect s c)
  drain : ∀ {s v c} (ws : List WriteRes) (mod : Bool), Good sz s v → v.busy = none →
    c ∈ v.connected → K s → K (processClientSocketOut s c ws mod)
  accept : ∀ {s v} (e : AcceptEnv Call), Good sz s v → K s → K (acceptClient e s).2
  notify : ∀ {s v c}, Good sz s v → v.place = .top → c ∈ v.pending → K s →
    K (disconnectedState s c)
  free : ∀ {s v c}, Good sz s v → v.place = .disconnected c → c ∈ v.pending →
    unlinkable s.clientsMax s.clients s.clients.pendingDisconnectListP c = true → K s →
      K (freePendingDisconnectClient s c)

/-- It is also kept by the calls among `A`. -/
structure CarriedBy (sz : ℕ) (A : Call → Prop) (K : Server → Prop) : Prop
    extends CarriedAlone sz K where
  within : ∀ {fd events e}, A (.process fd events e) → e.Within A
  call : ∀ {s v} (call : Call), A call → Good sz s v → v.busy = none → K s →
    Exec.Sat K (fun _ => K) (apiCall call s)

/-- It is also kept by whatever is written to a client. -/
structure Carried (sz : ℕ) (K : Server → Prop) : Prop extends CarriedAlone sz K where
  issue : ∀ {s v c} (m : Message) (e : WriteEnv), Good sz s v → v.busy = none →
    c ∈ v.connected ∨ c ∈ v.pending → K s → K (issueMessage s c m e)

section

variable {sz : ℕ} {b ls : Bool} {A : Call → Prop} {K : Server → Prop} {s t : Server} {v : View}
    {c : Slot}
  {cb : Callbacks Call}

/-- What the user's code does in a message callback. -/
def MessageKeeps (sz : ℕ) (A : Call → Prop) (K : Server → Prop) (cb : Callbacks Call) : Prop :=
  ∀ l s v, (∀ call ∈ l, A call) → Good sz s v → v.busy = none → K s →
    Exec.Sat K (fun _ => K) (cb.onMessage l s)

/-! ## Calls -/

theorem CarriedAlone.pendingDisconnect (h : CarriedAlone sz K) (hg : Good sz s v)
    (hc : c ∈ v.connected ∨ c ∈ v.pending) (hk : K s) : K (clientPendingDisconnect s c) := by
  rcases hc with hc | hc
  · exact h.disconnect hg hc hk
  · rw [clientPendingDisconnect_of_pending (hg.slots.pendingFd c hc)]
    exact hk

theorem Carried.serverSend (h : Carried sz K) (enc : Encoder) (e : WriteEnv) (hg : Good sz s v)
    (hb : v.busy = none) (hc : c ∈ v.connected ∨ c ∈ v.pending) (hk : K s) :
    K (serverSend s c enc e) := by
  unfold LinuxServer.serverSend
  cases encodeUserMessage s enc with
  | none => exact hk
  | some m => exact h.issue m e hg hb hc hk

theorem Carried.broadcastLoop (h : Carried sz K) (m : Message) (f : Slot → WriteEnv) {n : ℕ}
    {p : Option Slot} {done rest : List Slot} (hg : Good sz s v) (hb : v.busy = none)
    (hv : v.connected = done ++ rest) (hp : p = rest.head?) (hn : rest.length < n) (hk : K s) :
    K (broadcastLoop m f n p s) := by
  induction n generalizing s v p done rest with
  | zero => exact absurd hn (Nat.not_lt_zero _)
  | succ n ih =>
    cases rest with
    | nil =>
      subst hp
      exact hk
    | cons c rest =>
      subst hp
      have hc : c ∈ v.connected := by simp [hv]
      have hnext : s.clients.nextP c = rest.head? :=
        Links.next_eq (show Links _ _ (done ++ c :: rest) from hv ▸ hg.slots.lists.connected)
      obtain ⟨v', hm, hg'⟩ := issueMessage_good (m := m) (e := f c) hg hb (Or.inl hc)
      obtain ⟨done', hdone'⟩ := hm.rest hv hg.slots.lists.connected.nodup
      exact ih hg' ((hm.shrunk hb).busy.trans hb) hdone' hnext (by simp at hn; omega)
        (h.issue m (f c) hg hb (Or.inl hc) hk)

theorem Carried.apiCall (h : Carried sz K) (hg : Good sz s v) (hb : v.busy = none) (hk : K s)
    (call : Call) : Exec.Sat K (fun _ => K) (apiCall call s) := by
  have hcurrent : ∀ c, s.currentClientP = some c → c ∈ v.connected ∨ c ∈ v.pending := fun c hc =>
    hg.slots.message c (hg.slots.currentPlace c (hg.slots.current ▸ hc))
  cases call with
  | send c enc e =>
    show K (if live s c then LinuxServer.serverSend s c enc e else s)
    split_ifs with hl
    · exact h.serverSend enc e hg hb (mem_of_live hg hl) hk
    · exact hk
  | reply enc e =>
    show K (serverReply s enc e)
    unfold serverReply
    cases hcur : s.currentClientP with
    | none => exact hk
    | some c => exact h.serverSend enc e hg hb (hcurrent c hcur) hk
  | broadcast enc e =>
    show K (serverBroadcast s enc e)
    unfold serverBroadcast
    cases encodeUserMessage s enc with
    | none => exact hk
    | some m =>
      exact h.broadcastLoop m e hg hb (List.nil_append _).symm hg.slots.lists.connected.head
        (Nat.lt_succ_of_le hg.length_le.1) hk
  | disconnect p =>
    show K (if p.all (live s) then serverDisconnect s p else s)
    split_ifs with hl
    · unfold serverDisconnect
      cases p with
      | none =>
        rw [if_pos rfl]
        cases hcur : s.currentClientP with
        | none => exact hk
        | some c => exact h.pendingDisconnect hg (hcurrent c hcur) hk
      | some c => exact h.pendingDisconnect hg (mem_of_live hg hl) hk
    · exact hk
  | process fd events e => exact hk
  | pause => exact hk

theorem Carried.by (h : Carried sz K) : CarriedBy sz (fun _ => True) K where
  toCarriedAlone := h.toCarriedAlone
  within _ := ⟨fun _ _ => trivial, fun _ _ _ _ => trivial, fun _ _ _ => trivial⟩
  call call _ hg hb hk := h.apiCall hg hb hk call

theorem CarriedBy.apiCalls (h : CarriedBy sz A K) (hg : Good sz s v) (hb : v.busy = none)
    (hk : K s) {calls : List Call} (ha : ∀ call ∈ calls, A call) :
    Exec.Sat K (fun _ => K) (Exec.runList LinuxServer.apiCall calls s) := by
  have hrun : Exec.Sat K (fun _ t => GoodAfter sz v t ∧ K t)
      (Exec.runList LinuxServer.apiCall calls s) := by
    refine Exec.Sat.runList_of_mem (fun call hmem t ht => ?_) ⟨hg.goodAfter, hk⟩
    obtain ⟨⟨v', hs, hg'⟩, hk'⟩ := ht
    have hb' := hs.busy.trans hb
    exact ((apiCall_good hg' hb' call).and (h.call call (ha call hmem) hg' hb' hk')).mono
      (fun _ hu => hu.2) fun _ _ hu => ⟨hu.1.trans hs, hu.2⟩
  exact hrun.mono (fun _ ht => ht) fun _ _ ht => ht.2

/-! ## Events -/

theorem CarriedBy.handleMessage (h : CarriedBy sz A K) (hcb : MessageKeeps sz A K cb)
    (e : ReadEnv Call)
    (hr : Reading sz s v c) (hb : v.busy = none) (hc : c ∈ v.connected) (hp : v.place = .top)
    (hcur : v.current = none)
    (hparse : headerSize ≤ sz → parse messi (fits sz) (inputBytes s c) =
      ([((inputBytes s c).take headerSize, (inputBytes s c).drop headerSize)], [])) (hk : K s)
    (ha : ∀ call ∈ e.callback, A call) :
    Exec.Sat K (fun _ => K) (handleMessage cb c e s) := by
  have hg := hr.handleMessage hc hp hcur hparse
  unfold LinuxServer.handleMessage
  dsimp only
  have hmsg : K (s.emit (.handleMessage c ((inputHeader s c).type,
      (inputBytes s c).drop headerSize))) := h.calm (Calm.emit s rfl) hk
  generalize s.emit (.handleMessage c ((inputHeader s c).type,
    (inputBytes s c).drop headerSize)) = t at hg hmsg
  split_ifs
  · unfold handleMessageUser
    split_ifs
    · exact hmsg
    · exact hmsg
    · have hset := hg.setCurrent (p := some c) fun d hd => Option.some.inj hd ▸ rfl
      refine Exec.Sat.bind (hcb e.callback _ _ ha hset hb (h.calm (Calm.setCurrentClientP t _)
        hmsg)) fun _ u hu => h.calm (Calm.setCurrentClientP u _) hu
  · unfold handleMessagePing clientStartKeepAliveTimer
    have hset := hg.emit (e := .settime (t.keepAliveTimerFd c) e.settime) ⟨rfl, rfl, rfl, rfl⟩
      (hg.timer_open hc)
    have hk' : K (t.emit (.settime (t.keepAliveTimerFd c) e.settime)) :=
      h.calm (Calm.emit t rfl) hmsg
    generalize e.settime = ok at hset hk' ⊢
    cases ok with
    | false => exact hk'
    | true => exact h.pong e.pong hset hb hc hk'
  · exact hmsg

theorem CarriedBy.socketInTurn (h : CarriedBy sz A K) (hcb : MessageOk sz cb)
    (hkeep : MessageKeeps sz A K cb) (e : ReadEnv Call) (hg : Good sz s v) (hb : v.busy = none)
    (hc : c ∈ v.connected ∨ c ∈ v.pending) (hp : v.place = .top) (hcur : v.current = none)
    (hk : K s) (ha : ∀ call ∈ e.callback, A call) :
    Exec.Sat K (fun _ => K) (socketInTurn cb c e s) := by
  have hread : K (readBytes s c []) := h.calm (Calm.readBytes s c []) hk
  have hturn := socketInTurn_turn cb e hg hb hc hp
  generalize LinuxServer.socketInTurn cb c e s = x at hturn
  cases hturn with
  | blocked => exact hread
  | closed => exact h.pendingDisconnect (hg.readBytes_nil hb hp hc) hc hread
  | wait t hq _ => exact h.calm hq hk
  | tooBig t hq hr hmem _ => exact h.disconnect hr.good hmem (h.calm hq hk)
  | message t hq hr hmem hparse =>
    have hgood := handleMessage_good hcb e hr hb hmem hp hcur hparse
    have hkeeps := h.handleMessage hkeep e hr hb hmem hp hcur hparse (h.calm hq hk) ha
    refine Exec.Sat.bind ((hgood.and hkeeps).mono (fun _ hu => hu.2) fun _ _ hu => hu)
      fun res u hu => ?_
    obtain ⟨⟨v', hs, hg'⟩, hk'⟩ := hu
    cases res with
    | true => exact h.calm (Calm.clientResetInput u c) hk'
    | false =>
      exact h.calm (Calm.emit _ rfl) (h.pendingDisconnect hg' (hg'.slots.message c hs.place) hk')

theorem CarriedBy.processClientSocketIn (h : CarriedBy sz A K) (hcb : MessageOk sz cb)
    (hkeep : MessageKeeps sz A K cb) (es : List (ReadEnv Call)) (hg : Good sz s v)
    (hb : v.busy = none) (hc : c ∈ v.connected ∨ c ∈ v.pending) (hp : v.place = .top)
    (hcur : v.current = none) (hk : K s) (ha : ∀ r ∈ es, ∀ call ∈ r.callback, A call) :
    Exec.Sat K (fun _ => K) (processClientSocketIn cb c es s) := by
  induction es generalizing s v with
  | nil => exact h.calm (Calm.readBytes s c []) hk
  | cons e es ih =>
    rw [processClientSocketIn_cons]
    have hgood := socketInTurn_good hcb e hg hb hc hp hcur
    have hkeeps := h.socketInTurn hcb hkeep e hg hb hc hp hcur hk (ha e List.mem_cons_self)
    refine Exec.Sat.bind ((hgood.and hkeeps).mono (fun _ hu => hu.2) fun _ _ hu => hu)
      fun again t ht => ?_
    cases again with
    | false => exact ht.2
    | true =>
      obtain ⟨⟨v', hs, hmem, hg'⟩, hk'⟩ := ht
      exact ih hg' (hs.busy.trans hb) hmem (hs.place.trans hp) (hs.current.trans hcur) hk'
        fun r hr => ha r (List.mem_cons_of_mem e hr)

theorem CarriedBy.processClientSocket (h : CarriedBy sz A K) (hcb : MessageOk sz cb)
    (hkeep : MessageKeeps sz A K cb) (events : Events) (e : ProcessEnv Call) (hg : Good sz s v)
    (hb : v.busy = none) (hc : c ∈ v.connected) (hp : v.place = .top) (hcur : v.current = none)
    (hk : K s) (ha : e.Within A) :
    Exec.Sat K (fun _ => K) (processClientSocket cb c events e s) := by
  have hout : ∃ v', Moved c v v' ∧
      Good sz (if events.epollOut then processClientSocketOut s c e.writes e.mod else s) v' ∧
        K (if events.epollOut then processClientSocketOut s c e.writes e.mod else s) := by
    cases events.epollOut with
    | false => exact ⟨v, .same, hg, hk⟩
    | true =>
      obtain ⟨v', hm, hg'⟩ := processClientSocketOut_good e.writes e.mod hg hb hc
      exact ⟨v', hm, hg', h.drain e.writes e.mod hg hb hc hk⟩
  obtain ⟨v', hm, hg', hk'⟩ := hout
  have hs := hm.shrunk hb
  have hc' : c ∈ v'.connected ∨ c ∈ v'.pending := by
    cases hm with
    | same => exact Or.inl hc
    | moved l₁ l₂ hl => exact Or.inr List.mem_cons_self
  unfold LinuxServer.processClientSocket
  dsimp only
  generalize (if events.epollOut then processClientSocketOut s c e.writes e.mod else s) =
    t at hg' hk'
  split_ifs
  · exact h.processClientSocketIn hcb hkeep e.reads hg' (hs.busy.trans hb) hc' (hs.place.trans hp)
      (hs.current.trans hcur) hk' ha.reads
  · exact hk'

theorem CarriedBy.processClients (h : CarriedBy sz A K) (hcb : MessageOk sz cb)
    (hkeep : MessageKeeps sz A K cb) (fd : ℤ) (events : Events) (e : ProcessEnv Call) {n : ℕ}
    {p : Option Slot} {l₁ l₂ : List Slot} (hg : Good sz s v) (hb : v.busy = none)
    (hp : v.place = .top) (hcur : v.current = none) (hv : v.connected = l₁ ++ l₂)
    (hl : p = l₂.head?) (hn : l₂.length < n) (hk : K s) (ha : e.Within A) :
    Exec.Sat K (fun _ => K) (processClients cb fd events e n p s) := by
  induction n generalizing p l₁ l₂ with
  | zero => exact absurd hn (Nat.not_lt_zero _)
  | succ n ih =>
    cases l₂ with
    | nil =>
      subst hl
      exact hk
    | cons c l₂ =>
      subst hl
      have hc : c ∈ v.connected := by simp [hv]
      have hnext : s.clients.nextP c = l₂.head? :=
        Links.next_eq (show Links _ _ (l₁ ++ c :: l₂) from hv ▸ hg.slots.lists.connected)
      rw [List.head?_cons, LinuxServer.processClients]
      split_ifs
      · exact h.processClientSocket hcb hkeep events e hg hb hc hp hcur hk ha
      · exact h.disconnect hg hc hk
      · exact ih (show v.connected = (l₁ ++ [c]) ++ l₂ by rw [hv]; simp) hnext
          (by simp at hn; omega)

/-! ## Runs -/

/-- The property holds, if no list has been unlinked from badly. -/
def Sound (b : Bool) (K : Server → Prop) (s : Server) : Prop :=
  (b = true ∧ BadUnlink s.log) ∨ K s

/-- What the user's code does in the callbacks keeps the property. -/
structure CallbacksKeep (sz : ℕ) (b ls : Bool) (A : Call → Prop) (K : Server → Prop)
    (cb : Callbacks Call) : Prop where
  message : MessageKeeps sz A K cb
  connected : ∀ l s, (∀ call ∈ l, A call) → Fine sz b ls s → Sound b K s →
    Exec.Sat (Sound b K) (fun _ => Sound b K) (cb.onClientConnected l s)
  disconnected : ∀ l s v, (∀ call ∈ l, A call) → Good sz s v → v.busy = none → K s →
    Exec.Sat K (fun _ => K) (cb.onClientDisconnected l s)

theorem bad_sound {ρ : Type*} {x : Exec Server ρ} (hb : b = true) (hbad : BadUnlink s.log)
    (hx : Exec.Sat (Grows s) (fun _ => Grows s) x) :
    Exec.Sat (Sound b K) (fun _ => Sound b K) x :=
  hx.mono (fun _ ht => Or.inl ⟨hb, hbad.suffix ht.1⟩) fun _ _ ht => Or.inl ⟨hb, hbad.suffix ht.1⟩

theorem CarriedBy.destroyClients (h : CarriedBy sz A K) (hcb : CallbacksOk sz b ls cb)
    (hkeep : CallbacksKeep sz b ls A K cb) (e : Slot → List Call) {n : ℕ} {p : Option Slot}
    {new rest : List Slot} (hg : Good sz s v) (hi : Idle ls v) (hv : v.pending = new ++ rest)
    (hnew : b = false → new = []) (hp : p = rest.head?) (hn : rest.length < n) (hk : K s)
    (ha : ∀ c, ∀ call ∈ e c, A call) :
    Exec.Sat (Sound b K) (fun _ => Sound b K) (destroyClients cb e n p s) := by
  induction n generalizing s v p new rest with
  | zero => exact absurd hn (Nat.not_lt_zero _)
  | succ n ih =>
    cases rest with
    | nil =>
      subst hp
      exact Or.inr hk
    | cons c rest =>
      subst hp
      have hdis := hg.onClientDisconnected hi.place hv
      have hpending : c ∈ v.pending := by simp [hv]
      have hnotify := h.notify hg hi.place hpending hk
      refine Exec.Sat.bind (((hcb.disconnected (e c) _ _ hdis hi.busy).and
        (hkeep.disconnected (e c) _ _ (ha c) hdis hi.busy hnotify)).mono (fun _ ht => Or.inr ht.2)
          fun _ _ ht => ht) fun _ t ht => ?_
      obtain ⟨⟨v', hs, hg', hsame⟩, hk'⟩ := ht
      obtain ⟨hnext, hmem, hbad | ⟨hu, u, new', hiu, hvu, hnew', hgu⟩⟩ :=
        hg'.destroy hi hs hv hnew hsame
      · exact bad_sound hbad.1 hbad.2 (destroyClients_grows hcb.grow e n _ _)
      · have hlen : rest.length < n := by
          rw [List.length_cons] at hn
          omega
        exact ih hgu hiu hvu hnew' hnext hlen (h.free hg' hs.place hmem hu hk')

theorem CarriedBy.serverEvent (h : CarriedBy sz A K) (hcb : CallbacksOk sz b ls cb)
    (hkeep : CallbacksKeep sz b ls A K cb) (fd : ℤ) (events : Events) (e : ProcessEnv Call)
    (hg : Good sz s v) (hi : Idle ls v) (hk : K s) (ha : e.Within A) :
    Exec.Sat (Sound b K) (fun _ => Sound b K) (serverEvent cb fd events e s) := by
  unfold LinuxServer.serverEvent
  split_ifs
  · have haccept := acceptClient_good e.accept hg
    have hk' := h.accept e.accept hg hk
    rw [processListener_eq]
    generalize acceptClient e.accept s = r at haccept hk'
    obtain ⟨p, t⟩ := r
    cases p with
    | none => exact Or.inr hk'
    | some c =>
      obtain ⟨fl, -, -, hg'⟩ := haccept
      exact hkeep.connected _ _ ha.accept
        (hg'.fine ⟨hi.place, hi.current, hi.busy, hi.listening, hi.fds⟩) (Or.inr hk')
  · exact (h.processClients hcb.message hkeep.message fd events e hg hi.busy hi.place hi.current
      (List.nil_append _).symm hg.slots.lists.connected.head
      (Nat.lt_succ_of_le hg.length_le.1) hk ha).mono (fun _ ht => Or.inr ht) fun _ _ ht => Or.inr ht

theorem CarriedBy.serverProcess (h : CarriedBy sz A K) (hcb : CallbacksOk sz b ls cb)
    (hkeep : CallbacksKeep sz b ls A K cb) (fd : ℤ) (events : Events) (e : ProcessEnv Call)
    (hf : Fine sz b ls s) (hk : Sound b K s) (ha : e.Within A) :
    Exec.Sat (Sound b K) (fun _ => Sound b K) (serverProcess cb fd events e s) := by
  rcases hk with ⟨hb, hbad⟩ | hk
  · exact bad_sound hb hbad (serverProcess_grows hcb.grow fd events e s)
  rcases hf with ⟨hb, hbad⟩ | ⟨v, hi, hg⟩
  · exact bad_sound hb hbad (serverProcess_grows hcb.grow fd events e s)
  have hevent := (serverEvent_fine hcb fd events e hg hi).and
    (h.serverEvent hcb hkeep fd events e hg hi hk ha)
  refine Exec.Sat.bind (hevent.mono (fun _ ht => ht.2) fun _ _ ht => ht) fun _ t ht => ?_
  rcases ht.1 with ⟨hb, hbad⟩ | ⟨u, hiu, hgu⟩
  · exact bad_sound hb hbad (destroyClients_grows hcb.grow _ _ _ _)
  rcases ht.2 with ⟨hb, hbad⟩ | hk'
  · exact bad_sound hb hbad (destroyClients_grows hcb.grow _ _ _ _)
  exact h.destroyClients hcb hkeep e.disconnected hgu hiu (List.nil_append _).symm (fun _ => rfl)
    hgu.slots.lists.pending.head (Nat.lt_succ_of_le hgu.length_le.2) hk' ha.disconnected

theorem CarriedBy.soundCall (h : CarriedBy sz A K) (call : Call) (ha : A call)
    (hf : Fine sz b ls s) (hk : Sound b K s) :
    Exec.Sat (Sound b K) (fun _ => Sound b K) (LinuxServer.apiCall call s) := by
  rcases hk with ⟨hb, hbad⟩ | hk
  · exact bad_sound hb hbad (apiCall_grows call s)
  rcases hf with ⟨hb, hbad⟩ | ⟨v, hi, hg⟩
  · exact bad_sound hb hbad (apiCall_grows call s)
  exact (h.call call ha hg hi.busy hk).mono (fun _ ht => Or.inr ht) fun _ _ ht => Or.inr ht

theorem CarriedBy.callWith (h : CarriedBy sz A K) (hcb : CallbacksOk sz b ls cb)
    (hkeep : CallbacksKeep sz b ls A K cb) (call : Call) (ha : A call) (hf : Fine sz b ls s)
    (hk : Sound b K s) :
    Exec.Sat (Sound b K) (fun _ => Sound b K) (callWith cb call s) := by
  cases call with
  | process fd events e => exact h.serverProcess hcb hkeep fd events e hf hk (h.within ha)
  | send c enc e => exact h.soundCall (.send c enc e) ha hf hk
  | reply enc e => exact h.soundCall (.reply enc e) ha hf hk
  | broadcast enc e => exact h.soundCall (.broadcast enc e) ha hf hk
  | disconnect p => exact h.soundCall (.disconnect p) ha hf hk
  | pause => exact h.soundCall .pause ha hf hk

/-- A list of calls keeps the property if each of them keeps it, and the invariant. -/
theorem sound_runList {f : Call → Server → Exec Server Unit} {calls : List Call}
    (hfine : ∀ call t, Fine sz b ls t →
      Exec.Sat (FineInside sz b) (fun _ => Fine sz b ls) (f call t))
    (hkeep : ∀ call ∈ calls, ∀ t, Fine sz b ls t → Sound b K t →
      Exec.Sat (Sound b K) (fun _ => Sound b K) (f call t))
    (hf : Fine sz b ls s) (hk : Sound b K s) :
    Exec.Sat (Sound b K) (fun _ => Sound b K) (Exec.runList f calls s) := by
  have hrun : Exec.Sat (Sound b K) (fun _ t => Fine sz b ls t ∧ Sound b K t)
      (Exec.runList f calls s) := by
    refine Exec.Sat.runList_of_mem (fun call hmem t ht => ?_) ⟨hf, hk⟩
    exact ((hfine call t ht.1).and (hkeep call hmem t ht.1 ht.2)).mono (fun _ hu => hu.2)
      fun _ _ hu => hu
  exact hrun.mono (fun _ ht => ht) fun _ _ ht => ht.2

theorem CarriedBy.callbacks (h : CarriedBy sz A K) (d : Discipline)
    (hd : d.processInMessage = false) (n : ℕ) :
    CallbacksKeep sz d.callInDisconnected ls A K (callbacks d n) := by
  have hmsg : ∀ l s v, (∀ call ∈ l, A call) → Good sz s v → v.busy = none → K s →
      Exec.Sat K (fun _ => K) (Exec.runList LinuxServer.apiCall l s) :=
    fun l s v ha hg hb hk => h.apiCalls hg hb hk ha
  have hdis : ∀ l s v, (∀ call ∈ l, A call) → Good sz s v → v.busy = none → K s →
      Exec.Sat K (fun _ => K)
        (Exec.runList (if d.callInDisconnected then LinuxServer.apiCall else noCall) l s) := by
    intro l s v ha hg hb hk
    cases d.callInDisconnected with
    | true => exact h.apiCalls hg hb hk ha
    | false =>
      refine Exec.Sat.runList (fun call t ht => ?_) l hk
      cases call <;> exact ht
  induction n with
  | zero =>
    exact ⟨hmsg, fun l s ha => sound_runList (fun call t ht => apiCall_fine ht call)
      (fun call hmem t => h.soundCall call (ha call hmem)), hdis⟩
  | succ n ih =>
    refine ⟨fun l s v ha hg hb hk => ?_, fun l s ha => sound_runList
      (fun call t ht => callWith_fine (callbacks_ok d hd n) ht call)
      (fun call hmem t => h.callWith (callbacks_ok d hd n) ih call (ha call hmem)), hdis⟩
    show Exec.Sat _ _ ((if d.processInMessage then
      Exec.runList (LinuxServer.callWith (LinuxServer.callbacks d n)) else
      Exec.runList LinuxServer.apiCall) l s)
    rw [hd]
    exact hmsg l s v ha hg hb hk

/-- What every step keeps, every run of the calls among `A` keeps. -/
theorem CarriedBy.run (h : CarriedBy sz A K) (d : Discipline) (hd : d.processInMessage = false)
    (n : ℕ) {calls : List Call} (ha : ∀ call ∈ calls, A call)
    (hf : Fine sz d.callInDisconnected ls s) (hk : Sound d.callInDisconnected K s) :
    Exec.Sat (Sound d.callInDisconnected K) (fun _ => Sound d.callInDisconnected K)
      (run d n calls s) :=
  sound_runList (fun call _ ht => callWith_fine (callbacks_ok d hd n) ht call)
    (fun call hmem _ => h.callWith (callbacks_ok d hd n) (h.callbacks d hd n) call (ha call hmem))
    hf hk

/-- What every step keeps, every run keeps. -/
theorem Carried.run (h : Carried sz K) (d : Discipline) (hd : d.processInMessage = false) (n : ℕ)
    (calls : List Call) (hf : Fine sz d.callInDisconnected ls s)
    (hk : Sound d.callInDisconnected K s) :
    Exec.Sat (Sound d.callInDisconnected K) (fun _ => Sound d.callInDisconnected K)
      (run d n calls s) :=
  h.by.run d hd n (fun _ _ => trivial) hf hk

end

end Messi.LinuxServer
