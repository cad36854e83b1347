import Messi.LinuxServer.Accepting
import Messi.LinuxServer.Growth
import Messi.LinuxServer.Receiving

/-!
# Runs of the server

`NAME_server_process()` keeps the invariant if the callbacks do (`serverProcess_fine`), the
callbacks keep it if the calls made in them do, and so every run keeps it (`run_fine`), in every
state between two calls (`Fine`) and inside the callbacks (`FineInside`). Where the user makes
calls in `on_client_disconnected`, this holds up to the first time that a list is unlinked from
through a stale `prev_p`.
-/

namespace Messi.LinuxServer

open PointerList

/-- Nothing is going on, and the listener is the only descriptor that belongs to no client. -/
structure Idle (listening : Bool) (v : View) : Prop where
  place : v.place = .top
  current : v.current = none
  busy : v.busy = none
  listening : v.listening = listening
  fds : v.fds = []

/-- Between two calls the state stands for an idle view, if no list has been unlinked from
badly. That can happen only if `b`. -/
def Fine (sz : ℕ) (b ls : Bool) (s : Server) : Prop :=
  (b = true ∧ BadUnlink s.log) ∨ ∃ v, Idle ls v ∧ Good sz s v

/-- Inside a callback the state stands for some view, if no list has been unlinked from badly. -/
def FineInside (sz : ℕ) (b : Bool) (s : Server) : Prop :=
  (b = true ∧ BadUnlink s.log) ∨ Observed sz s

/-- What the user's code does in the callbacks. -/
structure CallbacksOk {α : Type*} (sz : ℕ) (b ls : Bool) (cb : Callbacks α) : Prop where
  grow : CallbacksIn Grows cb
  message : MessageOk sz cb
  connected : ∀ l s, Fine sz b ls s →
    Exec.Sat (FineInside sz b) (fun _ => Fine sz b ls) (cb.onClientConnected l s)
  disconnected : ∀ (l : List α) (s : Server) (v : View), Good sz s v → v.busy = none →
    Exec.Sat (Observed sz) (fun _ t => ∃ v', Shrunk v v' ∧ Good sz t v' ∧
      (b = false → v'.pending = v.pending)) (cb.onClientDisconnected l s)

section

variable {sz : ℕ} {b ls : Bool} {s s' : Server} {v v' : View} {c : Slot}

theorem Fine.inside (h : Fine sz b ls s) : FineInside sz b s := by
  rcases h with h | ⟨v, hi, hg⟩
  · exact Or.inl h
  · exact Or.inr ⟨v, hi.busy, hg⟩

theorem Good.fine (h : Good sz s v) (hi : Idle ls v) : Fine sz b ls s := Or.inr ⟨v, hi, h⟩

theorem Idle.shrunk (h : Idle ls v) (hs : Shrunk v v') : Idle ls v' :=
  ⟨hs.place.trans h.place, hs.current.trans h.current, hs.busy.trans h.busy,
    hs.listening.trans h.listening, hs.fds.trans h.fds⟩

theorem GoodAfter.fine (h : GoodAfter sz v s) (hi : Idle ls v) : Fine sz b ls s := by
  obtain ⟨v', hs, hg⟩ := h
  exact hg.fine (hi.shrunk hs)

/-- Nothing is promised any more. -/
theorem bad_sat {ρ : Type*} {x : Exec Server ρ} (hb : b = true) (hbad : BadUnlink s.log)
    (hx : Exec.Sat (Grows s) (fun _ => Grows s) x) :
    Exec.Sat (FineInside sz b) (fun _ => Fine sz b ls) x :=
  hx.mono (fun _ ht => Or.inl ⟨hb, hbad.suffix ht.1⟩) fun _ _ ht => Or.inl ⟨hb, hbad.suffix ht.1⟩

variable {α : Type*} {cb : Callbacks α}

/-- When `on_client_disconnected` has returned, the client is freed, and those behind it in the
pending list are left, unless it is unlinked badly. -/
theorem Good.destroy {new rest : List Slot} (h : Good sz s v') (hi : Idle ls v)
    (hs : Shrunk { v with place := .disconnected c } v') (hv : v.pending = new ++ c :: rest)
    (hnew : b = false → new = []) (hsame : b = false → v'.pending = v.pending) :
    s.clients.nextP c = rest.head? ∧ c ∈ v'.pending ∧
      ((b = true ∧ BadUnlink (LinuxServer.freePendingDisconnectClient s c).log) ∨
        unlinkable s.clientsMax s.clients s.clients.pendingDisconnectListP c = true ∧
          ∃ u new', Idle ls u ∧ u.pending = new' ++ rest ∧ (b = false → new' = []) ∧
            Good sz (LinuxServer.freePendingDisconnectClient s c) u) := by
  obtain ⟨more, hmore⟩ := hs.pending
  have hv' : v'.pending = (more ++ new) ++ c :: rest := by
    rw [hmore, List.append_assoc, ← hv]
  have hpending := h.slots.lists.pending
  rw [hv'] at hpending
  have hempty : b = false → more ++ new = [] := fun hb => by
    have := hsame hb
    rw [hmore] at this
    have hm : more = [] := by simpa using this
    rw [hm, hnew hb]
    rfl
  refine ⟨hpending.next_eq, by simp [hv'], ?_⟩
  cases hu : unlinkable s.clientsMax s.clients s.clients.pendingDisconnectListP c with
  | true =>
    refine Or.inr ⟨rfl, _, more ++ new, ?_, rfl, hempty,
      h.freePendingDisconnectClient hs.place hv' hu⟩
    exact ⟨rfl, hs.current.trans hi.current, hs.busy.trans hi.busy, hs.listening.trans hi.listening,
      hs.fds.trans hi.fds⟩
  | false =>
    cases b with
    | false =>
      -- without calls in the callback the client is at the head of the list
      rw [hempty rfl, List.nil_append] at hpending
      rw [unlinkable, hpending.1] at hu
      simp at hu
    | true =>
      refine Or.inl ⟨rfl, c, ?_⟩
      show _ ∈ Event.slotFreed c :: Event.unlinked c _ :: s.log
      rw [hu]
      simp

/-- The pending clients are destroyed one by one; `rest` are those that were pending when the
loop was entered and are left, behind those that have become pending since. -/
theorem destroyClients_fine (hcb : CallbacksOk sz b ls cb) (e : Slot → List α) {n : ℕ}
    {p : Option Slot} {new rest : List Slot} (h : Good sz s v) (hi : Idle ls v)
    (hv : v.pending = new ++ rest) (hnew : b = false → new = []) (hp : p = rest.head?)
    (hn : rest.length < n) :
    Exec.Sat (FineInside sz b) (fun _ => Fine sz b ls) (destroyClients cb e n p s) := by
  induction n generalizing s v p new rest with
  | zero => exact absurd hn (Nat.not_lt_zero _)
  | succ n ih =>
    cases rest with
    | nil =>
      subst hp
      exact h.fine hi
    | cons c rest =>
      subst hp
      have hdis := h.onClientDisconnected hi.place hv
      refine Exec.Sat.bind ((hcb.disconnected (e c) _ _ hdis hi.busy).mono
        (fun _ ht => Or.inr ht) fun _ _ ht => ht) fun _ t ht => ?_
      obtain ⟨v', hs, hg, hsame⟩ := ht
      obtain ⟨hnext, -, hbad | ⟨-, u, new', hiu, hvu, hnew', hgu⟩⟩ :=
        hg.destroy hi hs hv hnew hsame
      · exact bad_sat hbad.1 hbad.2 (destroyClients_grows hcb.grow e n _ _)
      · exact ih hgu hiu hvu hnew' hnext (by simp at hn; omega)

theorem processListener_fine (hcb : CallbacksOk sz b ls cb) (e : AcceptEnv α) (h : Good sz s v)
    (hi : Idle ls v) :
    Exec.Sat (FineInside sz b) (fun _ => Fine sz b ls) (processListener cb e s) := by
  have haccept := acceptClient_good e h
  rw [processListener_eq]
  generalize acceptClient e s = r at haccept
  obtain ⟨p, t⟩ := r
  cases p with
  | none => exact haccept.1.fine hi
  | some c =>
    obtain ⟨fl, -, -, hg⟩ := haccept
    exact hcb.connected _ _ (hg.fine ⟨hi.place, hi.current, hi.busy, hi.listening, hi.fds⟩)

theorem Good.length_le (h : Good sz s v) :
    v.connected.length ≤ s.clientsMax ∧ v.pending.length ≤ s.clientsMax := by
  have := h.slots.all.length_eq
  simp only [List.length_append, List.length_range] at this
  omega

/-- What `NAME_server_process()` does before it destroys the pending clients. -/
def serverEvent (cb : Callbacks α) (fd : ℤ) (events : Events) (e : ProcessEnv α) (s : Server) :
    Exec Server Unit :=
  if fd = s.listenerFd then processListener cb e.accept s
  else processClients cb fd events e (s.clientsMax + 1) s.clients.connectedListP s

theorem serverEvent_fine (hcb : CallbacksOk sz b ls cb) (fd : ℤ) (events : Events)
    (e : ProcessEnv α) (hg : Good sz s v) (hi : Idle ls v) :
    Exec.Sat (FineInside sz b) (fun _ => Fine sz b ls) (serverEvent cb fd events e s) := by
  unfold serverEvent
  by_cases hl : fd = s.listenerFd
  · rw [if_pos hl]
    exact processListener_fine hcb e.accept hg hi
  · rw [if_neg hl]
    exact (processClients_good hcb.message fd events e hg hi.busy hi.place hi.current
      (List.nil_append _).symm hg.slots.lists.connected.head
      (Nat.lt_succ_of_le hg.length_le.1)).mono (fun _ ht => Or.inr ht) fun _ _ ht => ht.fine hi

theorem serverProcess_fine (hcb : CallbacksOk sz b ls cb) (fd : ℤ) (events : Events)
    (e : ProcessEnv α) (h : Fine sz b ls s) :
    Exec.Sat (FineInside sz b) (fun _ => Fine sz b ls) (serverProcess cb fd events e s) := by
  rcases h with ⟨hb, hbad⟩ | ⟨v, hi, hg⟩
  · exact bad_sat hb hbad (serverProcess_grows hcb.grow fd events e s)
  refine Exec.Sat.bind (serverEvent_fine hcb fd events e hg hi) fun _ t ht => ?_
  rcases ht with ⟨hb, hbad⟩ | ⟨u, hiu, hgu⟩
  · exact bad_sat hb hbad (destroyClients_grows hcb.grow _ _ _ _)
  · exact destroyClients_fine hcb e.disconnected hgu hiu (List.nil_append _).symm (fun _ => rfl)
      hgu.slots.lists.pending.head (Nat.lt_succ_of_le hgu.length_le.2)

/-! ## The user -/

theorem apiCall_fine (h : Fine sz b ls s) (call : Call) :
    Exec.Sat (FineInside sz b) (fun _ => Fine sz b ls) (apiCall call s) := by
  rcases h with ⟨hb, hbad⟩ | ⟨v, hi, hg⟩
  · exact bad_sat hb hbad (apiCall_grows call s)
  · exact (apiCall_good hg hi.busy call).mono (fun _ ht => Or.inr (ht.observed hi.busy))
      fun _ _ ht => ht.fine hi

theorem callWith_fine {cb : Callbacks Call} (hcb : CallbacksOk sz b ls cb) (h : Fine sz b ls s)
    (call : Call) :
    Exec.Sat (FineInside sz b) (fun _ => Fine sz b ls) (callWith cb call s) := by
  cases call with
  | process fd events e => exact serverProcess_fine hcb fd events e h
  | send c enc e => exact apiCall_fine h (.send c enc e)
  | reply enc e => exact apiCall_fine h (.reply enc e)
  | broadcast enc e => exact apiCall_fine h (.broadcast enc e)
  | disconnect p => exact apiCall_fine h (.disconnect p)
  | pause => exact apiCall_fine h .pause

theorem noCalls_good (h : Good sz s v) (hb : v.busy = none) (calls : List Call) :
    Exec.Sat (Observed sz) (fun _ t => t = s) (Exec.runList noCall calls s) := by
  refine Exec.Sat.runList (fun call t ht => ?_) calls rfl
  subst ht
  cases call with
  | pause => exact ⟨v, hb, h⟩
  | _ => rfl

theorem callbacks_ok (d : Discipline) (hd : d.processInMessage = false) (n : ℕ) :
    CallbacksOk sz d.callInDisconnected ls (callbacks d n) := by
  have hmsg : ∀ l s v, Good sz s v → v.busy = none →
      Exec.Sat (GoodAfter sz v) (fun _ => GoodAfter sz v) (Exec.runList apiCall l s) :=
    fun l s v h hb => apiCalls_good h hb l
  have hdis : ∀ l s v, Good sz s v → v.busy = none →
      Exec.Sat (Observed sz) (fun _ t => ∃ v', Shrunk v v' ∧ Good sz t v' ∧
        (d.callInDisconnected = false → v'.pending = v.pending))
        (Exec.runList (if d.callInDisconnected then apiCall else noCall) l s) :=
          fun l s v h hb => by
    cases d.callInDisconnected with
    | true =>
      exact (apiCalls_good h hb l).mono (fun _ ht => ht.observed hb) fun _ t ht => by
        obtain ⟨v', hs, hg⟩ := ht
        exact ⟨v', hs, hg, nofun⟩
    | false =>
      exact (noCalls_good h hb l).mono (fun _ ht => ht) fun _ t ht =>
        ⟨v, Shrunk.refl v, ht ▸ h, fun _ => rfl⟩
  induction n with
  | zero =>
    exact ⟨callbacks_grow d 0, hmsg, fun l s h =>
      Exec.Sat.runList (fun call t ht => apiCall_fine ht call) l h, hdis⟩
  | succ n ih =>
    refine ⟨callbacks_grow d (n + 1), fun l s v h hb => ?_, fun l s h =>
      Exec.Sat.runList (fun call t ht => callWith_fine ih ht call) l h, hdis⟩
    show Exec.Sat _ _ ((if d.processInMessage then Exec.runList (callWith (callbacks d n)) else
      Exec.runList apiCall) l s)
    rw [hd]
    exact hmsg l s v h hb

/-- Every run keeps the invariant. -/
theorem run_fine (d : Discipline) (hd : d.processInMessage = false) (n : ℕ) (calls : List Call)
    (h : Fine sz d.callInDisconnected ls s) :
    Exec.Sat (FineInside sz d.callInDisconnected) (fun _ => Fine sz d.callInDisconnected ls)
      (run d n calls s) :=
  Exec.Sat.runList (fun call _ ht => callWith_fine (callbacks_ok d hd n) ht call) calls h

/-! ## The start of a run -/

theorem links_range' {f : Slot → Option Slot} {n : ℕ} (hnext : ∀ i, i + 1 < n → f i = some (i + 1))
    (hlast : f (n - 1) = none) (m k : ℕ) (hk : k + (m + 1) = n) :
    Links f (some k) (List.range' k (m + 1)) := by
  induction m generalizing k with
  | zero =>
    refine ⟨rfl, ?_⟩
    rw [show k = n - 1 by omega]
    exact hlast
  | succ m ih =>
    refine ⟨rfl, ?_⟩
    rw [hnext k (by omega)]
    exact ih (k + 1) (by omega)

/-- After `NAME_server_init()` every slot is free. -/
theorem serverInit_good (m : Server) (sz messageSize : ℕ) {n : ℕ} (hn : 0 < n) :
    ∃ v, Idle false v ∧ Good sz (serverInit m n sz messageSize) v := by
  refine ⟨⟨[], List.range n, [], .top, none, none, false, []⟩, ⟨rfl, rfl, rfl, rfl, rfl⟩, ?_⟩
  constructor
  case slots =>
    exact {
      lists := by
        refine ⟨rfl, ?_, rfl, List.isChain_nil, by simpa using List.nodup_range⟩
        have hlinks := links_range' (n := n) (f := (serverInit m n sz messageSize).clients.nextP)
          (fun i hi => if_pos (show i < n - 1 by omega))
            ((if_neg (Nat.lt_irrefl _)).trans (if_pos rfl)) (n - 1) 0
          (by omega)
        rwa [Nat.sub_add_cancel hn, ← List.range_eq_range'] at hlinks
      all := by simp [serverInit]
      connectedFd := nofun
      pendingFd := nofun
      connectedPhase := nofun
      pendingPhase := nofun
      freePhase := fun _ _ _ => rfl
      current := rfl
      currentPlace := nofun
      message := nofun
      disconnected := nofun }
  case fds => exact List.Perm.refl _
  case log => trivial
  case buffers =>
    intro c hc
    have hle : c ≤ n - 1 := by
      have : c < n := hc
      omega
    show (if c ≤ n - 1 then _ else _ : Input).bufP = _ ∧
      (if c ≤ n - 1 then _ else _ : Input).dataSize = _
    rw [if_pos hle]
    exact ⟨rfl, rfl⟩
  case ends => exact nofun
  case notEnded => exact nofun
  case sent => exact fun c _ => List.prefix_rfl
  case output => exact nofun
  case reception => exact fun _ => ⟨nofun, fun _ _ => rfl, nofun⟩

/-- Whose the listener is does not matter to the clients. -/
theorem Good.setListener {fd : ℤ} {fds : List ℤ} (h : Good sz s v)
    (hfds : (v.owned s).Perm (View.owned { v with listening := ls, fds := fds }
      { s with listenerFd := fd })) :
    Good sz { s with listenerFd := fd } { v with listening := ls, fds := fds } where
  slots := ⟨h.slots.lists, h.slots.all, h.slots.connectedFd, h.slots.pendingFd,
    h.slots.connectedPhase, h.slots.pendingPhase, h.slots.freePhase, h.slots.current,
    h.slots.currentPlace, h.slots.message, h.slots.disconnected⟩
  fds := h.fds.trans hfds
  log := h.log
  buffers := h.buffers
  ends := h.ends
  notEnded := h.notEnded
  sent := h.sent
  output := h.output
  reception hsz :=
    have hr := h.reception hsz
    ⟨fun c hc hb hp => ⟨(hr.waiting c hc hb hp).bytes, (hr.waiting c hc hb hp).left⟩,
      hr.received, hr.message⟩

/-- `NAME_server_start()` leaves a listener, or nothing. -/
theorem serverStart_fine (h : Fine sz b false s) (e : StartEnv) :
    Fine sz b ((serverStart s e).1 = 0) (serverStart s e).2 := by
  have hgrow := serverStart_grows s e
  rcases h with ⟨hb, hbad⟩ | ⟨v, hi, hg⟩
  · exact Or.inl ⟨hb, hbad.suffix hgrow.1⟩
  unfold serverStart
  dsimp only
  by_cases hfd : sysOpen (openFds s.log) e.socket = -1
  · rw [if_pos hfd]
    exact hg.fine hi
  rw [if_neg hfd]
  have hopen := hg.opened (sysOpen_spec _ _ hfd)
  rw [hi.fds] at hopen
  have hmem : sysOpen (openFds s.log) e.socket ∈
      openFds (s.emit (.opened (sysOpen (openFds s.log) e.socket))).log := List.mem_cons_self
  generalize sysOpen (openFds s.log) e.socket = fd at hopen hmem
  generalize s.emit (.opened fd) = t at hopen hmem
  have hclose : ∀ u, Good sz u { v with fds := [fd] } →
      Fine sz b ((-1 : ℤ) = 0) (u.emit (.closed fd)) :=
    fun u hu => (hu.closed rfl).fine ⟨hi.place, hi.current, hi.busy, hi.listening, rfl⟩
  cases e.reuseAddr && e.inetAton && e.bind && e.listen && e.nonBlocking
  · exact hclose _ hopen
  have hadd : Good sz (epollCtlAdd t fd e.addListener) { v with fds := [fd] } :=
    hopen.emit ⟨rfl, rfl, rfl, rfl⟩ (Or.inr hmem)
  cases hl : e.addListener with
  | false => exact hclose _ (hl ▸ hadd)
  | true =>
    rw [hl] at hadd
    refine Or.inr ⟨{ v with listening := true, fds := [] },
      ⟨hi.place, hi.current, hi.busy, rfl, rfl⟩, hadd.setListener ?_⟩
    unfold View.owned
    simp [hi.listening]
    rfl

end

end Messi.LinuxServer
