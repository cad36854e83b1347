import Messi.LinuxServer.Loss

/-!
# Stopping and starting again

`NAME_server_stop()` frees the connected clients but leaves them in the connected list, and forgets
the pending ones. It restores a server that can be started again just if there are neither
(`stop_restores_iff`), and then every later run is like one of a new server (`Restored.later`).
-/

namespace Messi.LinuxServer

open PointerList Sample

/-! ## Descriptors in the log -/

/-- The descriptor that an event uses. -/
def Event.uses? : Event → Option ℤ
  | .epollCtl _ fd _ _ | .settime fd _ | .read _ fd .. | .write _ fd _ => some fd
  | _ => none

/-- Descriptors are opened when they are not open, closed when they are, and used only while they
are open. -/
structure FdsOk (log : List Event) : Prop where
  opened : ∀ fd l, Event.opened fd :: l <:+ log → fd ∉ openFds l
  closed : ∀ fd l, Event.closed fd :: l <:+ log → fd ∈ openFds l
  used : ∀ e fd l, e :: l <:+ log → e.uses? = some fd → fd = -1 ∨ fd ∈ openFds l

section

variable {sz n : ℕ} {b ls : Bool} {s t : Server} {v : View} {l evs : List Event}

theorem EventOk.used {e : Event} {fd : ℤ} (h : EventOk sz l e) (he : e.uses? = some fd) :
    fd = -1 ∨ fd ∈ openFds l := by
  cases e with
  | epollCtl op fd' events ok =>
    cases he
    exact h
  | settime fd' ok =>
    cases he
    exact Or.inr h
  | read c fd' addr want bs =>
    cases he
    exact h.1
  | write c fd' bs =>
    cases he
    exact h
  | _ => cases he

/-- What is open does not depend on a past in which everything has been closed. -/
theorem openFds_append (hl : openFds l = []) (evs : List Event) :
    openFds (evs ++ l) = openFds evs := by
  induction evs with
  | nil => exact hl
  | cons e evs ih =>
    cases e with
    | opened fd => exact congrArg (fd :: ·) ih
    | closed fd => exact congrArg (List.erase · fd) ih
    | _ => exact ih

/-- What happens after everything has been closed is in order by itself. -/
theorem LogOk.fdsOk (h : LogOk sz (evs ++ l)) (hl : openFds l = []) : FdsOk evs := by
  have hok : ∀ e l', e :: l' <:+ evs → EventOk sz (l' ++ l) e := by
    rintro e l' ⟨pre, rfl⟩
    refine h.event ⟨pre, ?_⟩
    simp
  refine ⟨fun fd l' hs => ?_, fun fd l' hs => ?_, fun e fd l' hs he => ?_⟩
  · have hev := hok _ _ hs
    rwa [EventOk, openFds_append hl] at hev
  · have hev := hok _ _ hs
    rwa [EventOk, openFds_append hl] at hev
  · have hev := (hok _ _ hs).used he
    rwa [openFds_append hl] at hev

/-! ## Starting and stopping -/

/-- A server between two calls: initialised, started and stopped any number of times, but never
stopped while there were clients. -/
inductive Reached (sz n : ℕ) (b : Bool) : Bool → Server → Prop
  | init (m : Server) (messageSize : ℕ) : Reached sz n b false (serverInit m n sz messageSize)
  | start {s : Server} (h : Reached sz n b false s) (e : StartEnv) :
    Reached sz n b ((serverStart s e).1 = 0) (serverStart s e).2
  | run {ls : Bool} {s t : Server} (h : Reached sz n b ls s) (depth : ℕ) (calls : List Call)
    (hr : run ⟨false, b⟩ depth calls s = .done () t) : Reached sz n b ls t
  | stop {s : Server} (h : Reached sz n b true s) (hc : connectedSlots s = [])
    (hp : pendingSlots s = []) : Reached sz n b false (serverStop s)

/-- A run that starts the server behaves like one of a new server: every slot is in one list, and
only descriptors that have been opened in it are used. -/
def LikeNew (n : ℕ) (b : Bool) (s : Server) : Prop :=
  ∀ e t, serverStart s e = (0, t) → ∀ depth calls,
    (b = true → ¬ BadUnlink (run ⟨false, b⟩ depth calls t).state.log) →
      (∃ cl fl pl, ListsOk n (run ⟨false, b⟩ depth calls t).state cl fl pl) ∧
        ∃ evs, (run ⟨false, b⟩ depth calls t).state.log = evs ++ s.log ∧ FdsOk evs

/-- `NAME_server_stop()` has left a server that can be started again. -/
structure Restored (n : ℕ) (b : Bool) (s : Server) : Prop where
  free : ∃ fl, Links s.clients.nextP s.clients.freeListP fl ∧ fl.Perm (List.range n)
  connected : s.clients.connectedListP = none
  pending : s.clients.pendingDisconnectListP = none
  fds : FdsOk s.log ∧ openFds s.log = []
  later : LikeNew n b s

theorem serverStop_of_noClients (h : s.clients.connectedListP = none) :
    serverStop s = closeFd s s.listenerFd := by
  show stopClients (s.clientsMax + 1) s.clients.connectedListP (closeFd s s.listenerFd) = _
  rw [h]
  rfl

/-- Only the listener is closed when there are no clients. -/
theorem serverStop_good (h : Good sz s v) (hi : Idle true v) (hc : v.connected = []) :
    Good sz (serverStop s) { v with listening := false } := by
  have hlist : s.clients.connectedListP = none := by
    have hlinks := h.slots.lists.connected
    rwa [hc] at hlinks
  have hmem : s.listenerFd ∈ openFds s.log := by
    refine h.fds.mem_iff.2 ?_
    unfold View.owned
    simp [hi.listening]
  have hset : Good sz s { v with listening := false, fds := [s.listenerFd] } := by
    have howned : (v.owned s).Perm (View.owned { v with listening := false, fds := [s.listenerFd] }
        { s with listenerFd := s.listenerFd }) := by
      unfold View.owned
      simp [hi.listening, hi.fds]
    exact h.setListener howned
  have hdel : Good sz (epollCtlDel s s.listenerFd)
      { v with listening := false, fds := [s.listenerFd] } :=
    hset.emit ⟨rfl, rfl, rfl, rfl⟩ (Or.inr hmem)
  rw [serverStop_of_noClients hlist]
  have hclose := hdel.closed rfl
  rw [← hi.fds] at hclose
  exact hclose

theorem reached_fine (hn : 0 < n) (h : Reached sz n b ls s) :
    Fine sz b ls s ∧ s.clientsMax = n := by
  induction h with
  | init m messageSize =>
    obtain ⟨v, hi, hg⟩ := serverInit_good m sz messageSize hn
    exact ⟨hg.fine hi, rfl⟩
  | start h e ih => exact ⟨serverStart_fine ih.1 e, (serverStart_grows _ e).2.1.trans ih.2⟩
  | @run ls s t h depth calls hr ih =>
    have hfine := run_fine ⟨false, b⟩ rfl depth calls ih.1
    have hgrow := run_grows ⟨false, b⟩ depth calls s
    rw [hr] at hfine hgrow
    exact ⟨hfine, hgrow.2.1.trans ih.2⟩
  | @stop s h hc hp ih =>
    obtain ⟨hfine, hmax⟩ := ih
    have hlist : s.clients.connectedListP = none := (walk_eq_nil_iff (hmax ▸ hn)).1 hc
    have hgrow := closeFd_grows s s.listenerFd
    rw [← serverStop_of_noClients hlist] at hgrow
    refine ⟨?_, hgrow.2.1.trans hmax⟩
    rcases hfine with ⟨hb, hbad⟩ | ⟨v, hi, hg⟩
    · exact Or.inl ⟨hb, hbad.suffix hgrow.1⟩
    · have hcon : v.connected = [] := hg.connectedSlots_eq.symm.trans hc
      exact (serverStop_good hg hi hcon).fine ⟨hi.place, hi.current, hi.busy, rfl, hi.fds⟩

/-- Without clients, the server can be started again, and is like a new one. -/
theorem Good.likeNew (h : Good sz s v) (hi : Idle false v) (hopen : openFds s.log = []) :
    LikeNew s.clientsMax b s := by
  intro e t hs depth calls hu
  have hfine := serverStart_fine (h.fine (b := b) hi) e
  have hgrow := serverStart_grows s e
  rw [hs] at hfine hgrow
  have hrun := (run_fine ⟨false, b⟩ rfl depth calls hfine).state fun _ _ ht => ht.inside
  have hgrow' := (run_grows ⟨false, b⟩ depth calls t).state fun _ _ ht => ht
  rcases hrun with ⟨hb, hbad⟩ | ⟨u, -, hg⟩
  · exact absurd hbad (hu hb)
  · have hmax : (run ⟨false, b⟩ depth calls t).state.clientsMax = s.clientsMax :=
      hgrow'.2.1.trans hgrow.2.1
    obtain ⟨evs, hevs⟩ := hgrow.1.trans hgrow'.1
    refine ⟨⟨u.connected, u.free, u.pending, hmax ▸ hg.listsOk⟩, evs, hevs.symm, ?_⟩
    have hlog := hg.log
    rw [← hevs] at hlog
    exact hlog.fdsOk hopen

theorem serverStop_restored (h : Good sz s v) (hi : Idle true v) (hc : v.connected = [])
    (hp : v.pending = []) : Restored s.clientsMax b (serverStop s) := by
  have hg := serverStop_good h hi hc
  have hlinks := hg.slots.lists
  rw [hc, hp] at hlinks
  have hopen : openFds (serverStop s).log = [] := by
    have hfds := hg.fds
    unfold View.owned at hfds
    simpa [hc, hp, hi.fds] using hfds
  have hmax : (serverStop s).clientsMax = s.clientsMax := by
    rw [serverStop_of_noClients (by simpa [hc] using h.slots.lists.connected)]
    rfl
  have hall := hg.slots.all
  rw [hc, hp, hmax] at hall
  refine ⟨⟨v.free, hlinks.free, by simpa using hall⟩, hlinks.connected, hlinks.pending, ⟨?_, hopen⟩,
    ?_⟩
  · have hlog : LogOk sz ((serverStop s).log ++ []) := by
      rw [List.append_nil]
      exact hg.log
    exact hlog.fdsOk rfl
  · rw [← hmax]
    exact hg.likeNew ⟨hi.place, hi.current, hi.busy, rfl, hi.fds⟩ hopen

theorem freeItems_clients (c : Slot) (k : ℕ) (p : Option ℕ) (s : Server) :
    (freeItems c k p s).clients = s.clients := by
  induction k generalizing p s with
  | zero => rfl
  | succ k ih =>
    cases p with
    | none => rfl
    | some i => exact ih _ _

/-- `NAME_server_stop()` leaves the heads of both lists of clients as they are. -/
theorem stopClients_heads (k : ℕ) (p : Option Slot) (s : Server) :
    (stopClients k p s).clients.connectedListP = s.clients.connectedListP ∧
      (stopClients k p s).clients.pendingDisconnectListP = s.clients.pendingDisconnectListP := by
  induction k generalizing p s with
  | zero => exact ⟨rfl, rfl⟩
  | succ k ih =>
    cases p with
    | none => exact ⟨rfl, rfl⟩
    | some c =>
      have hfree : (freeClientOutput (closeFd (closeFd s (s.clientFd c)) (s.keepAliveTimerFd c))
          c).clients = s.clients := freeItems_clients c _ _ (Server.setOutput _ c _)
      have hcon := congrArg Clients.connectedListP hfree
      have hpend := congrArg Clients.pendingDisconnectListP hfree
      exact ⟨(ih _ _).1.trans hcon, (ih _ _).2.trans hpend⟩

/-- A server that has been stopped is restored just if it had no clients. -/
theorem stop_restores_iff (hn : 0 < n) (h : Reached sz n b true s) (hu : ¬ BadUnlink s.log) :
    Restored n b (serverStop s) ↔ connectedSlots s = [] ∧ pendingSlots s = [] := by
  obtain ⟨hfine, hmax⟩ := reached_fine hn h
  obtain ⟨v, hi, hg⟩ := hfine.resolve_left fun hbad => hu hbad.2
  obtain ⟨hc, hp⟩ := stopClients_heads (s.clientsMax + 1) s.clients.connectedListP
    (closeFd s s.listenerFd)
  constructor
  · intro hr
    exact ⟨(walk_eq_nil_iff (hmax ▸ hn)).2 (hc.symm.trans hr.connected),
      (walk_eq_nil_iff (hmax ▸ hn)).2 (hp.symm.trans hr.pending)⟩
  · rintro ⟨hcon, hpend⟩
    rw [← hmax]
    exact serverStop_restored hg hi (hg.connectedSlots_eq.symm.trans hcon)
      (hg.pendingSlots_eq.symm.trans hpend)

/-- A client connects and is disconnected by its timer before the server is stopped. -/
def gone : Server :=
  (run ⟨false, false⟩ 0 [connect 5 6, .process 6 ⟨true, false⟩ nothing] (server 1 16)).state

theorem stop_restores_iff_gone :
    Restored 1 false (serverStop gone) ↔ connectedSlots gone = [] ∧ pendingSlots gone = [] :=
  stop_restores_iff (by decide)
    (show Reached 16 1 false true gone from
      .run (.start (.init memory 64) start) 0 [connect 5 6, .process 6 ⟨true, false⟩ nothing] rfl)
    (by decide)

/-- A client that is connected when the server is stopped stays in the connected list. -/
theorem not_restored_oneClient : ¬ Restored 1 false (serverStop oneClient) := by
  intro h
  have hcon := h.connected
  revert hcon
  decide

end

end Messi.LinuxServer
