import Messi.LinuxServer.Interest

/-!
# Accepting is all or nothing

Seven calls and the allocation of a slot can fail while a client is accepted. When one does, the
lists, the open descriptors and what is registered are as they were, and no callback is called;
otherwise one slot moves from the free list to the connected list (`accept_all_or_nothing`).
-/

namespace Messi.LinuxServer

open PointerList Sample

/-- The free slots, in the order of the list. -/
def freeSlots (s : Server) : List Slot := walk s.clients.nextP s.clientsMax s.clients.freeListP

/-- The timer has been started since it was opened. -/
def armed (fd : ℤ) : List Event → Bool
  | [] => false
  | .settime fd' ok :: l => (fd' = fd && ok) || armed fd l
  | .opened fd' :: l => if fd' = fd then false else armed fd l
  | _ :: l => armed fd l

/-- The event is, or goes before, a call of the user's code. -/
def Event.callback : Event → Bool
  | .onClientConnected _ | .onClientDisconnected _ | .handleMessage _ _ => true
  | _ => false

/-- The slot `c` has become a connected client between the two states. -/
structure Accepted (s t : Server) (c : Slot) : Prop where
  free : freeSlots s = c :: freeSlots t
  connected : connectedSlots t = c :: connectedSlots s
  pending : pendingSlots t = pendingSlots s
  slot : JustConnected s t c
  opened : openFds t.log = t.keepAliveTimerFd c :: t.clientFd c :: openFds s.log
  distinct : (t.keepAliveTimerFd c :: t.clientFd c :: openFds s.log).Nodup
  registrations : interest (t.clientFd c) t.log = some ⟨true, false⟩ ∧
    interest (t.keepAliveTimerFd c) t.log = some ⟨true, false⟩
  timer : armed (t.keepAliveTimerFd c) t.log = true
  called : (eventsSince s t).filter Event.callback = [.onClientConnected c]

/-- Nothing has come of it. -/
structure TurnedAway (s t : Server) : Prop where
  free : freeSlots t = freeSlots s
  connected : connectedSlots t = connectedSlots s
  pending : pendingSlots t = pendingSlots s
  opened : openFds t.log = openFds s.log
  registrations : ∀ fd, interest fd t.log = interest fd s.log
  called : (eventsSince s t).filter Event.callback = []

section

variable {sz : ℕ} {s t : Server} {v : View} {c : Slot} {l : List Event} {fd : ℤ} {α : Type*}

theorem Good.freeSlots_eq (h : Good sz s v) : freeSlots s = v.free := by
  refine h.slots.lists.free.walk_eq ?_
  have hall := h.slots.all.length_eq
  simp only [List.length_append, List.length_range] at hall
  omega

/-! ## The log -/

/-- Events after which no more and no less is open and registered, and among which no callback is
called. -/
structure Undone (evs l : List Event) : Prop where
  opened : openFds (evs ++ l) = openFds l
  registrations : ∀ fd, interest fd (evs ++ l) = interest fd l
  silent : evs.filter Event.callback = []

theorem undone_nil : Undone [] l := ⟨rfl, fun _ => rfl, rfl⟩

/-- A descriptor is opened, and then closed and not registered any more. -/
theorem undone_bracket {evs : List Event} (hfd : interest fd l = none)
    (hopen : openFds (evs ++ .opened fd :: l) = fd :: openFds l)
    (hreg : ∀ fd', fd' ≠ fd → interest fd' (evs ++ .opened fd :: l) = interest fd' l)
    (hs : evs.filter Event.callback = []) : Undone (.closed fd :: (evs ++ [.opened fd])) l := by
  have happ : evs ++ [.opened fd] ++ l = evs ++ .opened fd :: l := by simp
  refine ⟨?_, fun fd' => ?_, ?_⟩
  · show (openFds (evs ++ [.opened fd] ++ l)).erase fd = openFds l
    rw [happ, hopen]
    exact List.erase_cons_head fd _
  · show interest fd' (.closed fd :: (evs ++ [.opened fd] ++ l)) = interest fd' l
    rw [happ, interest]
    split_ifs with he
    · exact he ▸ hfd.symm
    · exact hreg fd' (Ne.symm he)
  · show (evs ++ [Event.opened fd]).filter Event.callback = []
    rw [List.filter_append, hs]
    rfl

theorem Undone.close {evs : List Event} (h : Undone evs (.opened fd :: l))
    (hfd : interest fd l = none) : Undone (.closed fd :: (evs ++ [.opened fd])) l :=
  undone_bracket hfd h.opened (fun fd' _ => h.registrations fd') h.silent

/-- What `client_init()` logs. -/
theorem clientInit_log {e : AcceptEnv α} {ok : Bool} (h : clientInit s c fd e = (ok, t))
    (hr : ∀ fd', fd' ∉ openFds s.log → fd' ≠ -1 → interest fd' s.log = none) :
    if ok then t.clientFd c = fd ∧ t.keepAliveTimerFd c ∉ openFds s.log ∧
      t.log = [.epollCtl .add fd ⟨true, false⟩ true,
        .epollCtl .add (t.keepAliveTimerFd c) ⟨true, false⟩ true,
        .settime (t.keepAliveTimerFd c) true, .opened (t.keepAliveTimerFd c)] ++ s.log
    else ∃ evs, t.log = evs ++ s.log ∧ Undone evs s.log := by
  unfold clientInit at h
  simp only [clientResetInput, Server.setOutput_log, Server.setInput_log,
    Server.setClientFd_log] at h
  have hspec := sysOpen_spec (openFds s.log) e.timer
  generalize sysOpen (openFds s.log) e.timer = timer at h hspec
  split_ifs at h with htimer hset hadd hclient
  · cases h
    exact ⟨[], rfl, undone_nil⟩
  all_goals
    have hnew := hspec htimer
    have hreg := hr _ hnew htimer
    simp only [epollCtlAdd, epollCtlDel, clientStartKeepAliveTimer,
      Server.setKeepAliveTimerFd_keepAliveTimerFd, Server.emit_keepAliveTimerFd,
      Function.update_self, Prod.mk.injEq] at h
    obtain ⟨rfl, rfl⟩ := h
  · exact ⟨.closed timer :: ([.settime timer e.settime] ++ [.opened timer]), rfl,
      undone_bracket hreg rfl (fun fd' _ => rfl) rfl⟩
  · rw [Bool.not_eq_true'] at hadd
    refine ⟨.closed timer :: ([.epollCtl .add timer ⟨true, false⟩ e.addTimer,
      .settime timer e.settime] ++ [.opened timer]), rfl, undone_bracket hreg rfl ?_ rfl⟩
    intro fd' hne
    simp [interest, Ne.symm hne]
  · rw [Bool.not_eq_true'] at hclient
    refine ⟨.closed timer :: ([.epollCtl .del timer ⟨false, false⟩ true,
      .epollCtl .add fd ⟨true, false⟩ e.addClient, .epollCtl .add timer ⟨true, false⟩ e.addTimer,
      .settime timer e.settime] ++ [.opened timer]), rfl, undone_bracket hreg rfl ?_ rfl⟩
    intro fd' hne
    simp [interest, Ne.symm hne, hclient]
  · simp only [Bool.not_eq_true', Bool.not_eq_false] at hset hadd hclient
    refine ⟨?_, ?_, ?_⟩
    · simp
    · simpa using hnew
    · simp [hset, hadd, hclient]

/-- What `process_listener()` logs before it calls `on_client_connected`. -/
theorem acceptClient_log (e : AcceptEnv α)
    (hr : ∀ fd', fd' ∉ openFds s.log → fd' ≠ -1 → interest fd' s.log = none) :
    match acceptClient e s with
    | (none, t) => ∃ evs, t.log = evs ++ s.log ∧ Undone evs s.log
    | (some c, t) => t.clientFd c ∉ openFds s.log ∧
      t.keepAliveTimerFd c ∉ t.clientFd c :: openFds s.log ∧
      t.log = [.onClientConnected c, .epollCtl .add (t.clientFd c) ⟨true, false⟩ true,
        .epollCtl .add (t.keepAliveTimerFd c) ⟨true, false⟩ true,
        .settime (t.keepAliveTimerFd c) true, .opened (t.keepAliveTimerFd c),
        .opened (t.clientFd c)] ++ s.log := by
  unfold acceptClient
  dsimp only
  by_cases hfd : sysOpen (openFds s.log) e.accept = -1
  · rw [if_pos hfd]
    exact ⟨[], rfl, undone_nil⟩
  rw [if_neg hfd]
  have hnew := sysOpen_spec _ _ hfd
  generalize sysOpen (openFds s.log) e.accept = fd at hfd hnew ⊢
  have hreg := hr fd hnew hfd
  have hclose : ∀ u : Server, ∀ evs, u.log = evs ++ .opened fd :: s.log →
      Undone evs (.opened fd :: s.log) →
      ∃ evs, (u.emit (.closed fd)).log = evs ++ s.log ∧ Undone evs s.log := by
    intro u evs hu hun
    refine ⟨.closed fd :: (evs ++ [.opened fd]), ?_, hun.close hreg⟩
    rw [Server.emit_log, hu]
    simp
  cases e.nonBlocking
  · exact hclose _ [] rfl undone_nil
  cases e.noDelay
  · exact hclose _ [] rfl undone_nil
  cases ha : allocClient (s.emit (.opened fd)) with
  | mk r u =>
    have hlog := allocClient_log ha
    cases r with
    | none => exact hclose u [] hlog undone_nil
    | some c =>
      dsimp only
      cases hi : clientInit u c fd e with
      | mk ok w =>
        have hinit := clientInit_log hi fun fd' hn hne => by
          rw [hlog] at hn ⊢
          exact hr fd' (fun hm => hn (List.mem_cons_of_mem _ hm)) hne
        rw [hlog] at hinit
        cases ok with
        | false =>
          obtain ⟨evs, hw, hun⟩ := hinit
          refine hclose _ (.unlinked c _ :: evs) (congrArg (_ :: ·) hw) ⟨hun.opened, ?_, hun.silent⟩
          exact hun.registrations
        | true =>
          obtain ⟨rfl, htimer, hw⟩ := hinit
          refine ⟨hnew, htimer, ?_⟩
          show Event.onClientConnected c :: w.log = _
          rw [hw]
          rfl

/-! ## All or nothing -/

theorem Good.accept (h : Good sz s v) (e : AcceptEnv α) :
    match acceptClient e s with
    | (none, t) => TurnedAway s t
    | (some c, t) => Accepted s t c := by
  have hgood := acceptClient_good e h
  have hlog := acceptClient_log (s := s) e fun fd hn hne => h.log.interest_eq_none hne hn
  generalize acceptClient e s = r at hgood hlog
  obtain ⟨p, t⟩ := r
  cases p with
  | none =>
    obtain ⟨evs, ht, hun⟩ := hlog
    replace hgood := hgood.1
    refine ⟨?_, ?_, ?_, ?_, ?_, ?_⟩
    · rw [hgood.freeSlots_eq, h.freeSlots_eq]
    · rw [hgood.connectedSlots_eq, h.connectedSlots_eq]
    · rw [hgood.pendingSlots_eq, h.pendingSlots_eq]
    · rw [ht]
      exact hun.opened
    · intro fd
      rw [ht]
      exact hun.registrations fd
    · rw [eventsSince_eq ht]
      exact hun.silent
  | some c =>
    obtain ⟨fl, hfree, hslot, hg⟩ := hgood
    obtain ⟨hfd, htimer, ht⟩ := hlog
    have hnodup := h.log.openFds_nodup
    refine ⟨?_, ?_, ?_, hslot, ?_, ?_, ?_, ?_, ?_⟩
    · rw [hg.freeSlots_eq, h.freeSlots_eq]
      exact hfree
    · rw [hg.connectedSlots_eq, h.connectedSlots_eq]
    · rw [hg.pendingSlots_eq, h.pendingSlots_eq]
    · rw [ht]
      rfl
    · exact List.nodup_cons.2 ⟨htimer, List.nodup_cons.2 ⟨hfd, hnodup⟩⟩
    · rw [ht]
      have hne : t.keepAliveTimerFd c ≠ t.clientFd c := fun he => htimer (he ▸ List.mem_cons_self)
      simp [interest, hne.symm]
    · rw [ht]
      simp [armed]
    · rw [eventsSince_eq ht]
      rfl

/-- In every reachable state, inside callbacks too, a client is either accepted or turned away. -/
theorem accept_all_or_nothing {w : Server} {n messageSize : ℕ} {r : StartEnv} {b : Bool}
    (hn : 0 < n) (hs : started w n sz messageSize r = (0, t)) (depth : ℕ) (calls : List Call)
    (hu : b = true → ¬ BadUnlink (run ⟨false, b⟩ depth calls t).state.log)
    (cb : Callbacks α) (e : AcceptEnv α) :
    let s := (run ⟨false, b⟩ depth calls t).state
    (∃ c u, Accepted s u c ∧ processListener cb e s = cb.onClientConnected e.callback u) ∨
      ∃ u, TurnedAway s u ∧ processListener cb e s = .done () u := by
  obtain ⟨v, -, hg, -⟩ := run_good (d := ⟨false, b⟩) hn hs rfl depth calls hu
  intro s
  have haccept := hg.accept e
  rw [processListener_eq]
  generalize acceptClient e s = r at haccept
  obtain ⟨p, u⟩ := r
  cases p with
  | none => exact Or.inr ⟨u, haccept, rfl⟩
  | some c => exact Or.inl ⟨c, u, haccept, rfl⟩

/-- One client is connected, and the socket of a second one cannot be registered. -/
theorem accept_all_or_nothing_refusedClient :
    let s := (run ⟨false, false⟩ 0 [connect 5 6] (server 2 16)).state
    let e : AcceptEnv Call := ⟨some 7, true, true, some 8, true, true, false, []⟩
    (∃ c u, Accepted s u c ∧ processListener (callbacks ⟨false, false⟩ 0) e s =
        (callbacks ⟨false, false⟩ 0).onClientConnected e.callback u) ∨
      ∃ u, TurnedAway s u ∧ processListener (callbacks ⟨false, false⟩ 0) e s = .done () u :=
  accept_all_or_nothing (n := 2) (w := memory) (r := start) (b := false) (by decide) rfl 0
    [connect 5 6] nofun _ _

end

end Messi.LinuxServer
