import Messi.LinuxServer.Restart

/-!
# Descriptors of the server

Between two calls the server has the listener open, two descriptors for every connected client and
one for every pending one, and each of them is registered (`ledger_kept`).

What is registered is followed through the log by itself: while descriptors are being opened, some
of them (`out` in `Tidy`) are not registered yet.
-/

namespace Messi.LinuxServer

open PointerList Sample

/-- The descriptor is registered in the epoll instance. -/
def registered (fd : ℤ) : List Event → Bool
  | [] => false
  | .epollCtl .add fd' _ ok :: l => if fd' = fd then ok || registered fd l else registered fd l
  | .epollCtl .del fd' _ _ :: l => if fd' = fd then false else registered fd l
  | .closed fd' :: l => if fd' = fd then false else registered fd l
  | _ :: l => registered fd l

/-- The descriptors that the server should have open between two calls. -/
def ledger (s : Server) : List ℤ :=
  s.listenerFd :: ((connectedSlots s).flatMap (connectedFds s) ++
    (pendingSlots s).map s.keepAliveTimerFd)

/-- The server has open what it should, and all of that is registered. -/
structure LedgerOk (s : Server) : Prop where
  open_perm : (openFds s.log).Perm (ledger s)
  nodup : (ledger s).Nodup
  registered : ∀ fd ∈ ledger s, registered fd s.log = true

/-! ## Registration -/

/-- Every descriptor is open once, and registered unless it is one of `out`. -/
structure Tidy (out : List ℤ) (l : List Event) : Prop where
  nodup : (openFds l).Nodup
  registered : ∀ fd ∈ openFds l, fd ∉ out → LinuxServer.registered fd l = true

section

variable {out : List ℤ} {l l' : List Event} {fd : ℤ} {s t : Server} {c : Slot} {α : Type*}

theorem registered_plain {e : Event} (he : e.plain = true) :
    registered fd (e :: l) = registered fd l := by
  cases e with
  | epollCtl op fd' events ok => cases op <;> first | rfl | cases he
  | closed fd' => cases he
  | _ => rfl

theorem Tidy.plain {e : Event} (h : Tidy out l) (he : e.plain = true) : Tidy out (e :: l) := by
  have hopen : openFds (e :: l) = openFds l := by
    apply openFds_cons
    cases e <;> first | rfl | cases he
  refine ⟨hopen ▸ h.nodup, ?_⟩
  intro fd hfd hout
  rw [registered_plain he]
  exact h.registered fd (hopen ▸ hfd) hout

theorem Tidy.opened (h : Tidy out l) (hfd : fd ∉ openFds l) :
    Tidy (fd :: out) (.opened fd :: l) := by
  refine ⟨List.nodup_cons.2 ⟨hfd, h.nodup⟩, ?_⟩
  intro fd' hmem hout
  rw [List.mem_cons, not_or] at hout
  exact h.registered fd' ((List.mem_cons.1 hmem).resolve_left hout.1) hout.2

theorem Tidy.closed (h : Tidy (fd :: out) l) : Tidy out (.closed fd :: l) := by
  refine ⟨h.nodup.erase fd, ?_⟩
  intro fd' hmem hout
  obtain ⟨hne, hmem⟩ := h.nodup.mem_erase_iff.1 hmem
  rw [LinuxServer.registered, if_neg (Ne.symm hne)]
  apply h.registered fd' hmem
  simp [hne, hout]

theorem Tidy.add {events : Events} (h : Tidy (fd :: out) l) :
    Tidy out (.epollCtl .add fd events true :: l) := by
  refine ⟨h.nodup, ?_⟩
  intro fd' hmem hout
  by_cases hfd : fd = fd'
  · simp [LinuxServer.registered, hfd]
  · rw [LinuxServer.registered, if_neg hfd]
    apply h.registered fd' hmem
    simp [Ne.symm hfd, hout]

theorem Tidy.addFailed {events : Events} (h : Tidy out l) :
    Tidy out (.epollCtl .add fd events false :: l) := by
  refine ⟨h.nodup, ?_⟩
  intro fd' hmem hout
  rw [LinuxServer.registered, Bool.false_or, ite_self]
  exact h.registered fd' hmem hout

theorem Tidy.del {events : Events} (h : Tidy out l) :
    Tidy (fd :: out) (.epollCtl .del fd events true :: l) := by
  refine ⟨h.nodup, ?_⟩
  intro fd' hmem hout
  rw [List.mem_cons, not_or] at hout
  rw [LinuxServer.registered, if_neg (Ne.symm hout.1)]
  exact h.registered fd' hmem hout.2

/-- The server leaves everything registered that it finds registered. -/
def KeepsTidy (s t : Server) : Prop := Tidy [] s.log → Tidy [] t.log

theorem KeepsTidy.rules : Rules KeepsTidy where
  trans := fun h h' hs => h' (h hs)
  same _ _ hl _ := fun hs => hl ▸ hs
  emit _ _ _ he hl _ := fun hs => hl ▸ hs.plain he
  close _ _ _ hl _ := fun hs => hl ▸ hs.del.closed
  user _ _ _ := fun hs => ⟨hs.nodup, hs.registered⟩
  handle _ _ _ := fun hs => ⟨hs.nodup, hs.registered⟩
  pong _ _ _ _ := fun hs => ⟨hs.nodup, hs.registered⟩

theorem allocClient_log {r : Option Slot} (h : allocClient s = (r, t)) : t.log = s.log := by
  unfold allocClient at h
  cases hf : s.clients.freeListP with
  | none =>
    rw [hf] at h
    cases h
    rfl
  | some c =>
    rw [hf] at h
    cases h
    rfl

/-- A new client's timer is registered or closed, and then its socket is. -/
theorem clientInit_tidy {e : AcceptEnv α} {r : Bool} (h : Tidy [fd] s.log)
    (hi : clientInit s c fd e = (r, t)) : Tidy (if r then [] else [fd]) t.log := by
  unfold clientInit at hi
  dsimp only at hi
  split_ifs at hi with htimer hset hadd hclient
  · cases hi
    exact h
  all_goals
    have hopen : Tidy [sysOpen (openFds s.log) e.timer, fd]
        (.opened (sysOpen (openFds s.log) e.timer) :: s.log) := h.opened (sysOpen_spec _ _ htimer)
    have hstart := hopen.plain (e := .settime (sysOpen (openFds s.log) e.timer) e.settime) rfl
    simp only [epollCtlAdd, epollCtlDel, clientStartKeepAliveTimer, clientResetInput,
      Server.setKeepAliveTimerFd_keepAliveTimerFd, Server.emit_keepAliveTimerFd,
      Function.update_self, Prod.mk.injEq] at hi
    obtain ⟨rfl, rfl⟩ := hi
  · exact hstart.closed
  · rw [Bool.not_eq_true'] at hadd
    rw [hadd]
    exact hstart.addFailed.closed
  · rw [Bool.not_eq_true', Bool.not_eq_false] at hadd
    rw [Bool.not_eq_true'] at hclient
    rw [hadd, hclient]
    exact hstart.add.addFailed.del.closed
  · rw [Bool.not_eq_true', Bool.not_eq_false] at hadd hclient
    rw [hadd, hclient]
    exact hstart.add.add

theorem processListener_tidy {cb : Callbacks α} (hcb : CallbacksIn KeepsTidy cb) (e : AcceptEnv α)
    (s : Server) : Exec.Sat (KeepsTidy s) (fun _ => KeepsTidy s) (processListener cb e s) := by
  unfold processListener
  dsimp only
  by_cases hfd : sysOpen (openFds s.log) e.accept = -1
  · rw [if_pos hfd]
    exact KeepsTidy.rules.refl s
  rw [if_neg hfd]
  have hopen : Tidy [] s.log → Tidy [sysOpen (openFds s.log) e.accept]
      (s.emit (.opened (sysOpen (openFds s.log) e.accept))).log :=
    fun hs => hs.opened (sysOpen_spec _ _ hfd)
  generalize sysOpen (openFds s.log) e.accept = fd at hfd hopen
  generalize s.emit (.opened fd) = s₁ at hopen
  have hclose : ∀ u : Server,
      (Tidy [] s.log → Tidy [fd] u.log) → KeepsTidy s (u.emit (.closed fd)) :=
    fun u hu hs => (hu hs).closed
  cases e.nonBlocking
  · exact hclose _ hopen
  cases e.noDelay
  · exact hclose _ hopen
  cases ha : allocClient s₁ with
  | mk r s₂ =>
    rw [← allocClient_log ha] at hopen
    cases r with
    | none => exact hclose _ hopen
    | some c =>
      dsimp only
      cases hi : clientInit s₂ c fd e with
      | mk r s₃ =>
        have hinit := fun hs => clientInit_tidy (hopen hs) hi
        cases r with
        | false => exact hclose _ fun hs => (hinit hs).plain (e := .unlinked c _) rfl
        | true =>
          have hcon : KeepsTidy s (s₃.emit (.onClientConnected c)) := fun hs =>
            ⟨(hinit hs).nodup, (hinit hs).registered⟩
          exact KeepsTidy.rules.sat hcon (hcb.connected _ _)

theorem serverStart_tidy (s : Server) (e : StartEnv) : KeepsTidy s (serverStart s e).2 := by
  intro hs
  unfold serverStart
  dsimp only
  by_cases hfd : sysOpen (openFds s.log) e.socket = -1
  · rw [if_pos hfd]
    exact hs
  rw [if_neg hfd]
  have hopen := hs.opened (sysOpen_spec _ _ hfd)
  generalize sysOpen (openFds s.log) e.socket = fd at hopen
  cases e.reuseAddr && e.inetAton && e.bind && e.listen && e.nonBlocking
  · exact hopen.closed
  cases hl : e.addListener with
  | false => exact hopen.addFailed.closed
  | true => exact hopen.add

/-- Between any two calls everything that is open is registered. -/
theorem run_tidy {w s : Server} {n sz messageSize : ℕ} {e : StartEnv}
    (hs : started w n sz messageSize e = (0, s)) (d : Discipline) (depth : ℕ) (calls : List Call) :
    Tidy [] (run d depth calls s).state.log := by
  have hstart := serverStart_tidy (serverInit w n sz messageSize) e ⟨List.nodup_nil, nofun⟩
  unfold started at hs
  rw [hs] at hstart
  have hrun := (KeepsTidy.rules.run (fun _ hcb => processListener_tidy hcb) d depth calls s).state
    fun _ _ ht => ht
  exact hrun hstart

/-! ## The ledger -/

theorem Good.ledgerOk {v : View} {sz : ℕ} (h : Good sz s v) (hi : Idle true v)
    (ht : Tidy [] s.log) : LedgerOk s := by
  have hpending : v.pending.flatMap (pendingFds s v.place) = v.pending.map s.keepAliveTimerFd := by
    rw [hi.place]
    exact List.flatMap_pure_eq_map _ _
  have hopen : (openFds s.log).Perm (ledger s) := by
    have hfds := h.fds
    unfold View.owned at hfds
    rw [hi.listening, hi.fds, hpending, ← h.connectedSlots_eq, ← h.pendingSlots_eq] at hfds
    exact hfds
  refine ⟨hopen, hopen.nodup_iff.1 ht.nodup, ?_⟩
  intro fd hfd
  exact ht.registered fd (hopen.mem_iff.2 hfd) List.not_mem_nil

/-- The server uses only descriptors that it owns and closes each of them once, and between two
calls it has open what it should. -/
theorem ledger_kept {w s : Server} {n sz messageSize : ℕ} {e : StartEnv} (hn : 0 < n)
    (hs : started w n sz messageSize e = (0, s)) (depth : ℕ) (calls : List Call) :
    FdsOk (run ⟨false, false⟩ depth calls s).state.log ∧
      ∀ t, run ⟨false, false⟩ depth calls s = .done () t → LedgerOk t := by
  obtain ⟨v, -, hg, -⟩ := run_good (d := ⟨false, false⟩) hn hs rfl depth calls nofun
  refine ⟨LogOk.fdsOk (l := []) (by rw [List.append_nil]; exact hg.log) rfl, ?_⟩
  intro t ht
  have htidy := run_tidy hs ⟨false, false⟩ depth calls
  have hfine := run_fine ⟨false, false⟩ rfl depth calls (started_fine (b := false) hn hs).1
  rw [ht] at htidy hfine
  obtain ⟨u, hi, hgood⟩ := hfine.resolve_left fun hb => Bool.noConfusion hb.1
  exact hgood.ledgerOk hi htidy

/-- A client connects, one is refused because its timer cannot be created, and the first one is
disconnected in a message callback. -/
def refusedCalls : List Call :=
  [connect 5 6, connect 7 (-1), receive 5 [read (.data [1, 0, 0, 0]) [.disconnect none]]]

theorem ledger_kept_refusedCalls :
    FdsOk (run ⟨false, false⟩ 0 refusedCalls (server 2 16)).state.log ∧
      ∀ t, run ⟨false, false⟩ 0 refusedCalls (server 2 16) = .done () t → LedgerOk t :=
  ledger_kept (n := 2) (w := memory) (e := start) (by decide) rfl 0 refusedCalls

/-- The socket of the client that could not be accepted is read from after it has been closed. -/
theorem not_fdsOk_processCalls :
    ¬ FdsOk (run ⟨true, false⟩ 1 processCalls (server 2 16)).state.log := by
  intro h
  have hsplit : (run ⟨true, false⟩ 1 processCalls (server 2 16)).state.log =
      (run ⟨true, false⟩ 1 processCalls (server 2 16)).state.log.take 9 ++
        .read 0 9 0 4 [] :: (run ⟨true, false⟩ 1 processCalls (server 2 16)).state.log.drop 10 := by
    decide
  have hread := h.used (.read 0 9 0 4 []) 9 _ ⟨_, hsplit.symm⟩ rfl
  revert hread
  decide

end

end Messi.LinuxServer
