import Messi.LinuxServer.Connections

/-!
# Accepting a client

What `process_listener()` does before it calls `on_client_connected`: a slot is taken from the free
list and connected, or the client is turned away and the lists are what they were
(`acceptClient_good`).
-/

namespace Messi.LinuxServer

variable {α : Type*}

/-- `process_listener()` up to the call of `on_client_connected`, and the client it is called
for. -/
def acceptClient (e : AcceptEnv α) (s : Server) : Option Slot × Server :=
  let clientFd := sysOpen (openFds s.log) e.accept
  if clientFd = -1 then (none, s)
  else
    let s := s.emit (.opened clientFd)
    if !e.nonBlocking then (none, s.emit (.closed clientFd))
    else if !e.noDelay then (none, s.emit (.closed clientFd))
    else
      match allocClient s with
      | (none, s) => (none, s.emit (.closed clientFd))
      | (some c, s) =>
        match clientInit s c clientFd e with
        | (false, s) => (none, (freeConnectedClient s c).emit (.closed clientFd))
        | (true, s) => (some c, s.emit (.onClientConnected c))

theorem processListener_eq (cb : Callbacks α) (e : AcceptEnv α) (s : Server) :
    processListener cb e s = match acceptClient e s with
      | (none, t) => .done () t
      | (some _, t) => cb.onClientConnected e.callback t := by
  unfold processListener acceptClient
  dsimp only
  split_ifs
  · rfl
  · rfl
  · rfl
  · cases allocClient (s.emit (.opened (sysOpen (openFds s.log) e.accept))) with
    | mk r t =>
      cases r with
      | none => rfl
      | some c =>
        dsimp only
        cases clientInit t c (sysOpen (openFds s.log) e.accept) e with
        | mk ok u => cases ok <;> rfl

/-- The slot is as new, and the others are as they were. -/
structure JustConnected (s t : Server) (c : Slot) : Prop where
  fresh : FreshSlot t c (t.clientFd c)
  others : SameBut c s t

theorem acceptClient_good {sz : ℕ} {s : Server} {v : View} (e : AcceptEnv α) (h : Good sz s v) :
    match acceptClient e s with
    | (none, t) => Good sz t v ∧
      ∀ d ∈ v.connected, t.clientFd d = s.clientFd d ∧ t.output d = s.output d
    | (some c, t) => ∃ fl, v.free = c :: fl ∧ JustConnected s t c ∧
        Good sz t { v with connected := c :: v.connected, free := fl } := by
  unfold acceptClient
  dsimp only
  by_cases hfd : sysOpen (openFds s.log) e.accept = -1
  · rw [if_pos hfd]
    exact ⟨h, fun _ _ => ⟨rfl, rfl⟩⟩
  rw [if_neg hfd]
  have hopen := h.opened (sysOpen_spec _ _ hfd)
  generalize sysOpen (openFds s.log) e.accept = fd at hfd hopen
  have hclose : ∀ t, Good sz t { v with fds := fd :: v.fds } → Good sz (t.emit (.closed fd)) v :=
    fun t ht => ht.closed rfl
  cases e.nonBlocking
  · exact ⟨hclose _ hopen, fun _ _ => ⟨rfl, rfl⟩⟩
  cases e.noDelay
  · exact ⟨hclose _ hopen, fun _ _ => ⟨rfl, rfl⟩⟩
  have hmem : fd ∈ openFds (s.emit (.opened fd)).log := List.mem_cons_self
  have hbut₀ : ∀ c, SameBut c s (s.emit (.opened fd)) := fun c =>
    ⟨fun _ _ => rfl, fun _ _ => rfl, fun _ _ => rfl, fun _ _ => rfl, ⟨rfl, rfl⟩, rfl, rfl, rfl, rfl⟩
  generalize s.emit (.opened fd) = s₁ at hopen hmem hbut₀
  cases ha : allocClient s₁ with
  | mk r s₂ =>
    rcases hopen.slots.lists.allocClient ha with ⟨rfl, -, rfl⟩ | ⟨c, fl, rfl, hfl, hs₂, hlists⟩
    · refine ⟨hclose _ hopen, fun d _ => ?_⟩
      have hne : d ≠ d + 1 := (Nat.succ_ne_self d).symm
      exact ⟨(hbut₀ (d + 1)).clientFd d hne, (hbut₀ (d + 1)).output d hne⟩
    · dsimp only
      cases hinit : clientInit s₂ c fd e with
      | mk r s₃ =>
        have hlog : s₂.log = s₁.log := by rw [hs₂]; rfl
        obtain ⟨hbut, hclients, hfresh, hok, hr⟩ :=
          clientInit_spec hinit (hlog ▸ hmem) (hlog ▸ hopen.log)
        have hbut₁ : SameBut c s₁ s₃ := by
          rw [hs₂] at hbut
          exact ⟨hbut.clientFd, hbut.keepAliveTimerFd, hbut.input, hbut.output, hbut.buffer,
            hbut.inputBufs, hbut.listenerFd, hbut.currentClientP, hbut.clientsMax⟩
        rw [hlog] at hr
        cases r with
        | false =>
          refine ⟨hclose _ (hopen.freeConnectedClient hfl (hclients ▸ hlists) hbut₁ hr hok), ?_⟩
          intro d hd
          have hnot : c ∉ v.connected := (hfl ▸ hopen.slots.lists).notMem_of_free.1
          have hne : d ≠ c := ne_of_mem_of_not_mem hd hnot
          have hbut := (hbut₀ c).trans hbut₁
          exact ⟨hbut.clientFd d hne, hbut.output d hne⟩
        | true =>
          refine ⟨fl, hfl, ⟨?_, ((hbut₀ c).trans hbut₁).emit⟩,
            hopen.onClientConnected hfl rfl hfd (hclients ▸ hlists) hbut₁ hfresh hok hr.2⟩
          exact hfresh.clientFd.symm ▸ hfresh.emit

end Messi.LinuxServer
