import Messi.PyClient.Tasks

/-!
# Stopping the Python client

`stop()` cancels the main task. Where `_reader_loop()` waits, `_main()` takes `CancelledError` for
the end of the connection and connects again; in `on_connected()` it leaves the connection open; and
when `on_disconnected()` stops the client and then waits for nothing, the next connection is asked
for before `CancelledError` is raised. In every run in which none of this happens, stop is final
(`py_stop_final`).
-/

namespace Messi.PyClient

open Trace

/-- `CancelledError` is raised where the main task ends by it, and `on_disconnected()` does not
return after it has stopped the client. -/
def Event.Heeded (l : List Event) : Event → Prop
  | .cancelled _ p => p.final = true
  | .returned _ => started l = true
  | _ => True

instance (l : List Event) : DecidablePred (Event.Heeded l) := fun e => by
  rcases e <;> unfold Event.Heeded <;> infer_instance

/-- The task has not ended and is not being cancelled. -/
def Alive (s : Client) (t : ℕ) : Prop := ∃ task, s.mainTasks t = some task ∧ task.cancelled = false

/-- No connection is asked for after `stop()`; a main task in which `CancelledError` has been raised
has ended, and its connections are closed; and at most one main task is alive. -/
structure StopFinal (s : Client) : Prop where
  connects : Always Event.NotStopped s.log
  ends : ∀ t p, Event.cancelled t p ∈ s.log → s.mainTasks t = none
  closes : ∀ t p, Event.cancelled t p ∈ s.log →
    ∀ conn, Event.connected t conn ∈ s.log → Event.close conn ∈ s.log
  one : ∀ t u, Alive s t → Alive s u → t = u

section

variable {t : ℕ} {p : Await} {s : Client} {d : Bool} {a : Answer}

/-! ## The main task -/

/-- What holds once a main task that was at `p` comes to an `await`, still waits, or ends. -/
def NextOk (t : ℕ) (p : Await) : Next × Client → Prop
  | (.goto q, s) => q ≠ .created ∧ Running t false q s
  | (.suspend, s) | (.exit, s) => Running t false p s

theorem startReading_ok (h : Running t false .onConnected s) : NextOk t p (startReading s) := by
  refine ⟨nofun, ?_⟩
  have hread : Running t false (.readHeader s.reader) s := h.at nofun
  exact hread.same rfl rfl rfl rfl (Nat.le_succ _)

theorem handleMessage_ok (h : Running t false (.readHeader s.reader) s) (a : Answer) (m : Message) :
    NextOk t p (handleMessage t a m s) := by
  have hmsg := h.emit (e := .message t m) rfl
  have hstop := hmsg.readerLoopStopped
  unfold handleMessage
  dsimp only
  split_ifs
  · have hcall := hmsg.emit (e := .onMessage t m.2) rfl
    exact ⟨nofun, hcall.at nofun⟩
  · exact ⟨nofun, hstop⟩
  · split
    · rename_i s' hs'
      obtain ⟨event, -, rfl⟩ := Option.map_eq_some_iff.1 hs'
      exact ⟨nofun, hmsg.same rfl rfl rfl rfl (Nat.le_refl _)⟩
    · exact ⟨nofun, hstop⟩
  · exact ⟨nofun, hmsg⟩

/-- The task is at the first `await` since it has been resumed. -/
def Await.first : Await → Bool
  | .created => true
  | p => p.waits

theorem advance_ok (h : Running t false p s) (hp : p.first = true → s.task = some t)
    (hsafe : Always Event.Heeded (advance t a p s).2.log) : NextOk t p (advance t a p s) := by
  have hstarted : s.task = some t → started s.log = true := fun ht => by
    rw [h.inv.started, ht]
    rfl
  have hcalls := h.userCalls a
  cases p with
  | created => exact ⟨nofun, h.connect rfl (hstarted (hp rfl))⟩
  | openConnection =>
    unfold advance
    dsimp only
    split
    · exact ⟨nofun, (h.connected rfl (hp rfl)).emit (e := .onConnected t) rfl⟩
    · rename_i e _
      have hfailed := h.emit (e := .onConnectFailure t e) rfl
      exact ⟨nofun, hfailed.at fun _ => rfl⟩
    · exact h
  | onConnectFailure =>
    unfold advance
    dsimp only
    split
    · exact hcalls
    · exact hcalls
    · exact ⟨nofun, hcalls.at fun _ => rfl⟩
    · exact hcalls
  | sleep delay => exact ⟨nofun, h.connect rfl (hstarted (hp rfl))⟩
  | onConnected =>
    unfold advance
    dsimp only
    split
    · exact hcalls
    · exact startReading_ok hcalls
    · exact hcalls
  | readHeader reader =>
    unfold advance
    dsimp only
    split
    · exact ⟨nofun, h.readerLoopStopped⟩
    · rename_i conn header _
      have hread := h.emit (e := .read t conn header) rfl
      split_ifs
      · exact handleMessage_ok (hread.at nofun) a _
      · exact ⟨nofun, hread.at nofun⟩
  | readPayload reader type size =>
    unfold advance
    dsimp only
    split
    · exact ⟨nofun, h.readerLoopStopped⟩
    · rename_i conn payload _
      have hread := h.emit (e := .read t conn payload) rfl
      exact handleMessage_ok (hread.at nofun) a _
  | onMessage =>
    unfold advance
    dsimp only
    split
    · exact hcalls
    · exact ⟨nofun, hcalls.at nofun⟩
    · exact ⟨nofun, hcalls.readerLoopStopped⟩
  | onDisconnected =>
    unfold advance at hsafe ⊢
    dsimp only at hsafe ⊢
    split
    · exact hcalls
    · rename_i hret
      rw [hret] at hsafe
      -- the client has not been stopped while `on_disconnected()` ran
      exact ⟨nofun, (hcalls.emit (e := .returned t) rfl).connect rfl hsafe.2.1⟩
    · exact hcalls

/-! ## Steps -/

theorem Inv.weaken (h : Inv none s) : Inv r s :=
  ⟨⟨h.connects, h.fresh, h.unique, fun u task _ => h.points u task nofun,
    fun u q _ => h.cancelled u q nofun⟩, h.started⟩

theorem suspendAt_inv (h : Running t false p s) : Inv none (suspendAt t p s) := by
  have hmain : ∀ u, (suspendAt t p s).mainTasks u =
      if u = t then (s.mainTasks u).map fun task => { task with point := p }
      else s.mainTasks u := by
    intro u
    by_cases hu : u = t
    · subst hu
      rw [if_pos rfl]
      exact Function.update_self _ _ _
    · rw [if_neg hu]
      exact Function.update_of_ne hu _ _
  have hended : ∀ u, s.mainTasks u = none → (suspendAt t p s).mainTasks u = none := by
    intro u hu
    rw [hmain, hu]
    simp
  refine ⟨⟨h.inv.connects, fun u hu => ?_, fun u task hu halive => ?_, fun u task _ hu hp => ?_,
    fun u q _ hq => ?_⟩, h.inv.started⟩
  · exact ⟨hended u (h.inv.fresh u hu).1, (h.inv.fresh u hu).2⟩
  · have hu' := (hmain u).symm.trans hu
    split_ifs at hu'
    · obtain ⟨old, hold, rfl⟩ := Option.map_eq_some_iff.1 hu'
      exact h.inv.unique u old hold halive
    · exact h.inv.unique u task hu' halive
  · have hu' := (hmain u).symm.trans hu
    split_ifs at hu' with hut
    · obtain ⟨old, hold, rfl⟩ := Option.map_eq_some_iff.1 hu'
      exact hut ▸ h.point
    · exact h.inv.points u task (fun heq => hut (Option.some.inj heq).symm) hu' hp
  · have hut : u ≠ t := by
      rintro rfl
      exact absurd (h.raised q hq) nofun
    have hr : some t ≠ some u := fun heq => hut (Option.some.inj heq).symm
    exact ⟨hended u (h.inv.cancelled u q hr hq).1, (h.inv.cancelled u q hr hq).2⟩

theorem finish_inv (h : Running t d p s) (hd : d = true → p.final = true) :
    Inv none (finish t s) := by
  have hended := h.emit (e := .ended t) rfl
  have hother : ∀ u, u ≠ t → (finish t s).mainTasks u = s.mainTasks u := fun u hu =>
    Function.update_of_ne hu _ _
  have hself : (finish t s).mainTasks t = none := Function.update_self _ _ _
  refine ⟨⟨hended.inv.connects, fun u hu => ?_, fun u task hu halive => ?_,
    fun u task _ hu hp => ?_, fun u q _ hq => ?_⟩, hended.inv.started⟩
  · refine ⟨?_, (hended.inv.fresh u hu).2⟩
    by_cases hut : u = t
    · rw [hut, hself]
    · rw [hother u hut]
      exact (hended.inv.fresh u hu).1
  · have hut : u ≠ t := by
      rintro rfl
      rw [hself] at hu
      cases hu
    exact hended.inv.unique u task ((hother u hut).symm.trans hu) halive
  · have hut : u ≠ t := by
      rintro rfl
      rw [hself] at hu
      cases hu
    have hr : some t ≠ some u := fun heq => hut (Option.some.inj heq).symm
    exact hended.inv.points u task hr ((hother u hut).symm.trans hu) hp
  · by_cases hut : u = t
    · subst hut
      refine ⟨hself, ?_⟩
      have hpoint := hended.point
      unfold PointOk at hpoint
      rwa [if_pos (hd (hended.raised q hq))] at hpoint
    · have hr : some t ≠ some u := fun heq => hut (Option.some.inj heq).symm
      obtain ⟨hnone, hshut⟩ := hended.inv.cancelled u q hr hq
      exact ⟨(hother u hut).trans hnone, hshut⟩

theorem runMain_inv {as : List Answer} (h : Running t false p s)
    (hp : p.first = true → s.task = some t)
    (hsafe : Always Event.Heeded (runMain t as p s).log) : Inv none (runMain t as p s) := by
  induction as generalizing p s with
  | nil => exact suspendAt_inv h
  | cons a as ih =>
    have hsuffix : (advance t a p s).2.log <:+ (runMain t (a :: as) p s).log := by
      rw [runMain]
      generalize advance t a p s = r
      obtain ⟨next, s'⟩ := r
      cases next with
      | goto q =>
        dsimp only
        split_ifs
        · exact List.suffix_rfl
        · exact runMain_suffix t as q s'
      | suspend => exact List.suffix_rfl
      | exit => exact List.suffix_cons _ _
    have hnext := advance_ok h hp (hsafe.suffix hsuffix)
    rw [runMain] at hsafe ⊢
    generalize advance t a p s = r at hnext hsafe
    obtain ⟨next, s'⟩ := r
    cases next with
    | goto q =>
      obtain ⟨hcreated, hrun⟩ := hnext
      dsimp only at hsafe ⊢
      split_ifs at hsafe ⊢ with hwaits
      · exact suspendAt_inv hrun
      · refine ih hrun (fun hfirst => ?_) hsafe
        cases q <;> first | exact absurd rfl hcreated | exact absurd hfirst hwaits
    | suspend => exact suspendAt_inv hnext
    | exit => exact finish_inv hnext fun hd => absurd hd Bool.false_ne_true

/-- `CancelledError` is raised. -/
theorem Running.cancelled {task : Task Await} (h : Inv none s) (ht : s.mainTasks t = some task)
    (hp : task.point.final = true) :
    Running t true task.point (s.emit (.cancelled t task.point)) := by
  have hmem : ∀ e : Event, e ≠ .cancelled t task.point → e ∈ .cancelled t task.point :: s.log →
      e ∈ s.log := fun e he hm => (List.mem_cons.1 hm).resolve_left he
  refine ⟨⟨⟨⟨trivial, h.connects⟩, fun u hu => ?_, h.unique, fun u other _ hu hq => ?_,
    fun u q hr hq => ?_⟩, h.started⟩, fun hn => ?_, fun _ _ => rfl, ?_⟩
  · obtain ⟨hmain, hno, hnc⟩ := h.fresh u hu
    refine ⟨hmain, fun conn hc => hno conn (hmem _ nofun hc), fun q hq => hnc q (hmem _ ?_ hq)⟩
    rintro ⟨⟩
    rw [ht] at hmain
    cases hmain
  · exact (h.points u other nofun hu hq).emit nofun
  · have hq' := hmem _ (fun heq => hr (congrArg some (Event.cancelled.inj heq).1.symm)) hq
    obtain ⟨hended, hshut⟩ := h.cancelled u q nofun hq'
    exact ⟨hended, hshut.emit nofun⟩
  · exact absurd (ht.symm.trans hn) nofun
  · exact (h.points t task nofun ht fun _ => hp).emit nofun

theorem resumeMain_inv {as : List Answer} (h : Inv none s)
    (hsafe : Always Event.Heeded (resumeMain t a as s).log) : Inv none (resumeMain t a as s) := by
  unfold resumeMain at hsafe ⊢
  cases ht : s.mainTasks t with
  | none => exact h
  | some task =>
    rw [ht] at hsafe
    dsimp only at hsafe ⊢
    split_ifs at hsafe ⊢ with hcan
    · have hsuffix := raiseCancelled_suffix t a task.point (s.emit (.cancelled t task.point))
      have hfinal : task.point.final = true := by
        generalize hr : raiseCancelled t a task.point (s.emit (.cancelled t task.point)) = r
          at hsafe hsuffix
        obtain ⟨next, s'⟩ := r
        cases next with
        | some q =>
          have hrest : s'.log <:+ (runMain t as q (clearCancelled t s')).log :=
            runMain_suffix t as q (clearCancelled t s')
          exact (hsafe.suffix (hsuffix.trans hrest)).1
        | none => exact (hsafe.suffix (hsuffix.trans (List.suffix_cons _ _))).1
      have hrun := Running.cancelled h ht hfinal
      have hcalls := hrun.userCalls a
      have hend : ∀ q s', Running t true q s' → q.final = true → Inv none (finish t s') :=
        fun q s' hr hq => finish_inv hr fun _ => hq
      cases hp : task.point with
      | created | openConnection | sleep delay =>
        rw [hp] at hrun hfinal
        exact hend _ _ hrun hfinal
      | onConnectFailure | onDisconnected =>
        rw [hp] at hcalls hfinal
        exact hend _ _ hcalls hfinal
      | onConnected | readHeader _ | readPayload _ _ _ | onMessage =>
        rw [hp] at hfinal
        cases hfinal
    · have hcan' : task.cancelled = false := Bool.eq_false_iff.2 hcan
      refine runMain_inv ⟨h.weaken, ?_, ?_, ?_⟩ (fun _ => h.unique t task ht hcan') hsafe
      · rw [ht]
        exact nofun
      · intro q hq
        exact absurd (ht.symm.trans (h.cancelled t q nofun hq).1) nofun
      · exact h.points t task nofun ht fun hc => absurd hc hcan

theorem resumeKeepAlive_inv (h : Inv none s) (timeout : Bool) :
    Inv none (resumeKeepAlive t timeout s) := by
  have hset : ∀ task (s' : Client), Inv none s' → Inv none (s'.setKeepAlive t task) :=
    fun task s' hs => ⟨hs.toTasksOk.same rfl rfl rfl rfl (Nat.le_refl _), hs.started⟩
  have hpong : ∀ f, Inv none { s with pongSet := f } := fun f =>
    ⟨h.toTasksOk.same rfl rfl rfl rfl (Nat.le_refl _), h.started⟩
  have hclose : ∀ s', Inv none s' → Inv none (close s') := fun s' hs => by
    refine ⟨hs.toTasksOk.close, ?_⟩
    unfold close
    split
    · exact hs.started
    · exact hs.started
  unfold resumeKeepAlive
  cases s.keepAliveTasks t with
  | none => exact h
  | some task =>
    dsimp only
    split_ifs
    · exact hset _ s h
    · exact hclose _ (hset _ s h)
    · split
      · exact hset _ s h
      · split
        · exact hset _ _ ((hpong _).emit (e := .write _ _) rfl)
        · exact hclose _ (hset _ _ (hpong _))
        · exact hclose _ (hset _ s h)
      · split_ifs
        · exact hset _ s h
        · exact hclose _ (hset _ s h)

theorem step_inv (x : Step) (h : Inv none s) (hsafe : Always Event.Heeded (step x s).log) :
    Inv none (step x s) := by
  cases x with
  | call c => exact call_inv c h
  | main t a as => exact resumeMain_inv h hsafe
  | keepAlive t timeout => exact resumeKeepAlive_inv h timeout

/-- Every run in which each `stop()` is heeded keeps the invariant. -/
theorem run_inv (steps : List Step) (hsafe : Always Event.Heeded (run steps).log) :
    Inv none (run steps) := by
  induction steps using List.reverseRecOn with
  | nil => exact ⟨⟨trivial, fun _ _ => ⟨rfl, nofun, nofun⟩, nofun, nofun, nofun⟩, rfl⟩
  | append_singleton steps x ih =>
    have hrun : run (steps ++ [x]) = step x (run steps) := List.foldl_concat _ _ _ _
    rw [hrun] at hsafe ⊢
    exact step_inv x (ih (hsafe.suffix (step_suffix x _))) hsafe

namespace Sample

/-- Nothing comes of it. -/
def nothing : Answer := ⟨.raises, none, true, [], .suspends⟩

/-- A callback makes some calls and returns. -/
def callback (calls : List Call) : Answer :=
  { nothing with calls := calls, user := .returns (some 1) }

/-- The main task is started and connects, `on_connected()` returns, and the reader loop waits. -/
def connectSteps (t : ℕ) : List Step :=
  [.call .start, .main t nothing [],
    .main t { nothing with connect := .connected } [callback []]]

end Sample

open Sample

/-- A connection attempt is stopped, the next one succeeds, the connection is closed by the server,
and the client is stopped while `on_disconnected()` waits. -/
def stopWaitingSteps : List Step :=
  [.call .start, .main 0 nothing [], .call .stop, .main 0 nothing []] ++ connectSteps 1 ++
    [.main 1 nothing [], .call .stop, .main 1 nothing []]

/-- The client is stopped while the reader loop waits for a header. -/
def stopReadingSteps : List Step :=
  connectSteps 0 ++ [.call .stop, .main 0 nothing [callback []]]

end

end Messi.PyClient
