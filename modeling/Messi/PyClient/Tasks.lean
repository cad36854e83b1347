import Messi.PyClient.Growth

/-!
# The main tasks of the Python client

As long as every `stop()` is heeded, at most one main task is alive, and every connection that a
main task has not closed is the one that the client writes to (`TasksOk`). A task is alive until it
is cancelled, which it may be by itself, while it is running: what holds of the one that is running
is said by `Running`.
-/

namespace Messi.PyClient

open Trace

/-- The main task ends, and leaves no connection open, when `CancelledError` is raised here. -/
def Await.final : Await → Bool
  | .onConnected | .readHeader _ | .readPayload .. | .onMessage => false
  | _ => true

/-- A connection is asked for while the client is started. -/
def Event.NotStopped (l : List Event) : Event → Prop
  | .openConnection _ => started l = true
  | _ => True

instance (l : List Event) : DecidablePred (Event.NotStopped l) := fun e => by
  rcases e <;> unfold Event.NotStopped <;> infer_instance

/-! ## The connections of a task -/

/-- All connections of the task are closed. -/
def Shut (t : ℕ) (s : Client) : Prop :=
  ∀ conn, Event.connected t conn ∈ s.log → Event.close conn ∈ s.log

/-- All connections of the task are closed, but for the one that the client writes to. -/
def Owns (t : ℕ) (s : Client) : Prop :=
  ∀ conn, Event.connected t conn ∈ s.log → Event.close conn ∈ s.log ∨ s.writer = some conn

/-- What holds of the connections of a task that is at `p`. -/
def PointOk (t : ℕ) (p : Await) (s : Client) : Prop := if p.final then Shut t s else Owns t s

section

variable {t u : ℕ} {p q : Await} {s s' : Client} {e : Event} {r : Option ℕ} {a : Answer}

theorem Shut.owns (h : Shut t s) : Owns t s := fun conn hc => Or.inl (h conn hc)

theorem PointOk.owns (h : PointOk t p s) : Owns t s := by
  unfold PointOk at h
  split_ifs at h
  · exact h.owns
  · exact h

theorem Shut.pointOk (h : Shut t s) : PointOk t p s := by
  unfold PointOk
  split_ifs
  · exact h
  · exact h.owns

theorem PointOk.congr (h : PointOk t p s) (hw : s'.writer = s.writer)
    (hcon : ∀ conn, Event.connected t conn ∈ s'.log → Event.connected t conn ∈ s.log)
    (hclose : ∀ conn, Event.close conn ∈ s.log → Event.close conn ∈ s'.log) : PointOk t p s' := by
  unfold PointOk at h ⊢
  split_ifs at h ⊢
  · exact fun conn hc => hclose conn (h conn (hcon conn hc))
  · intro conn hc
    rw [hw]
    exact (h conn (hcon conn hc)).imp_left (hclose conn)

theorem PointOk.emit (h : PointOk t p s) (he : ∀ conn, e ≠ .connected t conn) :
    PointOk t p (s.emit e) := by
  refine h.congr rfl ?_ ?_
  · intro conn hc
    exact (List.mem_cons.1 hc).resolve_left fun heq => he conn heq.symm
  · intro conn hc
    exact List.mem_cons_of_mem e hc

theorem Owns.close (h : Owns t s) : Shut t (close s) := by
  unfold PyClient.close
  cases hw : s.writer with
  | none =>
    intro conn hc
    refine (h conn hc).resolve_right ?_
    rw [hw]
    exact nofun
  | some w =>
    intro conn hc
    rcases h conn ((List.mem_cons.1 hc).resolve_left nofun) with hclosed | howned
    · exact List.mem_cons_of_mem _ hclosed
    · rw [hw] at howned
      obtain rfl := Option.some.inj howned
      exact List.mem_cons_self

/-! ## The invariant -/

/-- What holds of the tasks when every `stop()` has been heeded; `r` is the task that is running. -/
structure TasksOk (r : Option ℕ) (s : Client) : Prop where
  connects : Always Event.NotStopped s.log
  fresh : ∀ t, s.nextTask ≤ t → s.mainTasks t = none ∧
    (∀ conn, Event.connected t conn ∉ s.log) ∧ ∀ p, Event.cancelled t p ∉ s.log
  unique : ∀ t task, s.mainTasks t = some task → task.cancelled = false → s.task = some t
  points : ∀ t task, r ≠ some t → s.mainTasks t = some task →
    (task.cancelled = true → task.point.final = true) → PointOk t task.point s
  cancelled : ∀ t p, r ≠ some t → Event.cancelled t p ∈ s.log → s.mainTasks t = none ∧ Shut t s

/-- There is a main task, maybe one that has ended, just if the client is started. -/
structure Inv (r : Option ℕ) (s : Client) : Prop extends TasksOk r s where
  started : started s.log = s.task.isSome

/-- An event that `TasksOk` is not about. -/
def Event.plain : Event → Bool
  | .openConnection _ | .connected .. | .cancelled .. => false
  | _ => true

theorem TasksOk.same (h : TasksOk r s) (hlog : s'.log = s.log) (hw : s'.writer = s.writer)
    (htask : s'.task = s.task) (hmain : s'.mainTasks = s.mainTasks)
    (hnext : s.nextTask ≤ s'.nextTask) : TasksOk r s' where
  connects := hlog ▸ h.connects
  fresh t ht := by
    rw [hlog, hmain]
    exact h.fresh t (hnext.trans ht)
  unique := by
    rw [htask, hmain]
    exact h.unique
  points t task hr ht hp := by
    rw [hmain] at ht
    exact (h.points t task hr ht hp).congr hw (fun _ hc => hlog ▸ hc) fun _ hc => hlog ▸ hc
  cancelled t p hr hp := by
    rw [hlog] at hp
    obtain ⟨hended, hshut⟩ := h.cancelled t p hr hp
    refine ⟨hmain ▸ hended, fun conn hc => ?_⟩
    rw [hlog] at hc ⊢
    exact hshut conn hc

theorem Shut.emit (h : Shut t s) (he : ∀ conn, e ≠ .connected t conn) : Shut t (s.emit e) := by
  intro conn hc
  have hc' := (List.mem_cons.1 hc).resolve_left fun heq => he conn heq.symm
  exact List.mem_cons_of_mem e (h conn hc')

theorem TasksOk.emit (h : TasksOk r s) (he : e.plain = true) : TasksOk r (s.emit e) := by
  have hcon : ∀ t conn, e ≠ .connected t conn := by
    rintro t conn rfl
    cases he
  have hcan : ∀ t p, e ≠ .cancelled t p := by
    rintro t p rfl
    cases he
  constructor
  case connects =>
    refine ⟨?_, h.connects⟩
    cases e <;> first | exact trivial | cases he
  case fresh =>
    intro t ht
    obtain ⟨hmain, hno, hnc⟩ := h.fresh t ht
    refine ⟨hmain, fun conn hc => ?_, fun p hp => ?_⟩
    · exact hno conn ((List.mem_cons.1 hc).resolve_left fun heq => hcon t conn heq.symm)
    · exact hnc p ((List.mem_cons.1 hp).resolve_left fun heq => hcan t p heq.symm)
  case unique => exact h.unique
  case points =>
    intro t task hr ht hp
    exact (h.points t task hr ht hp).emit (hcon t)
  case cancelled =>
    intro t p hr hp
    have hp' := (List.mem_cons.1 hp).resolve_left fun heq => hcan t p heq.symm
    exact ⟨(h.cancelled t p hr hp').1, (h.cancelled t p hr hp').2.emit (hcon t)⟩

theorem TasksOk.close (h : TasksOk r s) : TasksOk r (close s) := by
  have hpoint : ∀ t p, PointOk t p s → PointOk t p (PyClient.close s) := fun t p hp =>
    hp.owns.close.pointOk
  have hshut : ∀ t, Shut t s → Shut t (PyClient.close s) := fun t ht => ht.owns.close
  revert hpoint hshut
  unfold PyClient.close
  cases hw : s.writer with
  | none => exact fun _ _ => h
  | some w =>
    intro hpoint hshut
    have hemit := h.emit (e := .close w) rfl
    refine ⟨hemit.connects, hemit.fresh, hemit.unique, ?_, ?_⟩
    · intro t task hr ht hp
      exact hpoint t task.point (h.points t task hr ht hp)
    · intro t p hr hp
      have hp' := (List.mem_cons.1 hp).resolve_left nofun
      exact ⟨(h.cancelled t p hr hp').1, hshut t (h.cancelled t p hr hp').2⟩

/-- A new main task is the only one that is alive. -/
theorem TasksOk.addMain (h : TasksOk r s) (htask : s.task = none) :
    TasksOk r { s.setMain s.nextTask (some ⟨.created, false⟩) with
      task := some s.nextTask
      nextTask := s.nextTask + 1 } := by
  obtain ⟨hmain, hno, hnc⟩ := h.fresh s.nextTask (Nat.le_refl _)
  have hold : ∀ t task, t ≠ s.nextTask →
      Function.update s.mainTasks s.nextTask (some ⟨.created, false⟩) t = some task →
      s.mainTasks t = some task :=
        fun t task hne ht => (Function.update_of_ne hne _ _).symm.trans ht
  constructor
  case connects => exact h.connects
  case fresh =>
    intro t ht
    have hne : t ≠ s.nextTask := Nat.ne_of_gt ht
    obtain ⟨hended, hrest⟩ := h.fresh t (Nat.le_of_succ_le ht)
    exact ⟨(Function.update_of_ne hne _ _).trans hended, hrest⟩
  case unique =>
    intro t task ht halive
    by_cases hne : t = s.nextTask
    · rw [hne]
    · have hsome := h.unique t task (hold t task hne ht) halive
      rw [htask] at hsome
      cases hsome
  case points =>
    intro t task hr ht hp
    by_cases hne : t = s.nextTask
    · rw [hne]
      exact Shut.pointOk fun conn hc => absurd hc (hno conn)
    · exact h.points t task hr (hold t task hne ht) hp
  case cancelled =>
    intro t p hr hp
    have hne : t ≠ s.nextTask := by
      rintro rfl
      exact hnc p hp
    exact ⟨(Function.update_of_ne hne _ _).trans (h.cancelled t p hr hp).1,
      (h.cancelled t p hr hp).2⟩

theorem cancelMain_mainTasks (s : Client) (t u : ℕ) : (cancelMain s t).mainTasks u =
    if u = t then (s.mainTasks u).map fun task => { task with cancelled := true }
    else s.mainTasks u := by
  by_cases hu : u = t
  · subst hu
    rw [if_pos rfl]
    exact Function.update_self _ _ _
  · rw [if_neg hu]
    exact Function.update_of_ne hu _ _

/-- When the main task is cancelled, none is alive. -/
theorem TasksOk.cancelMain (h : TasksOk r s) (htask : s.task = some t) :
    TasksOk r { cancelMain s t with task := none } := by
  have hmain := cancelMain_mainTasks s t
  have hended : ∀ u, s.mainTasks u = none → (PyClient.cancelMain s t).mainTasks u = none := by
    intro u hu
    rw [hmain, hu]
    simp
  constructor
  case connects => exact h.connects
  case fresh =>
    intro u hu
    exact ⟨hended u (h.fresh u hu).1, (h.fresh u hu).2⟩
  case unique =>
    intro u task hu halive
    have hu' := (hmain u).symm.trans hu
    split_ifs at hu' with hut
    · obtain ⟨old, -, rfl⟩ := Option.map_eq_some_iff.1 hu'
      cases halive
    · have hsome := h.unique u task hu' halive
      rw [htask] at hsome
      exact absurd (Option.some.inj hsome).symm hut
  case points =>
    intro u task hr hu hp
    have hu' := (hmain u).symm.trans hu
    split_ifs at hu' with hut
    · obtain ⟨old, hold, rfl⟩ := Option.map_eq_some_iff.1 hu'
      exact h.points u old hr hold fun _ => hp rfl
    · exact h.points u task hr hu' hp
  case cancelled =>
    intro u p hr hp
    exact ⟨hended u (h.cancelled u p hr hp).1, (h.cancelled u p hr hp).2⟩

/-! ## Calls -/

theorem clientStart_inv (h : Inv r s) : Inv r (clientStart s) := by
  have hemit := h.toTasksOk.emit (e := .start) rfl
  unfold clientStart
  dsimp only
  split_ifs with htask
  · exact ⟨hemit.addMain htask, rfl⟩
  · exact ⟨hemit, (Option.isSome_iff_ne_none.2 htask).symm⟩

theorem clientStop_inv (h : Inv r s) : Inv r (clientStop s) := by
  have hemit := h.toTasksOk.emit (e := .stop) rfl
  unfold clientStop
  dsimp only
  split
  · rename_i t ht
    exact ⟨hemit.cancelMain ht, rfl⟩
  · rename_i ht
    exact ⟨hemit, by rw [ht]; rfl⟩

theorem clientSend_inv (h : Inv r s) (encoded : List UInt8) : Inv r (clientSend s encoded) := by
  unfold clientSend
  split_ifs
  · split
    · exact ⟨h.toTasksOk.emit rfl, h.started⟩
    · exact h
  · exact h

theorem call_inv (c : Call) (h : Inv r s) : Inv r (call c s) := by
  cases c with
  | start => exact clientStart_inv h
  | stop => exact clientStop_inv h
  | send encoded => exact clientSend_inv h encoded

/-! ## The task that is running -/

/-- A main task is running, and is at `p`; `d` tells whether `CancelledError` has been raised. -/
structure Running (t : ℕ) (d : Bool) (p : Await) (s : Client) : Prop where
  inv : Inv (some t) s
  task : s.mainTasks t ≠ none
  raised : ∀ q, Event.cancelled t q ∈ s.log → d = true
  point : PointOk t p s

variable {d : Bool}

/-- An event that is about neither the tasks nor the calls of the user. -/
def Event.quiet : Event → Bool
  | .start | .stop => false
  | e => e.plain

theorem Event.plain_of_quiet (he : e.quiet = true) : e.plain = true := by
  cases e <;> first | rfl | exact he

theorem started_quiet (he : e.quiet = true) : started (e :: s.log) = started s.log := by
  cases e <;> first | rfl | cases he

theorem Inv.emit (h : Inv r s) (he : e.quiet = true) : Inv r (s.emit e) :=
  ⟨h.toTasksOk.emit (Event.plain_of_quiet he), (started_quiet he).trans h.started⟩

theorem Running.emit (h : Running t d p s) (he : e.quiet = true) : Running t d p (s.emit e) := by
  refine ⟨h.inv.emit he, h.task, fun q hq => ?_, h.point.emit ?_⟩
  · refine h.raised q ((List.mem_cons.1 hq).resolve_left ?_)
    rintro rfl
    cases he
  · rintro conn rfl
    cases he

/-- At `p` a task does not have more open connections than at `q`. -/
theorem Running.at (h : Running t d p s) (hq : q.final = true → p.final = true) :
    Running t d q s := by
  refine ⟨h.inv, h.task, h.raised, ?_⟩
  have hp := h.point
  unfold PointOk at hp ⊢
  split_ifs with hfq
  · rwa [if_pos (hq hfq)] at hp
  · exact PointOk.owns h.point

theorem Running.same (h : Running t d p s) (hlog : s'.log = s.log) (hw : s'.writer = s.writer)
    (htask : s'.task = s.task) (hmain : s'.mainTasks = s.mainTasks)
    (hnext : s.nextTask ≤ s'.nextTask) : Running t d p s' where
  inv := by
    refine ⟨h.inv.toTasksOk.same hlog hw htask hmain hnext, ?_⟩
    rw [hlog, htask]
    exact h.inv.started
  task := hmain ▸ h.task
  raised q hq := h.raised q (hlog ▸ hq)
  point := h.point.congr hw (fun _ hc => hlog ▸ hc) fun _ hc => hlog ▸ hc

theorem Running.close (h : Running t d p s) (q : Await) : Running t d q (close s) := by
  have hpoint : PointOk t q (PyClient.close s) := h.point.owns.close.pointOk
  have hinv := h.inv.toTasksOk.close
  revert hpoint hinv
  unfold PyClient.close
  cases hw : s.writer with
  | none => exact fun hpoint _ => ⟨h.inv, h.task, h.raised, hpoint⟩
  | some w =>
    intro hpoint hinv
    refine ⟨⟨hinv, h.inv.started⟩, h.task, ?_, hpoint⟩
    exact fun q hq => h.raised q ((List.mem_cons.1 hq).resolve_left nofun)

/-- A call of the user gets no connection, and ends no task. -/
structure Frame (s s' : Client) : Prop where
  writer : s'.writer = s.writer
  old : ∀ e ∈ s.log, e ∈ s'.log
  new : ∀ e ∈ s'.log, e.plain = false → e ∈ s.log
  tasks : ∀ t, s.mainTasks t ≠ none → s'.mainTasks t ≠ none

theorem Frame.emit (s : Client) (he : e.plain = true) : Frame s (s.emit e) := by
  refine ⟨rfl, fun e' he' => List.mem_cons_of_mem e he', ?_, fun t ht => ht⟩
  intro e' he' hplain
  refine (List.mem_cons.1 he').resolve_left ?_
  rintro rfl
  exact absurd (he.symm.trans hplain) nofun

theorem call_frame (c : Call) (s : Client) : Frame s (call c s) := by
  cases c with
  | start =>
    have hemit := Frame.emit s (e := .start) rfl
    show Frame s (clientStart s)
    unfold clientStart
    dsimp only
    split_ifs
    · refine ⟨rfl, hemit.old, hemit.new, fun t ht => ?_⟩
      by_cases hnew : t = s.nextTask
      · subst hnew
        simp
      · exact fun hn => ht ((Function.update_of_ne hnew _ _).symm.trans hn)
    · exact hemit
  | stop =>
    have hemit := Frame.emit s (e := .stop) rfl
    show Frame s (clientStop s)
    unfold clientStop
    dsimp only
    split
    · rename_i u hu
      refine ⟨rfl, hemit.old, hemit.new, fun t ht hn => ?_⟩
      have hn' := (cancelMain_mainTasks (s.emit .stop) u t).symm.trans hn
      split_ifs at hn'
      · exact ht (Option.map_eq_none_iff.1 hn')
      · exact ht hn'
    · exact hemit
  | send encoded =>
    show Frame s (clientSend s encoded)
    unfold clientSend
    split_ifs
    · split
      · exact Frame.emit s rfl
      · exact ⟨rfl, fun _ he => he, fun _ he _ => he, fun _ ht => ht⟩
    · exact ⟨rfl, fun _ he => he, fun _ he _ => he, fun _ ht => ht⟩

theorem Running.call (h : Running t d p s) (c : Call) : Running t d p (call c s) := by
  have hframe := call_frame c s
  refine ⟨call_inv c h.inv, hframe.tasks t h.task, ?_, ?_⟩
  · intro q hq
    exact h.raised q (hframe.new _ hq rfl)
  · exact h.point.congr hframe.writer (fun conn hc => hframe.new _ hc rfl)
      fun conn hc => hframe.old _ hc

theorem Running.userCalls (h : Running t d p s) (a : Answer) :
    Running t d p (userCalls a s) := by
  unfold PyClient.userCalls
  generalize a.calls = calls
  induction calls generalizing s with
  | nil => exact h
  | cons c calls ih => exact ih (h.call c)

theorem Running.readerLoopStopped (h : Running t d p s) :
    Running t d .onDisconnected (readerLoopStopped t s) := by
  have hclose := h.close .onDisconnected
  unfold PyClient.readerLoopStopped cancelKeepAlive
  split
  · refine Running.emit (e := .onDisconnected t) ?_ rfl
    exact hclose.same rfl rfl rfl rfl (Nat.le_refl _)
  · exact hclose.emit (e := .onDisconnected t) rfl

/-- A connection is asked for while the client is started. -/
theorem Running.connect (h : Running t d p s) (hp : p.final = true)
    (hst : started s.log = true) : Running t d .openConnection (connect t s).2 := by
  have hshut : Shut t s := by
    have hpoint := h.point
    unfold PointOk at hpoint
    rwa [if_pos hp] at hpoint
  have hmem : ∀ e : Event, e ≠ .openConnection t → e ∈ (s.emit (.openConnection t)).log →
      e ∈ s.log := fun e he hm => (List.mem_cons.1 hm).resolve_left he
  refine ⟨⟨⟨⟨hst, h.inv.connects⟩, ?_, h.inv.unique, ?_, ?_⟩, h.inv.started⟩, h.task, ?_, ?_⟩
  · intro u hu
    obtain ⟨hmain, hno, hnc⟩ := h.inv.fresh u hu
    exact ⟨hmain, fun conn hc => hno conn (hmem _ nofun hc), fun q hq => hnc q (hmem _ nofun hq)⟩
  · intro u task hr hu hq
    exact (h.inv.points u task hr hu hq).emit nofun
  · intro u q hr hq
    obtain ⟨hended, hold⟩ := h.inv.cancelled u q hr (hmem _ nofun hq)
    exact ⟨hended, hold.emit nofun⟩
  · exact fun q hq => h.raised q (hmem (.cancelled t q) nofun hq)
  · exact (hshut.emit (e := .openConnection t) nofun).pointOk

/-- A new connection belongs to the task that asked for it. -/
theorem Running.connected (h : Running t d p s) (hp : p.final = true) (htask : s.task = some t) :
    Running t d .onConnected (({ s with
      reader := some s.nextConn, writer := some s.nextConn, nextConn := s.nextConn + 1 }).emit
        (.connected t s.nextConn)) := by
  have hshut : Shut t s := by
    have hpoint := h.point
    unfold PointOk at hpoint
    rwa [if_pos hp] at hpoint
  have hmem : ∀ e : Event, e ≠ .connected t s.nextConn → e ∈ .connected t s.nextConn :: s.log →
      e ∈ s.log := fun e he hm => (List.mem_cons.1 hm).resolve_left he
  have hother : ∀ u, u ≠ t → Shut u s → Shut u (({ s with
      reader := some s.nextConn, writer := some s.nextConn, nextConn := s.nextConn + 1 }).emit
        (.connected t s.nextConn)) := by
    intro u hut hu conn hc
    refine List.mem_cons_of_mem _ (hu conn (hmem _ ?_ hc))
    rintro ⟨⟩
    exact hut rfl
  refine ⟨⟨⟨⟨trivial, h.inv.connects⟩, ?_, h.inv.unique, ?_, ?_⟩, h.inv.started⟩, h.task, ?_, ?_⟩
  · intro u hu
    obtain ⟨hmain, hno, hnc⟩ := h.inv.fresh u hu
    refine ⟨hmain, fun conn hc => hno conn (hmem _ ?_ hc), fun q hq => hnc q (hmem _ nofun hq)⟩
    rintro ⟨⟩
    exact h.task hmain
  · intro u task hr hu hq
    have hut : u ≠ t := fun heq => hr (congrArg some heq.symm)
    -- the only task that is alive is the one that is running
    have hcan : task.cancelled = true := by
      by_contra hn
      have hsome := h.inv.unique u task hu (Bool.eq_false_iff.2 hn)
      rw [htask] at hsome
      exact hut (Option.some.inj hsome).symm
    have hold := h.inv.points u task hr hu hq
    unfold PointOk at hold
    rw [if_pos (hq hcan)] at hold
    exact (hother u hut hold).pointOk
  · intro u q hr hq
    have hut : u ≠ t := fun heq => hr (congrArg some heq.symm)
    obtain ⟨hended, hold⟩ := h.inv.cancelled u q hr (hmem _ nofun hq)
    exact ⟨hended, hother u hut hold⟩
  · exact fun q hq => h.raised q (hmem (.cancelled t q) nofun hq)
  · intro conn hc
    rcases List.mem_cons.1 hc with hnew | hold
    · obtain ⟨-, rfl⟩ := Event.connected.inj hnew
      exact Or.inr rfl
    · exact Or.inl (List.mem_cons_of_mem _ (hshut conn hold))

end

end Messi.PyClient
