import Messi.PyClient.Growth

/-!
# Invariants of one main task

A main task has a number of its own, and goes on only when it is resumed. An invariant says what
holds of it at each `await`, and what holds of it in any case; others may cancel the task meanwhile,
and `start()` may create it (`Aside`). What the turns of the task keep, every run keeps
(`MainRule.run`).
-/

namespace Messi.PyClient

/-- The event is one of this main task. -/
def Event.ofMain (t : ℕ) : Event → Bool
  | .openConnection u | .connected u _ | .onConnectFailure u _ | .onConnected u
  | .read u _ _ | .message u _ | .onMessage u _ | .onDisconnected u | .returned u | .cancelled u _
      | .ended u =>
    u == t
  | _ => false

/-- No event of the task occurs, and `_reader` still belongs to the last connection. -/
structure Quiet (t : ℕ) (s s' : Client) : Prop where
  log : ∃ evs, s'.log = evs ++ s.log ∧ ∀ e ∈ evs, e.ofMain t = false
  nextTask : s.nextTask ≤ s'.nextTask
  reader : s.reader = latest s.log → s'.reader = latest s'.log

/-- What others do; they may cancel the task, or create it. -/
structure Aside (t : ℕ) (s s' : Client) : Prop extends Quiet t s s' where
  tasks : ∀ task', s'.mainTasks t = some task' →
    (∃ task, s.mainTasks t = some task ∧ task.point = task'.point) ∨
      task'.point = .created ∧ s.nextTask ≤ t ∧ t < s'.nextTask

/-- What holds after a turn of a task that is at `p`. -/
def NextHolds (I : Await → Client → Prop) (K : Client → Prop) (p : Await) : Next × Client → Prop
  | (.goto q, s) => I q s
  | (.suspend, s) => I p s
  | (.exit, s) => K s

/-- What holds when `CancelledError` has been raised in a task. -/
def RaisedHolds (I : Await → Client → Prop) (K : Client → Prop) : Option Await × Client → Prop
  | (some q, s) => I q s
  | (none, s) => K s

/-- What an invariant has to keep: `I` at the points of the task, `K` when it is about to end, and
`J` in any case. -/
structure MainRule (t : ℕ) (ok : Answer → Await → Client → Prop) (I : Await → Client → Prop)
    (K J : Client → Prop) : Prop where
  init : J clientInit
  forget : ∀ p s, I p s → J s
  quiet : ∀ p s s', Quiet t s s' → I p s → I p s'
  rest : ∀ s s', Quiet t s s' → J s → J s'
  created : ∀ s s', Quiet t s s' → s.nextTask ≤ t → t < s'.nextTask → J s → I .created s'
  advance : ∀ a p s, I p s → ok a p s → NextHolds I K p (advance t a p s)
  raised : ∀ a p s, I p s → RaisedHolds I K (raiseCancelled t a p (s.emit (.cancelled t p)))
  ended : ∀ s, K s → J (finish t s)

/-- What holds of the task between two steps. -/
structure MainHolds (t : ℕ) (I : Await → Client → Prop) (J : Client → Prop) (s : Client) :
    Prop where
  rest : J s
  point : ∀ task, s.mainTasks t = some task → I task.point s

/-! ## What the answers keep to -/

/-- What holds of the `await` that the coroutine goes on from at once, if there is one. -/
def Next.Goes (P : Await → Prop) : Next → Prop
  | .goto q => q.waits = false → P q
  | .suspend | .exit => True

instance (P : Await → Prop) [DecidablePred P] : DecidablePred (Next.Goes P)
  | .goto q => inferInstanceAs (Decidable (q.waits = false → P q))
  | .suspend | .exit => isTrue trivial

/-- The answers are as `ok` says, for a task that runs from `p` on. -/
def AnswersOk (ok : Answer → Await → Client → Prop) (t : ℕ) : List Answer → Await → Client → Prop
  | [], _, _ => True
  | a :: as, p, s =>
    ok a p s ∧ (advance t a p s).1.Goes fun q => AnswersOk ok t as q (advance t a p s).2

/-- The answers to a main task that is resumed; one that has been cancelled may go on elsewhere. -/
def StepOk (ok : Answer → Await → Client → Prop) (t : ℕ) : Step → Client → Prop
  | .main u a as, s => u = t → ∀ task ∈ s.mainTasks t,
    if task.cancelled then
      let raised := raiseCancelled t a task.point (s.emit (.cancelled t task.point))
      ∀ q ∈ raised.1, AnswersOk ok t as q (clearCancelled t raised.2)
    else AnswersOk ok t (a :: as) task.point s
  | _, _ => True

def RunOk (ok : Answer → Await → Client → Prop) (t : ℕ) : List Step → Client → Prop
  | [], _ => True
  | x :: xs, s => StepOk ok t x s ∧ RunOk ok t xs (step x s)

section

variable (ok : Answer → Await → Client → Prop) [∀ a p s, Decidable (ok a p s)] (t : ℕ)

instance AnswersOk.decidable : ∀ as p s, Decidable (AnswersOk ok t as p s)
  | [], _, _ => isTrue trivial
  | a :: as, p, s =>
    have := fun q => AnswersOk.decidable as q (advance t a p s).2
    inferInstanceAs (Decidable (ok a p s ∧ Next.Goes _ _))

instance : ∀ x s, Decidable (StepOk ok t x s)
  | .main u _ _, s => inferInstanceAs (Decidable (u = t → ∀ task ∈ s.mainTasks t, ite _ _ _))
  | .call _, _ | .keepAlive _ _, _ => isTrue trivial

instance RunOk.decidable : ∀ xs s, Decidable (RunOk ok t xs s)
  | [], _ => isTrue trivial
  | x :: xs, s =>
    have := RunOk.decidable xs (step x s)
    inferInstanceAs (Decidable (StepOk ok t x s ∧ _))

end

section

variable {t u : ℕ} {p q : Await} {s s' s'' : Client} {a : Answer} {e : Event} {l evs : List Event}
  {ok : Answer → Await → Client → Prop} {I : Await → Client → Prop} {K J : Client → Prop}

/-! ## Aside -/

theorem ofMain_ne (hu : u ≠ t) : (u == t) = false := beq_false_of_ne hu

theorem Quiet.of_log (hlog : s'.log = s.log) (hnext : s.nextTask ≤ s'.nextTask)
    (hreader : s'.reader = s.reader) : Quiet t s s' :=
  ⟨⟨[], hlog, fun _ h => absurd h List.not_mem_nil⟩, hnext, fun h => by rw [hreader, hlog, h]⟩

theorem Quiet.refl (t : ℕ) (s : Client) : Quiet t s s := .of_log rfl le_rfl rfl

theorem Quiet.trans (h : Quiet t s s') (h' : Quiet t s' s'') : Quiet t s s'' := by
  obtain ⟨evs, hlog, hevs⟩ := h.log
  obtain ⟨evs', hlog', hevs'⟩ := h'.log
  refine ⟨⟨evs' ++ evs, ?_, fun e he => ?_⟩, h.nextTask.trans h'.nextTask,
    fun hr => h'.reader (h.reader hr)⟩
  · rw [hlog', hlog, List.append_assoc]
  · exact (List.mem_append.1 he).elim (hevs' e) (hevs e)

theorem Quiet.emit (s : Client) (he : e.ofMain t = false)
    (hl : latest (e :: s.log) = latest s.log) :
    Quiet t s (s.emit e) :=
  ⟨⟨[e], rfl, by simpa using he⟩, le_rfl, fun h => h.trans hl.symm⟩

theorem Aside.refl (t : ℕ) (s : Client) : Aside t s s :=
  ⟨Quiet.refl t s, fun task h => Or.inl ⟨task, h, rfl⟩⟩

theorem Aside.of_quiet (h : Quiet t s s') (hmain : s'.mainTasks = s.mainTasks) : Aside t s s' :=
  ⟨h, fun task ht => Or.inl ⟨task, hmain ▸ ht, rfl⟩⟩

theorem Aside.same (hlog : s'.log = s.log) (hnext : s'.nextTask = s.nextTask)
    (hreader : s'.reader = s.reader) (hmain : s'.mainTasks = s.mainTasks) : Aside t s s' :=
  .of_quiet (.of_log hlog hnext.ge hreader) hmain

theorem Aside.emit (s : Client) (he : e.ofMain t = false)
    (hl : latest (e :: s.log) = latest s.log) : Aside t s (s.emit e) :=
  .of_quiet (Quiet.emit s he hl) rfl

theorem Aside.trans (h : Aside t s s') (h' : Aside t s' s'') : Aside t s s'' := by
  refine ⟨h.toQuiet.trans h'.toQuiet, fun task'' htask'' => ?_⟩
  rcases h'.tasks task'' htask'' with ⟨task', htask', heq'⟩ | ⟨hp, hle, hlt⟩
  · rcases h.tasks task' htask' with ⟨task, htask, heq⟩ | ⟨hp, hle, hlt⟩
    · exact Or.inl ⟨task, htask, heq.trans heq'⟩
    · exact Or.inr ⟨heq' ▸ hp, hle, hlt.trans_le h'.nextTask⟩
  · exact Or.inr ⟨hp, h.nextTask.trans hle, hlt⟩

/-- One main task is set. -/
theorem Aside.setMain (s : Client) {task' : Option (Task Await)}
    (h : u = t → ∀ task, task' = some task →
      ∃ task₀, s.mainTasks t = some task₀ ∧ task₀.point = task.point) :
    Aside t s (s.setMain u task') := by
  refine ⟨.of_log rfl le_rfl rfl, fun task htask => Or.inl ?_⟩
  by_cases hu : u = t
  · subst hu
    have hself : (s.setMain u task').mainTasks u = task' := Function.update_self _ _ _
    exact h rfl task (hself.symm.trans htask)
  · have hother : (s.setMain u task').mainTasks t = s.mainTasks t :=
      Function.update_of_ne (Ne.symm hu) _ _
    exact ⟨task, hother.symm.trans htask, rfl⟩

theorem setMain_aside (hu : u ≠ t) (s : Client) (task : Option (Task Await)) :
    Aside t s (s.setMain u task) :=
  Aside.setMain s fun h => absurd h hu

theorem setKeepAlive_aside (s : Client) (u : ℕ) (task : Option (Task KeepAliveAwait)) :
    Aside t s (s.setKeepAlive u task) :=
  Aside.same rfl rfl rfl rfl

/-! ## Calls -/

theorem cancelMain_aside (s : Client) (u : ℕ) : Aside t s (cancelMain s u) := by
  refine Aside.setMain s fun hu task htask => ?_
  subst hu
  obtain ⟨task₀, htask₀, rfl⟩ := Option.map_eq_some_iff.1 htask
  exact ⟨task₀, htask₀, rfl⟩

/-- A task is created. -/
theorem create_aside (s : Client) : Aside t s { s.setMain s.nextTask (some ⟨.created, false⟩) with
    task := some s.nextTask
    nextTask := s.nextTask + 1 } := by
  refine ⟨.of_log rfl (Nat.le_succ _) rfl, fun task htask => ?_⟩
  by_cases hu : s.nextTask = t
  · subst hu
    have hself : (s.setMain s.nextTask (some ⟨.created, false⟩)).mainTasks s.nextTask =
        some ⟨.created, false⟩ := Function.update_self _ _ _
    cases hself.symm.trans htask
    exact Or.inr ⟨rfl, le_rfl, Nat.lt_succ_self _⟩
  · have hother : (s.setMain s.nextTask (some ⟨.created, false⟩)).mainTasks t = s.mainTasks t :=
      Function.update_of_ne (Ne.symm hu) _ _
    exact Or.inl ⟨task, hother.symm.trans htask, rfl⟩

theorem call_aside (c : Call) (s : Client) : Aside t s (call c s) := by
  cases c with
  | start =>
    show Aside t s (clientStart s)
    have hstart : Aside t s (s.emit .start) := Aside.emit s rfl rfl
    unfold clientStart
    dsimp only
    split_ifs
    · exact hstart.trans (create_aside (s.emit .start))
    · exact hstart
  | stop =>
    show Aside t s (clientStop s)
    have hstop : Aside t s (s.emit .stop) := Aside.emit s rfl rfl
    unfold clientStop
    dsimp only
    split
    · rename_i u _
      exact (hstop.trans (cancelMain_aside (s.emit .stop) u)).trans (Aside.same rfl rfl rfl rfl)
    · exact hstop
  | send encoded =>
    show Aside t s (clientSend s encoded)
    unfold clientSend
    split_ifs
    · split
      · exact Aside.emit s rfl rfl
      · exact Aside.refl t s
    · exact Aside.refl t s

theorem userCalls_aside (a : Answer) (s : Client) : Aside t s (userCalls a s) := by
  unfold userCalls
  generalize a.calls = calls
  induction calls generalizing s with
  | nil => exact Aside.refl t s
  | cons c calls ih => exact (call_aside c s).trans (ih _)

/-! ## Closing -/

theorem close_aside (s : Client) : Aside t s (close s) := by
  unfold close
  split
  · rename_i conn _
    exact (Aside.emit s (e := .close conn) rfl rfl).trans (Aside.same rfl rfl rfl rfl)
  · exact Aside.refl t s

theorem cancelKeepAlive_aside (s : Client) : Aside t s (cancelKeepAlive s) := by
  unfold cancelKeepAlive
  split
  · exact Aside.same rfl rfl rfl rfl
  · exact Aside.refl t s

/-- The reader loop is left; only that the callback is called is an event of the task. -/
theorem readerLoopStopped_eq (t u : ℕ) (s : Client) :
    ∃ s', Aside t s s' ∧ readerLoopStopped u s = s'.emit (.onDisconnected u) :=
  ⟨cancelKeepAlive (close s), (close_aside s).trans (cancelKeepAlive_aside _), rfl⟩

/-! ## Other main tasks -/

theorem readerLoopStopped_aside (hu : u ≠ t) (s : Client) : Aside t s (readerLoopStopped u s) := by
  obtain ⟨s', haside, heq⟩ := readerLoopStopped_eq t u s
  rw [heq]
  exact haside.trans (Aside.emit s' (ofMain_ne hu) rfl)

theorem handleMessage_aside (hu : u ≠ t) (a : Answer) (m : Message) (s : Client) :
    Aside t s (handleMessage u a m s).2 := by
  have hmsg : Aside t s (s.emit (.message u m)) := Aside.emit s (ofMain_ne hu) rfl
  have hstop := hmsg.trans (readerLoopStopped_aside hu (s.emit (.message u m)))
  unfold handleMessage
  dsimp only
  split_ifs
  · exact hmsg.trans (Aside.emit _ (ofMain_ne hu) rfl)
  · exact hstop
  · split
    · rename_i s' hs'
      obtain ⟨event, -, rfl⟩ := Option.map_eq_some_iff.1 hs'
      exact hmsg.trans (Aside.same rfl rfl rfl rfl)
    · exact hstop
  · exact hmsg

theorem startReading_aside (s : Client) : Aside t s (startReading s).2 :=
  .of_quiet (.of_log rfl (Nat.le_succ _) rfl) rfl

theorem advance_aside (hu : u ≠ t) (a : Answer) (p : Await) (s : Client) :
    Aside t s (advance u a p s).2 := by
  have hcalls := userCalls_aside (t := t) a s
  have hconnect : ∀ s, Aside t s (connect u s).2 := fun s => Aside.emit s (ofMain_ne hu) rfl
  have hread : ∀ conn bs, Aside t s (s.emit (.read u conn bs)) := fun _ _ =>
    Aside.emit s (ofMain_ne hu) rfl
  cases p with
  | created => exact hconnect s
  | sleep delay => exact hconnect s
  | openConnection =>
    unfold advance
    dsimp only
    split
    · have hconn : Aside t s (({ s with
          reader := some s.nextConn, writer := some s.nextConn, nextConn := s.nextConn + 1 } :
          Client).emit (.connected u s.nextConn)) :=
        .of_quiet ⟨⟨[.connected u s.nextConn], rfl, by simpa [Event.ofMain] using hu⟩, le_rfl,
          fun _ => rfl⟩ rfl
      exact hconn.trans (Aside.emit _ (e := .onConnected u) (ofMain_ne hu) rfl)
    · exact Aside.emit s (ofMain_ne hu) rfl
    · exact Aside.refl t s
  | onConnectFailure =>
    unfold advance
    dsimp only
    split <;> exact hcalls
  | onConnected =>
    unfold advance
    dsimp only
    split
    · exact hcalls
    · exact hcalls.trans (startReading_aside _)
    · exact hcalls
  | readHeader reader =>
    unfold advance
    dsimp only
    split
    · exact readerLoopStopped_aside hu s
    · split_ifs
      · exact (hread _ _).trans (handleMessage_aside hu a _ _)
      · exact hread _ _
  | readPayload reader type size =>
    unfold advance
    dsimp only
    split
    · exact readerLoopStopped_aside hu s
    · exact (hread _ _).trans (handleMessage_aside hu a _ _)
  | onMessage =>
    unfold advance
    dsimp only
    split
    · exact hcalls
    · exact hcalls
    · exact hcalls.trans (readerLoopStopped_aside hu _)
  | onDisconnected =>
    unfold advance
    dsimp only
    split
    · exact hcalls
    · exact (hcalls.trans (Aside.emit _ (e := .returned u) (ofMain_ne hu) rfl)).trans (hconnect _)
    · exact hcalls

theorem finish_aside (hu : u ≠ t) (s : Client) : Aside t s (finish u s) :=
  (setMain_aside hu s none).trans (Aside.emit _ (e := .ended u) (ofMain_ne hu) rfl)

theorem runMain_aside (hu : u ≠ t) (as : List Answer) (p : Await) (s : Client) :
    Aside t s (runMain u as p s) := by
  induction as generalizing p s with
  | nil => exact setMain_aside hu s _
  | cons a as ih =>
    have hnext := advance_aside hu a p s
    rw [runMain]
    generalize advance u a p s = r at hnext
    obtain ⟨next, s'⟩ := r
    cases next with
    | goto q =>
      dsimp only
      split_ifs
      · exact hnext.trans (setMain_aside hu s' _)
      · exact hnext.trans (ih q s')
    | suspend => exact hnext.trans (setMain_aside hu s' _)
    | exit => exact hnext.trans (finish_aside hu s')

theorem raiseCancelled_aside (hu : u ≠ t) (a : Answer) (p : Await) (s : Client) :
    Aside t s (raiseCancelled u a p s).2 := by
  have hcalls := userCalls_aside (t := t) a s
  cases p with
  | created | openConnection | sleep delay => exact Aside.refl t s
  | onConnectFailure | onConnected | onDisconnected => exact hcalls
  | readHeader reader | readPayload reader type size => exact readerLoopStopped_aside hu s
  | onMessage => exact hcalls.trans (readerLoopStopped_aside hu _)

theorem resumeMain_aside (hu : u ≠ t) (a : Answer) (as : List Answer) (s : Client) :
    Aside t s (resumeMain u a as s) := by
  unfold resumeMain
  split
  · exact Aside.refl t s
  · rename_i task _
    split_ifs
    · have hraised := (Aside.emit s (e := .cancelled u task.point) (ofMain_ne hu) rfl).trans
        (raiseCancelled_aside hu a task.point (s.emit (.cancelled u task.point)))
      split
      · rename_i q s' hq
        rw [hq] at hraised
        exact (hraised.trans (setMain_aside hu s' _)).trans (runMain_aside hu as q _)
      · rename_i s' hq
        rw [hq] at hraised
        exact hraised.trans (finish_aside hu s')
    · exact runMain_aside hu (a :: as) task.point s

/-! ## Keep alive tasks -/

theorem resumeKeepAlive_aside (u : ℕ) (timeout : Bool) (s : Client) :
    Aside t s (resumeKeepAlive u timeout s) := by
  have hclear : ∀ event, Aside t s { s with pongSet := Function.update s.pongSet event false } :=
    fun event => Aside.same rfl rfl rfl rfl
  have hend : Aside t s (s.setKeepAlive u none) := setKeepAlive_aside s u none
  unfold resumeKeepAlive
  split
  · exact Aside.refl t s
  · dsimp only
    split_ifs
    · exact hend
    · exact hend.trans (close_aside _)
    · split
      · exact setKeepAlive_aside s u _
      · split
        · rename_i event conn _ _
          have hping := Aside.emit (t := t) { s with
            pongSet := Function.update s.pongSet event false }
            (e := .write conn (messageTypePing, [])) rfl rfl
          exact ((hclear event).trans hping).trans (setKeepAlive_aside _ u _)
        · rename_i event _ _
          exact ((hclear event).trans (setKeepAlive_aside _ u none)).trans (close_aside _)
        · exact hend.trans (close_aside _)
      · split_ifs
        · exact setKeepAlive_aside s u _
        · exact hend.trans (close_aside _)

/-! ## The task itself -/

/-- `CancelledError` ends the task, or leads it out of the reader loop, after the calls of a
callback maybe. -/
theorem raised_holds (hquiet : ∀ s s', Quiet t s s' → J s → J s')
    (hstop : ∀ s, J s → I .onDisconnected (readerLoopStopped t s))
    (hs : J (s.emit (.cancelled t p))) :
    RaisedHolds I J (raiseCancelled t a p (s.emit (.cancelled t p))) := by
  have hcalls : J (userCalls a (s.emit (.cancelled t p))) :=
    hquiet _ _ (userCalls_aside a _).toQuiet hs
  cases p with
  | created | openConnection | sleep delay => exact hs
  | onConnectFailure | onConnected | onDisconnected => exact hcalls
  | readHeader reader | readPayload reader type size => exact hstop _ hs
  | onMessage => exact hstop _ hcalls

theorem Aside.holds (h : Aside t s s') (hrule : MainRule t ok I K J) (hs : MainHolds t I J s) :
    MainHolds t I J s' := by
  refine ⟨hrule.rest s s' h.toQuiet hs.rest, fun task' htask' => ?_⟩
  rcases h.tasks task' htask' with ⟨task, htask, heq⟩ | ⟨hp, hle, hlt⟩
  · rw [← heq]
    exact hrule.quiet task.point s s' h.toQuiet (hs.point task htask)
  · rw [hp]
    exact hrule.created s s' h.toQuiet hle hlt hs.rest

theorem suspendAt_holds (hrule : MainRule t ok I K J) (h : I p s) :
    MainHolds t I J (suspendAt t p s) := by
  have hquiet : Quiet t s (suspendAt t p s) := .of_log rfl le_rfl rfl
  refine ⟨hrule.rest s _ hquiet (hrule.forget p s h), fun task htask => ?_⟩
  have hself : (suspendAt t p s).mainTasks t =
      (s.mainTasks t).map fun task => { task with point := p } := Function.update_self _ _ _
  obtain ⟨task₀, -, rfl⟩ := Option.map_eq_some_iff.1 (hself.symm.trans htask)
  exact hrule.quiet p s _ hquiet h

theorem finish_holds (hrule : MainRule t ok I K J) (h : K s) : MainHolds t I J (finish t s) := by
  refine ⟨hrule.ended s h, fun task htask => ?_⟩
  have hself : (finish t s).mainTasks t = none := Function.update_self _ _ _
  rw [hself] at htask
  cases htask

theorem runMain_holds (hrule : MainRule t ok I K J) {as : List Answer} (h : I p s)
    (hans : AnswersOk ok t as p s) : MainHolds t I J (runMain t as p s) := by
  induction as generalizing p s with
  | nil => exact suspendAt_holds hrule h
  | cons a as ih =>
    obtain ⟨ha, hrest⟩ := hans
    have hnext := hrule.advance a p s h ha
    rw [runMain]
    generalize advance t a p s = r at hnext hrest
    obtain ⟨next, s'⟩ := r
    cases next with
    | goto q =>
      dsimp only
      split_ifs with hwaits
      · exact suspendAt_holds hrule hnext
      · exact ih hnext (hrest (Bool.eq_false_iff.2 hwaits))
    | suspend => exact suspendAt_holds hrule hnext
    | exit => exact finish_holds hrule hnext

theorem resumeMain_holds (hrule : MainRule t ok I K J) {as : List Answer} (h : MainHolds t I J s)
    (hans : StepOk ok t (.main t a as) s) : MainHolds t I J (resumeMain t a as s) := by
  unfold resumeMain
  split
  · exact h
  · rename_i task htask
    have hok := hans rfl task htask
    have hpoint := h.point task htask
    split_ifs at hok ⊢ with hcancelled
    · have hraised := hrule.raised a task.point s hpoint
      split
      · rename_i q s' hq
        rw [hq] at hraised hok
        have hquiet : Quiet t s' (clearCancelled t s') := .of_log rfl le_rfl rfl
        exact runMain_holds hrule (hrule.quiet q s' _ hquiet hraised) (hok q rfl)
      · rename_i s' hq
        rw [hq] at hraised
        exact finish_holds hrule hraised
    · exact runMain_holds hrule hpoint hok

/-! ## Runs -/

theorem step_holds (hrule : MainRule t ok I K J) {x : Step} (h : MainHolds t I J s)
    (hans : StepOk ok t x s) : MainHolds t I J (step x s) := by
  cases x with
  | call c => exact (call_aside c s).holds hrule h
  | main u a as =>
    by_cases hu : u = t
    · subst hu
      exact resumeMain_holds hrule h hans
    · exact (resumeMain_aside hu a as s).holds hrule h
  | keepAlive u timeout => exact (resumeKeepAlive_aside u timeout s).holds hrule h

theorem steps_hold (hrule : MainRule t ok I K J) {steps : List Step} (h : MainHolds t I J s)
    (hans : RunOk ok t steps s) : MainHolds t I J (steps.foldl (fun s x => step x s) s) := by
  induction steps generalizing s with
  | nil => exact h
  | cons x steps ih => exact ih (step_holds hrule h hans.1) hans.2

/-- What the turns of a task keep holds of it in every run. -/
theorem MainRule.run (hrule : MainRule t ok I K J) {steps : List Step}
    (hans : RunOk ok t steps clientInit) : MainHolds t I J (run steps) :=
  steps_hold hrule ⟨hrule.init, nofun⟩ hans

/-! ## Answers of any kind -/

theorem answersOk_of_forall (h : ∀ a p s, ok a p s) (as : List Answer) (p : Await) (s : Client) :
    AnswersOk ok t as p s := by
  induction as generalizing p s with
  | nil => trivial
  | cons a as ih =>
    refine ⟨h a p s, ?_⟩
    cases (advance t a p s).1 with
    | goto q => exact fun _ => ih q _
    | suspend | exit => trivial

theorem runOk_of_forall (h : ∀ a p s, ok a p s) (steps : List Step) (s : Client) :
    RunOk ok t steps s := by
  induction steps generalizing s with
  | nil => trivial
  | cons x steps ih =>
    refine ⟨?_, ih _⟩
    cases x with
    | call c => trivial
    | keepAlive u timeout => trivial
    | main u a as =>
      intro _ task _
      split_ifs
      · exact fun q _ => answersOk_of_forall h as q _
      · exact answersOk_of_forall h (a :: as) task.point s

end

end Messi.PyClient
