import Messi.PyClient.Model

/-!
# The log only grows

Whatever the Python client does, the log of what it has done before stays.
-/

namespace Messi.PyClient

section

theorem call_suffix (c : Call) (s : Client) : s.log <:+ (call c s).log := by
  cases c with
  | start =>
    show s.log <:+ (clientStart s).log
    unfold clientStart
    dsimp only
    split_ifs <;> exact List.suffix_cons _ _
  | stop =>
    show s.log <:+ (clientStop s).log
    unfold clientStop
    dsimp only
    split <;> exact List.suffix_cons _ _
  | send encoded =>
    show s.log <:+ (clientSend s encoded).log
    unfold clientSend
    split_ifs
    · split
      · exact List.suffix_cons _ _
      · exact List.suffix_rfl
    · exact List.suffix_rfl

theorem userCalls_suffix (a : Answer) (s : Client) : s.log <:+ (userCalls a s).log := by
  unfold userCalls
  generalize a.calls = calls
  induction calls generalizing s with
  | nil => exact List.suffix_rfl
  | cons c calls ih => exact (call_suffix c s).trans (ih _)

theorem close_suffix (s : Client) : s.log <:+ (close s).log := by
  unfold close
  split
  · exact List.suffix_cons _ _
  · exact List.suffix_rfl

theorem readerLoopStopped_suffix (t : ℕ) (s : Client) :
    s.log <:+ (readerLoopStopped t s).log := by
  refine (close_suffix s).trans ?_
  unfold readerLoopStopped cancelKeepAlive
  split <;> exact List.suffix_cons _ _

theorem handleMessage_suffix (t : ℕ) (a : Answer) (m : Message) (s : Client) :
    s.log <:+ (handleMessage t a m s).2.log := by
  have hmsg : s.log <:+ (s.emit (.message t m)).log := List.suffix_cons _ _
  have hstop := hmsg.trans (readerLoopStopped_suffix t _)
  unfold handleMessage
  dsimp only
  split_ifs
  · exact hmsg.trans (List.suffix_cons _ _)
  · exact hstop
  · split
    · rename_i s' hs'
      obtain ⟨event, -, rfl⟩ := Option.map_eq_some_iff.1 hs'
      exact hmsg
    · exact hstop
  · exact hmsg

theorem advance_suffix (t : ℕ) (a : Answer) (p : Await) (s : Client) :
    s.log <:+ (advance t a p s).2.log := by
  have hcalls := userCalls_suffix a s
  have hstop := readerLoopStopped_suffix t s
  cases p with
  | created => exact List.suffix_cons _ _
  | sleep delay => exact List.suffix_cons _ _
  | openConnection =>
    unfold advance
    dsimp only
    split
    · exact (List.suffix_cons _ _).trans (List.suffix_cons _ _)
    · exact List.suffix_cons _ _
    · exact List.suffix_rfl
  | onConnectFailure =>
    unfold advance
    dsimp only
    split <;> exact hcalls
  | onConnected =>
    unfold advance
    dsimp only
    split <;> exact hcalls
  | readHeader reader =>
    unfold advance
    dsimp only
    split
    · exact hstop
    · rename_i conn header _
      have hread : s.log <:+ (s.emit (.read t conn header)).log := List.suffix_cons _ _
      split_ifs
      · exact hread.trans (handleMessage_suffix t a _ _)
      · exact hread
  | readPayload reader type size =>
    unfold advance
    dsimp only
    split
    · exact hstop
    · rename_i conn payload _
      have hread : s.log <:+ (s.emit (.read t conn payload)).log := List.suffix_cons _ _
      exact hread.trans (handleMessage_suffix t a _ _)
  | onMessage =>
    unfold advance
    dsimp only
    split
    · exact hcalls
    · exact hcalls
    · exact hcalls.trans (readerLoopStopped_suffix t _)
  | onDisconnected =>
    unfold advance
    dsimp only
    split
    · exact hcalls
    · exact (hcalls.trans (List.suffix_cons _ _)).trans (List.suffix_cons _ _)
    · exact hcalls

theorem runMain_suffix (t : ℕ) (as : List Answer) (p : Await) (s : Client) :
    s.log <:+ (runMain t as p s).log := by
  induction as generalizing p s with
  | nil => exact List.suffix_rfl
  | cons a as ih =>
    have hadvance := advance_suffix t a p s
    rw [runMain]
    generalize advance t a p s = r at hadvance
    obtain ⟨next, s'⟩ := r
    cases next with
    | goto q =>
      dsimp only
      split_ifs
      · exact hadvance
      · exact hadvance.trans (ih q s')
    | suspend => exact hadvance
    | exit => exact hadvance.trans (List.suffix_cons _ _)

theorem raiseCancelled_suffix (t : ℕ) (a : Answer) (p : Await) (s : Client) :
    s.log <:+ (raiseCancelled t a p s).2.log := by
  have hcalls := userCalls_suffix a s
  cases p with
  | created | openConnection | sleep _ => exact List.suffix_rfl
  | onConnectFailure | onConnected | onDisconnected => exact hcalls
  | readHeader reader | readPayload reader type size => exact readerLoopStopped_suffix t s
  | onMessage => exact hcalls.trans (readerLoopStopped_suffix t _)

theorem resumeKeepAlive_suffix (t : ℕ) (timeout : Bool) (s : Client) :
    s.log <:+ (resumeKeepAlive t timeout s).log := by
  unfold resumeKeepAlive
  cases s.keepAliveTasks t with
  | none => exact List.suffix_rfl
  | some task =>
    dsimp only
    split_ifs
    · exact List.suffix_rfl
    · exact close_suffix (s.setKeepAlive t none)
    · split
      · exact List.suffix_rfl
      · split
        · exact List.suffix_cons _ _
        · rename_i event _ _
          exact close_suffix
            ({ s with pongSet := Function.update s.pongSet event false }.setKeepAlive t none)
        · exact close_suffix (s.setKeepAlive t none)
      · split_ifs
        · exact List.suffix_rfl
        · exact close_suffix (s.setKeepAlive t none)

theorem resumeMain_suffix (t : ℕ) (a : Answer) (as : List Answer) (s : Client) :
    s.log <:+ (resumeMain t a as s).log := by
  unfold resumeMain
  cases s.mainTasks t with
  | none => exact List.suffix_rfl
  | some task =>
    dsimp only
    split_ifs
    · have hcan : s.log <:+ (s.emit (.cancelled t task.point)).log := List.suffix_cons _ _
      have hraise := hcan.trans (raiseCancelled_suffix t a task.point _)
      generalize raiseCancelled t a task.point (s.emit (.cancelled t task.point)) = r at hraise
      obtain ⟨next, s'⟩ := r
      cases next with
      | some q =>
        have hrest : s'.log <:+ (runMain t as q (clearCancelled t s')).log :=
          runMain_suffix t as q (clearCancelled t s')
        exact hraise.trans hrest
      | none => exact hraise.trans (List.suffix_cons _ _)
    · exact runMain_suffix t (a :: as) task.point s

theorem step_suffix (x : Step) (s : Client) : s.log <:+ (step x s).log := by
  cases x with
  | call c => exact call_suffix c s
  | main t a as => exact resumeMain_suffix t a as s
  | keepAlive t timeout => exact resumeKeepAlive_suffix t timeout s

end

end Messi.PyClient
