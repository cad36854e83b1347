import Messi.PyClient.Rules
import Messi.PyClient.Stopping

/-!
# The life of a main task

What a main task does, as an observer sees it, is a run of one automaton (`Stage.next`): it
connects, tries again after a failure, is told that it is connected, reads messages and hands them
over, is told that it is disconnected, and connects again. `stop()` leads it to its end, or, out of
the reader loop, to `on_disconnected()`. The tasks follow the automaton one by one, whatever the
others do in between (`py_lifecycle`).
-/

namespace Messi.PyClient

open Trace

/-- What the events of a task have led to. -/
inductive Stage where
  | created
  | connecting
  | failing
  | up
  /-- `on_connected()` has been called. -/
  | greeting
  /-- A header or a payload has been read. -/
  | receiving
  /-- A message has been read. -/
  | handling
  /-- A message has been handed to its callback. -/
  | calling
  /-- `CancelledError` has been raised in the reader loop. -/
  | breaking
  /-- `on_disconnected()` has been called. -/
  | leaving
  | idle
  /-- `CancelledError` has been raised outside of the reader loop. -/
  | dying
  | over
  deriving DecidableEq

/-- What an event of the task leads to. -/
def Stage.next : Stage → Event → Option Stage
  | .created, .openConnection _ | .failing, .openConnection _ | .idle, .openConnection _ =>
    some .connecting
  | .connecting, .connected .. => some .up
  | .connecting, .onConnectFailure .. => some .failing
  | .up, .onConnected _ => some .greeting
  | .greeting, .read .. | .receiving, .read .. | .handling, .read .. | .calling, .read .. =>
    some .receiving
  | .receiving, .message .. => some .handling
  | .handling, .onMessage .. => some .calling
  | .greeting, .onDisconnected _ | .receiving, .onDisconnected _ | .handling, .onDisconnected _
  | .calling, .onDisconnected _ | .breaking, .onDisconnected _ => some .leaving
  | .leaving, .returned _ => some .idle
  | .greeting, .cancelled _ (.readHeader _) | .receiving, .cancelled _ (.readPayload ..)
  | .handling, .cancelled _ (.readHeader _) | .calling, .cancelled _ (.readHeader _)
  | .calling, .cancelled _ .onMessage => some .breaking
  | .created, .cancelled _ .created | .connecting, .cancelled _ .openConnection
  | .failing, .cancelled _ .onConnectFailure | .failing, .cancelled _ (.sleep _)
  | .greeting, .cancelled _ .onConnected | .leaving, .cancelled _ .onDisconnected => some .dying
  | .connecting, .ended _ | .failing, .ended _ | .greeting, .ended _ | .leaving, .ended _
  | .dying, .ended _ => some .over
  | _, _ => none

/-- What the events of a main task have led to, if they follow the automaton. -/
def stage (t : ℕ) : List Event → Option Stage
  | [] => some .created
  | e :: l => if e.ofMain t then (stage t l).bind fun q => q.next e else stage t l

/-- `on_connected()` is the last of the two callbacks of the task to have been called. -/
def called (t : ℕ) : List Event → Bool
  | [] => false
  | .onConnected u :: l => u == t || called t l
  | .onDisconnected u :: l => u != t && called t l
  | _ :: l => called t l

/-- The callbacks of the task alternate, and messages are handed over in between. -/
def Event.Alternates (t : ℕ) (l : List Event) : Event → Prop
  | .onConnected u => u = t → called t l = false
  | .onDisconnected u | .onMessage u _ => u = t → called t l = true
  | _ => True

/-- What holds of a main task at any time. -/
structure Lifecycle (t : ℕ) (l : List Event) : Prop where
  follows : (stage t l).isSome = true
  alternates : Always (Event.Alternates t) l

/-- Where a task can be at a stage. -/
def Await.fits : Await → Stage → Bool
  | .created, .created | .openConnection, .connecting | .onConnectFailure, .failing
  | .sleep _, .failing | .onConnected, .greeting | .readHeader _, .greeting
  | .readHeader _, .handling | .readHeader _, .calling | .readPayload .., .receiving
  | .onMessage, .calling
  | .onDisconnected, .leaving => true
  | _, _ => false

/-- A task has begun, and is at one of these stages. -/
structure Staged (t : ℕ) (P : Stage → Bool) (s : Client) : Prop where
  begun : t < s.nextTask
  stage : ∃ x, stage t s.log = some x ∧ P x = true

/-- A task may end at this stage. -/
def Stage.ends : Stage → Bool
  | .connecting | .failing | .greeting | .leaving | .dying => true
  | _ => false

/-- The events of a task follow the automaton, and there are none before it has begun. -/
structure Follows (t : ℕ) (s : Client) : Prop where
  follows : (stage t s.log).isSome = true
  fresh : s.nextTask ≤ t → stage t s.log = some .created

section

variable {t : ℕ} {p : Await} {s s' : Client} {a : Answer} {x y : Stage} {P Q : Stage → Bool}
  {e : Event} {l evs : List Event}

theorem stage_append (h : ∀ e ∈ evs, e.ofMain t = false) : stage t (evs ++ l) = stage t l := by
  induction evs with
  | nil => rfl
  | cons e evs ih =>
    have he := h e List.mem_cons_self
    rw [List.cons_append, stage, he]
    exact ih fun e' he' => h e' (List.mem_cons_of_mem e he')

theorem Quiet.stage (h : Quiet t s s') : stage t s'.log = stage t s.log := by
  obtain ⟨evs, hlog, hevs⟩ := h.log
  rw [hlog]
  exact stage_append hevs

theorem Quiet.staged (h : Quiet t s s') (hs : Staged t P s) : Staged t P s' :=
  ⟨hs.begun.trans_le h.nextTask, h.stage.symm ▸ hs.stage⟩

theorem Quiet.follows (h : Quiet t s s') (hs : Follows t s) : Follows t s' := by
  constructor <;> rw [h.stage]
  · exact hs.follows
  · exact fun hle => hs.fresh (h.nextTask.trans hle)

theorem Staged.follows (h : Staged t P s) : Follows t s := by
  obtain ⟨x, hx, -⟩ := h.stage
  exact ⟨hx ▸ rfl, fun hle => absurd h.begun (Nat.not_lt.2 hle)⟩

theorem Staged.mono (h : Staged t P s) (hQ : ∀ x, P x = true → Q x = true) : Staged t Q s := by
  obtain ⟨x, hx, hP⟩ := h.stage
  exact ⟨h.begun, x, hx, hQ x hP⟩

/-- An event of the task leads from one stage to the next one. -/
theorem Staged.emit (h : Staged t P s) (he : e.ofMain t = true)
    (hnext : ∀ x, P x = true → ∃ y, x.next e = some y ∧ Q y = true) : Staged t Q (s.emit e) := by
  obtain ⟨x, hx, hP⟩ := h.stage
  obtain ⟨y, hy, hQ⟩ := hnext x hP
  refine ⟨h.begun, y, ?_, hQ⟩
  rw [Client.emit_log, PyClient.stage, if_pos he, hx]
  exact hy

theorem ofMain_self : (t == t) = true := beq_self_eq_true t

/-! ## Turns of the task -/

theorem Staged.connect (h : Staged t P s)
    (hP : ∀ x, P x = true → x.next (.openConnection t) = some .connecting) :
    Staged t Await.openConnection.fits (s.emit (.openConnection t)) :=
  h.emit ofMain_self fun x hx => ⟨_, hP x hx, rfl⟩

theorem Staged.stopped (h : Staged t P s)
    (hP : ∀ x, P x = true → x.next (.onDisconnected t) = some .leaving) :
    Staged t Await.onDisconnected.fits (readerLoopStopped t s) := by
  obtain ⟨s', haside, heq⟩ := readerLoopStopped_eq t t s
  rw [heq]
  exact (haside.toQuiet.staged h).emit ofMain_self fun x hx => ⟨_, hP x hx, rfl⟩

/-- A message is handled when it has been read. -/
theorem handleMessage_staged {m : Message} (h : Staged t (fun x => x = .receiving) s) :
    NextHolds (fun p => Staged t p.fits) (Staged t Stage.ends) p (handleMessage t a m s) := by
  have hmsg : Staged t (fun x => x = .handling) (s.emit (.message t m)) := by
    refine h.emit ofMain_self fun x hx => ?_
    obtain rfl := of_decide_eq_true hx
    exact ⟨_, rfl, rfl⟩
  have hstop := hmsg.stopped fun x hx => by rw [of_decide_eq_true hx]; rfl
  have hnext : ∀ reader, Staged t (Await.readHeader reader).fits (s.emit (.message t m)) := fun _ =>
    hmsg.mono fun x hx => by rw [of_decide_eq_true hx]; rfl
  unfold handleMessage
  dsimp only
  split_ifs
  · refine hmsg.emit (e := .onMessage t m.2) ofMain_self fun x hx => ?_
    obtain rfl := of_decide_eq_true hx
    exact ⟨_, rfl, rfl⟩
  · exact hstop
  · split
    · rename_i s' hs'
      obtain ⟨event, -, rfl⟩ := Option.map_eq_some_iff.1 hs'
      exact ⟨(hnext s.reader).begun, (hnext s.reader).stage⟩
    · exact hstop
  · exact hnext s.reader

theorem Staged.read {conn : ℕ} {bs : List UInt8} (h : Staged t p.fits s)
    (hp : ∀ x, p.fits x = true → x.next (.read t conn bs) = some .receiving) :
    Staged t (fun x => x = .receiving) (s.emit (.read t conn bs)) :=
  h.emit ofMain_self fun x hx => ⟨_, hp x hx, rfl⟩

theorem Staged.advance (h : Staged t p.fits s) (a : Answer) :
    NextHolds (fun p => Staged t p.fits) (Staged t Stage.ends) p (advance t a p s) := by
  have hcalls : Staged t p.fits (userCalls a s) := (userCalls_aside a s).toQuiet.staged h
  cases p with
  | created => exact h.connect fun x hx => by cases x <;> first | rfl | cases hx
  | sleep delay => exact h.connect fun x hx => by cases x <;> first | rfl | cases hx
  | openConnection =>
    unfold PyClient.advance
    dsimp only
    split
    · have hconn : Staged t (fun x => x = .up) (({ s with
          reader := some s.nextConn, writer := some s.nextConn, nextConn := s.nextConn + 1 } :
          Client).emit (.connected t s.nextConn)) := by
        have hsame : Staged t Await.openConnection.fits { s with
            reader := some s.nextConn, writer := some s.nextConn, nextConn := s.nextConn + 1 } :=
          ⟨h.begun, h.stage⟩
        refine hsame.emit ofMain_self fun x hx => ?_
        cases x <;> first | exact ⟨_, rfl, rfl⟩ | cases hx
      refine hconn.emit (e := .onConnected t) ofMain_self fun x hx => ?_
      obtain rfl := of_decide_eq_true hx
      exact ⟨_, rfl, rfl⟩
    · refine h.emit ofMain_self fun x hx => ?_
      cases x <;> first | exact ⟨_, rfl, rfl⟩ | cases hx
    · exact h.mono fun x hx => by cases x <;> first | rfl | cases hx
  | onConnectFailure =>
    have hends : Staged t Stage.ends (userCalls a s) :=
      hcalls.mono fun x hx => by cases x <;> first | rfl | cases hx
    unfold PyClient.advance
    dsimp only
    split
    · exact hcalls
    · exact hends
    · exact hcalls.mono fun x hx => by cases x <;> first | rfl | cases hx
    · exact hends
  | onConnected =>
    unfold PyClient.advance
    dsimp only
    split
    · exact hcalls
    · refine ((startReading_aside _).toQuiet.staged hcalls).mono fun x hx => ?_
      cases x <;> first | rfl | cases hx
    · exact hcalls.mono fun x hx => by cases x <;> first | rfl | cases hx
  | readHeader reader =>
    have hread : ∀ conn bs, Staged t (fun x => x = .receiving) (s.emit (.read t conn bs)) :=
      fun _ _ => h.read fun x hx => by cases x <;> first | rfl | cases hx
    unfold PyClient.advance
    dsimp only
    split
    · exact h.stopped fun x hx => by cases x <;> first | rfl | cases hx
    · split_ifs
      · exact handleMessage_staged (hread _ _)
      · exact (hread _ _).mono fun x hx => by rw [of_decide_eq_true hx]; rfl
  | readPayload reader type size =>
    unfold PyClient.advance
    dsimp only
    split
    · exact h.stopped fun x hx => by cases x <;> first | rfl | cases hx
    · refine handleMessage_staged (h.read fun x hx => ?_)
      cases x <;> first | rfl | cases hx
  | onMessage =>
    unfold PyClient.advance
    dsimp only
    split
    · exact hcalls
    · exact hcalls.mono fun x hx => by cases x <;> first | rfl | cases hx
    · exact hcalls.stopped fun x hx => by cases x <;> first | rfl | cases hx
  | onDisconnected =>
    unfold PyClient.advance
    dsimp only
    split
    · exact hcalls
    · have hback : Staged t (fun x => x = .idle) ((userCalls a s).emit (.returned t)) := by
        refine hcalls.emit ofMain_self fun x hx => ?_
        cases x <;> first | exact ⟨_, rfl, rfl⟩ | cases hx
      exact hback.connect fun x hx => by rw [of_decide_eq_true hx]; rfl
    · exact hcalls.mono fun x hx => by cases x <;> first | rfl | cases hx

/-- `CancelledError` ends a task, or leads it out of the reader loop. -/
theorem Staged.raised (h : Staged t p.fits s) (a : Answer) :
    RaisedHolds (fun p => Staged t p.fits) (Staged t Stage.ends)
      (raiseCancelled t a p (s.emit (.cancelled t p))) := by
  have hcalls : ∀ P, Staged t P (s.emit (.cancelled t p)) →
      Staged t P (userCalls a (s.emit (.cancelled t p))) :=
    fun P hP => (userCalls_aside a _).toQuiet.staged hP
  have hdies : (∀ x, p.fits x = true → x.next (.cancelled t p) = some .dying) →
      Staged t Stage.ends (s.emit (.cancelled t p)) := fun hp =>
    h.emit ofMain_self fun x hx => ⟨_, hp x hx, rfl⟩
  have hbreaks : (∀ x, p.fits x = true → x.next (.cancelled t p) = some .breaking) →
      Staged t (fun x => x = .breaking) (s.emit (.cancelled t p)) := fun hp =>
    h.emit ofMain_self fun x hx => ⟨_, hp x hx, rfl⟩
  cases p with
  | created | openConnection | sleep delay =>
    exact hdies fun x hx => by cases x <;> first | rfl | cases hx
  | onConnectFailure | onConnected | onDisconnected =>
    exact hcalls _ (hdies fun x hx => by cases x <;> first | rfl | cases hx)
  | readHeader reader | readPayload reader type size =>
    refine (hbreaks fun x hx => ?_).stopped fun x hx => by rw [of_decide_eq_true hx]; rfl
    cases x <;> first | rfl | cases hx
  | onMessage =>
    refine (hcalls _ (hbreaks fun x hx => ?_)).stopped fun x hx => by rw [of_decide_eq_true hx]; rfl
    cases x <;> first | rfl | cases hx

theorem Staged.ended (h : Staged t Stage.ends s) : Follows t (finish t s) := by
  have hset : Staged t Stage.ends (s.setMain t none) := ⟨h.begun, h.stage⟩
  have hover : Staged t (fun x => x = .over) ((s.setMain t none).emit (.ended t)) := by
    refine hset.emit ofMain_self fun x hx => ?_
    cases x <;> first | exact ⟨_, rfl, rfl⟩ | cases hx
  exact hover.follows

theorem staged_rule (t : ℕ) : MainRule t (fun _ _ _ => True) (fun p => Staged t p.fits)
    (Staged t Stage.ends) (Follows t) where
  init := ⟨rfl, fun _ => rfl⟩
  forget _ _ h := h.follows
  quiet _ _ _ hq h := hq.staged h
  rest _ _ hq h := hq.follows h
  created _ _ hq hle hlt h := ⟨hlt, .created, hq.stage.trans (h.fresh hle), rfl⟩
  advance a _ _ h _ := h.advance a
  raised a _ _ h := h.raised a
  ended _ h := h.ended

/-! ## What the automaton says -/

/-- What the last callback was, where the stage tells. -/
def Stage.called? : Stage → Option Bool
  | .created | .connecting | .failing | .up | .leaving | .idle => some false
  | .greeting | .receiving | .handling | .calling | .breaking => some true
  | .dying | .over => none

/-- A callback sets it, and no other event changes it. -/
theorem Stage.next_called? (h : x.next e = some y) :
    (∃ u, e = .onConnected u ∧ y = .greeting) ∨ (∃ u, e = .onDisconnected u ∧ y = .leaving) ∨
      (y.called? = none ∨ y.called? = x.called?) ∧
        ∀ l, PyClient.called t (e :: l) = PyClient.called t l := by
  unfold Stage.next at h
  split at h <;> first
    | contradiction
    | cases h; exact Or.inl ⟨_, rfl, rfl⟩
    | cases h; exact Or.inr (Or.inl ⟨_, rfl, rfl⟩)
    | cases h; exact Or.inr (Or.inr ⟨Or.inl rfl, fun _ => rfl⟩)
    | cases h; exact Or.inr (Or.inr ⟨Or.inr rfl, fun _ => rfl⟩)

theorem called_of_other (h : e.ofMain t = false) : called t (e :: l) = called t l := by
  cases e <;> first
    | rfl
    | rw [called, show (_ == t) = false from h, Bool.false_or]
    | rw [called, bne, show (_ == t) = false from h, Bool.not_false, Bool.true_and]

theorem stage_called (h : stage t l = some x) : ∀ b, x.called? = some b → called t l = b := by
  induction l generalizing x with
  | nil =>
    cases h
    intro b hb
    exact Option.some.inj hb
  | cons e l ih =>
    rw [stage] at h
    split_ifs at h with he
    · obtain ⟨y, hy, hnext⟩ := Option.bind_eq_some_iff.1 h
      rcases Stage.next_called? (t := t) hnext with ⟨u, rfl, rfl⟩ | ⟨u, rfl, rfl⟩ | ⟨hcalled, heq⟩
      · intro b hb
        rw [called, show (u == t) = true from he, Bool.true_or]
        exact Option.some.inj hb
      · intro b hb
        rw [called, bne, show (u == t) = true from he, Bool.not_true, Bool.false_and]
        exact Option.some.inj hb
      · intro b hb
        rw [heq]
        rcases hcalled with hnone | hsame
        · rw [hnone] at hb
          cases hb
        · exact ih hy b (hsame ▸ hb)
    · rw [called_of_other (Bool.eq_false_iff.2 he)]
      exact ih h

/-- The callbacks alternate if the events of the task follow the automaton. -/
theorem alternates_of_stage (h : (stage t l).isSome = true) : Always (Event.Alternates t) l := by
  induction l with
  | nil => trivial
  | cons e l ih =>
    rw [stage] at h
    split_ifs at h with he
    · obtain ⟨y, hy⟩ := Option.isSome_iff_exists.1 h
      obtain ⟨x, hx, hnext⟩ := Option.bind_eq_some_iff.1 hy
      refine ⟨?_, ih (hx ▸ rfl)⟩
      have hcalled := stage_called hx
      cases e with
      | onConnected u => exact fun _ => hcalled false (by cases x <;> first | rfl | cases hnext)
      | onDisconnected u => exact fun _ => hcalled true (by cases x <;> first | rfl | cases hnext)
      | onMessage u payload =>
        exact fun _ => hcalled true (by cases x <;> first | rfl | cases hnext)
      | _ => trivial
    · refine ⟨?_, ih h⟩
      cases e with
      | onConnected u | onDisconnected u | onMessage u payload =>
        rintro rfl
        exact absurd (beq_self_eq_true _) he
      | _ => trivial

/-- In every run the events of each main task follow the automaton: `on_connected()` and
`on_disconnected()` are called in turns, and messages are handed over in between. -/
theorem py_lifecycle (t : ℕ) (steps : List Step) : Lifecycle t (run steps).log := by
  have hrule := (staged_rule t).run (runOk_of_forall (fun _ _ _ => trivial) steps clientInit)
  have hfollows : (stage t (run steps).log).isSome = true := hrule.rest.follows
  exact ⟨hfollows, alternates_of_stage hfollows⟩

end

end Messi.PyClient
