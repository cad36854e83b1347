import Mathlib.Logic.Relation
import Messi.PyClient.Model

/-!
# The connections of the Python client

All that a run does to the connections comes down to a few moves (`Move`), whichever tasks make
them: a connection is made, something is written to the one that `_writer` refers to, or that one is
closed. So nothing is written to a connection that has been closed, or that another one has
followed, and no connection is closed twice (`py_writes_open`); one that another one has followed is
not closed at all.
-/

namespace Messi.PyClient

open Relation Trace

/-- A connection that is made is a new one; what is written to, or closed, is the last one that has
been made, and it has not been closed. -/
def Event.OnOpen (l : List Event) : Event → Prop
  | .connected _ conn => ∀ u, .connected u conn ∉ l
  | .write conn _ | .close conn => latest l = some conn ∧ .close conn ∉ l
  | _ => True

/-- The event is none of a connection. -/
def Event.offline : Event → Bool
  | .connected .. | .write .. | .close _ => false
  | _ => true

/-- What is done to the connections at once. -/
inductive Move (s : Client) : Client → Prop
  | keep {s' : Client} (hlog : s'.log = s.log) (hwriter : s'.writer = s.writer)
    (hnext : s'.nextConn = s.nextConn) : Move s s'
  | emit (e : Event) (he : e.offline = true) : Move s (s.emit e)
  | write (conn : ℕ) (m : Message) (hwriter : s.writer = some conn) (hlen : m.2.length < 2 ^ 24) :
    Move s (s.emit (.write conn m))
  | close (conn : ℕ) (hwriter : s.writer = some conn) :
    Move s { s.emit (.close conn) with writer := none }
  | connect (t : ℕ) : Move s (({ s with
      reader := some s.nextConn, writer := some s.nextConn, nextConn := s.nextConn + 1 } :
      Client).emit (.connected t s.nextConn))

abbrev Moves : Client → Client → Prop := ReflTransGen Move

/-- What `_writer` refers to. -/
structure Writes (s : Client) : Prop where
  events : Always Event.OnOpen s.log
  writer : ∀ conn, s.writer = some conn → latest s.log = some conn ∧ .close conn ∉ s.log
  made : ∀ u conn, .connected u conn ∈ s.log → conn < s.nextConn
  closed : ∀ conn, .close conn ∈ s.log → conn < s.nextConn

section

variable {t : ℕ} {s s' s'' : Client} {a : Answer} {p : Await} {e : Event}

/-! ## Every step is made of moves -/

theorem Moves.keep (h : Moves s s') (hlog : s''.log = s'.log) (hwriter : s''.writer = s'.writer)
    (hnext : s''.nextConn = s'.nextConn) : Moves s s'' :=
  h.tail (.keep hlog hwriter hnext)

theorem Moves.emit (h : Moves s s') (he : e.offline = true) : Moves s (s'.emit e) :=
  h.tail (.emit e he)

theorem call_moves (c : Call) (s : Client) : Moves s (call c s) := by
  cases c with
  | start =>
    show Moves s (clientStart s)
    have hstart : Moves s (s.emit .start) := .single (.emit .start rfl)
    unfold clientStart
    dsimp only
    split_ifs
    · exact hstart.keep rfl rfl rfl
    · exact hstart
  | stop =>
    show Moves s (clientStop s)
    have hstop : Moves s (s.emit .stop) := .single (.emit .stop rfl)
    unfold clientStop
    dsimp only
    split
    · exact hstop.keep rfl rfl rfl
    · exact hstop
  | send encoded =>
    show Moves s (clientSend s encoded)
    unfold clientSend
    split_ifs with hlen
    · split
      · rename_i conn hconn
        exact .single (.write conn _ hconn hlen)
      · exact .refl
    · exact .refl

theorem userCalls_moves (a : Answer) (s : Client) : Moves s (userCalls a s) := by
  unfold userCalls
  generalize a.calls = calls
  induction calls generalizing s with
  | nil => exact .refl
  | cons c calls ih => exact (call_moves c s).trans (ih _)

theorem close_moves (s : Client) : Moves s (close s) := by
  unfold close
  split
  · rename_i conn hconn
    exact .single (.close conn hconn)
  · exact .refl

theorem readerLoopStopped_moves (t : ℕ) (s : Client) : Moves s (readerLoopStopped t s) := by
  have hcancel : Moves s (cancelKeepAlive (close s)) := by
    have hclose := close_moves s
    generalize close s = s' at hclose
    unfold cancelKeepAlive
    split
    · exact hclose.keep rfl rfl rfl
    · exact hclose
  exact hcancel.emit rfl

theorem handleMessage_moves (t : ℕ) (a : Answer) (m : Message) (s : Client) :
    Moves s (handleMessage t a m s).2 := by
  have hmsg : Moves s (s.emit (.message t m)) := .single (.emit _ rfl)
  have hstop := hmsg.trans (readerLoopStopped_moves t (s.emit (.message t m)))
  unfold handleMessage
  dsimp only
  split_ifs
  · exact hmsg.emit rfl
  · exact hstop
  · split
    · rename_i s' hs'
      obtain ⟨event, -, rfl⟩ := Option.map_eq_some_iff.1 hs'
      exact hmsg.keep rfl rfl rfl
    · exact hstop
  · exact hmsg

theorem advance_moves (t : ℕ) (a : Answer) (p : Await) (s : Client) :
    Moves s (advance t a p s).2 := by
  have hcalls := userCalls_moves a s
  have hstop := readerLoopStopped_moves t s
  cases p with
  | created => exact .single (.emit _ rfl)
  | sleep delay => exact .single (.emit _ rfl)
  | openConnection =>
    unfold advance
    dsimp only
    split
    · exact Moves.emit (.single (.connect t)) rfl
    · exact .single (.emit _ rfl)
    · exact .refl
  | onConnectFailure =>
    unfold advance
    dsimp only
    split <;> exact hcalls
  | onConnected =>
    unfold advance
    dsimp only
    split
    · exact hcalls
    · exact hcalls.keep rfl rfl rfl
    · exact hcalls
  | readHeader reader =>
    unfold advance
    dsimp only
    split
    · exact hstop
    · rename_i conn header _
      have hread : Moves s (s.emit (.read t conn header)) := .single (.emit _ rfl)
      split_ifs
      · exact hread.trans (handleMessage_moves t a _ _)
      · exact hread
  | readPayload reader type size =>
    unfold advance
    dsimp only
    split
    · exact hstop
    · rename_i conn payload _
      have hread : Moves s (s.emit (.read t conn payload)) := .single (.emit _ rfl)
      exact hread.trans (handleMessage_moves t a _ _)
  | onMessage =>
    unfold advance
    dsimp only
    split
    · exact hcalls
    · exact hcalls
    · exact hcalls.trans (readerLoopStopped_moves t _)
  | onDisconnected =>
    unfold advance
    dsimp only
    split
    · exact hcalls
    · exact (hcalls.emit (e := .returned t) rfl).emit rfl
    · exact hcalls

theorem suspendAt_moves (t : ℕ) (p : Await) (s : Client) : Moves s (suspendAt t p s) :=
  .single (.keep rfl rfl rfl)

theorem finish_moves (t : ℕ) (s : Client) : Moves s (finish t s) :=
  have hmain : Moves s (s.setMain t none) := .single (.keep rfl rfl rfl)
  hmain.emit rfl

theorem runMain_moves (t : ℕ) (as : List Answer) (p : Await) (s : Client) :
    Moves s (runMain t as p s) := by
  induction as generalizing p s with
  | nil => exact suspendAt_moves t p s
  | cons a as ih =>
    have hnext := advance_moves t a p s
    rw [runMain]
    generalize advance t a p s = r at hnext
    obtain ⟨next, s'⟩ := r
    cases next with
    | goto q =>
      dsimp only
      split_ifs
      · exact hnext.trans (suspendAt_moves t q s')
      · exact hnext.trans (ih q s')
    | suspend => exact hnext.trans (suspendAt_moves t p s')
    | exit => exact hnext.trans (finish_moves t s')

theorem raiseCancelled_moves (t : ℕ) (a : Answer) (p : Await) (s : Client) :
    Moves s (raiseCancelled t a p s).2 := by
  have hcalls := userCalls_moves a s
  cases p with
  | created | openConnection | sleep delay => exact .refl
  | onConnectFailure | onConnected | onDisconnected => exact hcalls
  | readHeader reader | readPayload reader type size => exact readerLoopStopped_moves t s
  | onMessage => exact hcalls.trans (readerLoopStopped_moves t _)

theorem resumeMain_moves (t : ℕ) (a : Answer) (as : List Answer) (s : Client) :
    Moves s (resumeMain t a as s) := by
  unfold resumeMain
  split
  · exact .refl
  · rename_i task _
    split_ifs
    · have hraised : Moves s (raiseCancelled t a task.point (s.emit (.cancelled t task.point))).2 :=
        .head (.emit _ rfl) (raiseCancelled_moves t a task.point _)
      split
      · rename_i q s' hq
        rw [hq] at hraised
        have hclear : Moves s (clearCancelled t s') := hraised.keep rfl rfl rfl
        exact hclear.trans (runMain_moves t as q _)
      · rename_i s' hq
        rw [hq] at hraised
        exact hraised.trans (finish_moves t s')
    · exact runMain_moves t (a :: as) task.point s

theorem resumeKeepAlive_moves (t : ℕ) (timeout : Bool) (s : Client) :
    Moves s (resumeKeepAlive t timeout s) := by
  have hset : ∀ task, Moves s (s.setKeepAlive t task) := fun task => .single (.keep rfl rfl rfl)
  unfold resumeKeepAlive
  split
  · exact .refl
  · dsimp only
    split_ifs
    · exact hset none
    · exact (hset none).trans (close_moves _)
    · split
      · exact hset _
      · split
        · rename_i event conn _ hconn
          have hclear : Moves s { s with pongSet := Function.update s.pongSet event false } :=
            .single (.keep rfl rfl rfl)
          exact Moves.keep
            (hclear.tail (.write conn (messageTypePing, []) hconn (by decide))) rfl rfl rfl
        · rename_i event _ _
          have hclear :
              Moves s ({ s with pongSet := Function.update s.pongSet event false }.setKeepAlive
            t none) := .single (.keep rfl rfl rfl)
          exact hclear.trans (close_moves _)
        · exact (hset none).trans (close_moves _)
      · split_ifs
        · exact hset _
        · exact (hset none).trans (close_moves _)

theorem step_moves (x : Step) (s : Client) : Moves s (step x s) := by
  cases x with
  | call c => exact call_moves c s
  | main t a as => exact resumeMain_moves t a as s
  | keepAlive t timeout => exact resumeKeepAlive_moves t timeout s

theorem run_moves (steps : List Step) : Moves clientInit (run steps) := by
  unfold run
  induction steps using List.reverseRecOn with
  | nil => exact .refl
  | append_singleton steps x ih =>
    rw [List.foldl_concat]
    exact ih.trans (step_moves x _)

/-! ## What the moves keep -/

theorem latest_mem {l : List Event} {conn : ℕ} (h : latest l = some conn) :
    ∃ u, .connected u conn ∈ l := by
  induction l with
  | nil => cases h
  | cons e l ih =>
    cases e with
    | connected u conn' =>
      obtain rfl : conn' = conn := Option.some.inj h
      exact ⟨u, List.mem_cons_self⟩
    | _ =>
      obtain ⟨u, hu⟩ := ih h
      exact ⟨u, List.mem_cons_of_mem _ hu⟩

/-- An event that neither makes nor closes a connection. -/
theorem Writes.emit (hs : Writes s) (hok : e.OnOpen s.log) (hmade : ∀ u conn, e ≠ .connected u conn)
    (hclosed : ∀ conn, e ≠ .close conn) : Writes (s.emit e) := by
  have hlatest : latest (s.emit e).log = latest s.log := by
    cases e <;> first | rfl | exact absurd rfl (hmade _ _)
  refine ⟨⟨hok, hs.events⟩, fun conn hconn => ?_, fun u conn hin => ?_, fun conn hin => ?_⟩
  · obtain ⟨hlast, hopen⟩ := hs.writer conn hconn
    refine ⟨hlatest.trans hlast, fun hin => ?_⟩
    exact hopen ((List.mem_cons.1 hin).resolve_left fun heq => hclosed conn heq.symm)
  · exact hs.made u conn ((List.mem_cons.1 hin).resolve_left fun heq => hmade u conn heq.symm)
  · exact hs.closed conn ((List.mem_cons.1 hin).resolve_left fun heq => hclosed conn heq.symm)

theorem Writes.close {conn : ℕ} (hs : Writes s) (hwriter : s.writer = some conn) :
    Writes { s.emit (.close conn) with writer := none } := by
  obtain ⟨hlast, hopen⟩ := hs.writer conn hwriter
  refine ⟨⟨⟨hlast, hopen⟩, hs.events⟩, nofun, fun u conn' hin => ?_, fun conn' hin => ?_⟩
  · exact hs.made u conn' ((List.mem_cons.1 hin).resolve_left nofun)
  · rcases List.mem_cons.1 hin with heq | hin
    · obtain rfl := Event.close.inj heq
      obtain ⟨u, hu⟩ := latest_mem hlast
      exact hs.made u conn' hu
    · exact hs.closed conn' hin

theorem Writes.connect (hs : Writes s) (t : ℕ) : Writes (({ s with
    reader := some s.nextConn, writer := some s.nextConn, nextConn := s.nextConn + 1 } :
    Client).emit (.connected t s.nextConn)) := by
  refine ⟨⟨fun u hin => ?_, hs.events⟩, fun conn hconn => ?_, fun u conn hin => ?_,
    fun conn hin => ?_⟩
  · exact absurd (hs.made u _ hin) (Nat.lt_irrefl _)
  · obtain rfl : s.nextConn = conn := Option.some.inj hconn
    refine ⟨rfl, fun hin => ?_⟩
    exact absurd (hs.closed _ ((List.mem_cons.1 hin).resolve_left nofun)) (Nat.lt_irrefl _)
  · rcases List.mem_cons.1 hin with heq | hin
    · obtain ⟨-, rfl⟩ := Event.connected.inj heq
      exact Nat.lt_succ_self _
    · exact (hs.made u conn hin).trans (Nat.lt_succ_self _)
  · exact (hs.closed conn ((List.mem_cons.1 hin).resolve_left nofun)).trans (Nat.lt_succ_self _)

theorem Move.writes (h : Move s s') (hs : Writes s) : Writes s' := by
  cases h with
  | keep hlog hwriter hnext =>
    obtain ⟨hevents, hopen, hmade, hclosed⟩ := hs
    rw [← hlog] at hevents hopen hmade hclosed
    rw [← hwriter] at hopen
    rw [← hnext] at hmade hclosed
    exact ⟨hevents, hopen, hmade, hclosed⟩
  | emit e he =>
    refine hs.emit ?_ ?_ ?_
    · cases e <;> trivial
    · rintro u conn rfl
      cases he
    · rintro conn rfl
      cases he
  | write conn m hwriter hlen => exact hs.emit (hs.writer conn hwriter) nofun nofun
  | close conn hwriter => exact hs.close hwriter
  | connect t => exact hs.connect t

theorem run_writes (steps : List Step) : Writes (run steps) := by
  have hmoves := run_moves steps
  generalize run steps = s at hmoves
  induction hmoves with
  | refl => exact ⟨trivial, nofun, nofun, nofun⟩
  | tail _ hmove ih => exact hmove.writes ih

/-- In every run, each connection is a new one, is written to only until it is closed or another one
is made, and is closed once at most. -/
theorem py_writes_open (steps : List Step) : Always Event.OnOpen (run steps).log :=
  (run_writes steps).events

end

end Messi.PyClient
