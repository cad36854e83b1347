import Messi.PyClient.Connections
import Messi.PyClient.Rules
import Messi.PyClient.Tasks

/-!
# Whose reader it is

All main tasks read from `_reader`, which belongs to the connection that has been made last. As long
as no main task makes a connection while another one serves one (`Event.Sole`), that is the one that
the task itself has made last (`run_readsOwn`), and what the task has read since is all that has
been read from it (`received_eq_stream`).
-/

namespace Messi.PyClient

open Trace

/-- The main tasks that serve a connection: they have got one, and have not been told since that it
is disconnected. -/
def serving : List Event → List ℕ
  | [] => []
  | .connected t _ :: l => t :: serving l
  | .onDisconnected t :: l | .ended t :: l => (serving l).filter fun u => u ≠ t
  | _ :: l => serving l

/-- A connection is made while no main task serves one. -/
def Event.Sole (l : List Event) : Event → Prop
  | .connected .. => serving l = []
  | _ => True

instance (l : List Event) : DecidablePred (Event.Sole l) := fun e => by
  rcases e <;> unfold Event.Sole <;> infer_instance

/-- The connection that a main task has made last. -/
def connOf (t : ℕ) : List Event → Option ℕ
  | [] => none
  | .connected u conn :: l => if u = t then some conn else connOf t l
  | _ :: l => connOf t l

/-- What has been read from a connection. -/
def readFrom (conn : ℕ) : List Event → List UInt8
  | [] => []
  | .read _ conn' bs :: l => if conn' = conn then readFrom conn l ++ bs else readFrom conn l
  | _ :: l => readFrom conn l

/-- What has been read from the connection that a main task has made last. -/
def stream (t : ℕ) (l : List Event) : List UInt8 :=
  match connOf t l with
  | some conn => readFrom conn l
  | none => []

/-- What a main task has read, from whichever connection, since it has made its last one. -/
def received (t : ℕ) : List Event → List UInt8
  | [] => []
  | .connected u _ :: l => if u = t then [] else received t l
  | .read u _ bs :: l => if u = t then received t l ++ bs else received t l
  | _ :: l => received t l

/-- The task reads from the connection that it has made last. -/
def Event.ReadsOwn (t : ℕ) (l : List Event) : Event → Prop
  | .read u conn _ => u = t → connOf t l = some conn
  | _ => True

/-- The reader that the task waits for. -/
def Await.reader? : Await → Option (Option ℕ)
  | .readHeader reader | .readPayload reader _ _ => some reader
  | _ => none

/-- If no main task got in the way of another one, the task has read from its own connections. -/
structure OwnReads (t : ℕ) (s : Client) : Prop where
  reader : s.reader = latest s.log
  reads : Always Event.Sole s.log → Always (Event.ReadsOwn t) s.log

/-- A task at `p` serves a connection unless it ends there, and waits for the reader of its own. -/
structure AtReader (t : ℕ) (p : Await) (s : Client) : Prop extends OwnReads t s where
  serves : p.final = false → t ∈ serving s.log
  own : Always Event.Sole s.log → ∀ reader, p.reader? = some reader → reader = connOf t s.log

section

variable {t u : ℕ} {p q : Await} {s s' : Client} {a : Answer} {e : Event} {l evs : List Event}
  {conn : ℕ} {bs : List UInt8}

/-! ## The log -/

/-- What others do is nothing to the task. -/
theorem readers_append (h : ∀ e ∈ evs, e.ofMain t = false) :
    connOf t (evs ++ l) = connOf t l ∧ (t ∈ serving l → t ∈ serving (evs ++ l)) ∧
      (Always (Event.ReadsOwn t) l → Always (Event.ReadsOwn t) (evs ++ l)) := by
  induction evs with
  | nil => exact ⟨rfl, id, id⟩
  | cons e evs ih =>
    obtain ⟨hconn, hserving, hreads⟩ := ih fun e' he' => h e' (List.mem_cons_of_mem e he')
    have he := h e List.mem_cons_self
    have hne : ∀ u, (u == t) = false → u ≠ t := fun u hu => ne_of_beq_false hu
    refine ⟨?_, fun ht => ?_, fun hl => ⟨?_, hreads hl⟩⟩
    · cases e with
      | connected u conn => exact (if_neg (hne u he)).trans hconn
      | _ => exact hconn
    · have hmem := hserving ht
      cases e with
      | connected u conn => exact List.mem_cons_of_mem u hmem
      | onDisconnected u | ended u =>
        exact List.mem_filter.2 ⟨hmem, decide_eq_true (hne u he).symm⟩
      | _ => exact hmem
    · cases e with
      | read u conn bs => exact fun hu => absurd hu (hne u he)
      | _ => trivial

/-- The connection that has been made last is the one of the task that serves one. -/
theorem latest_eq_connOf (h : Always Event.Sole l) (ht : t ∈ serving l) :
    latest l = connOf t l := by
  induction l with
  | nil => exact absurd ht List.not_mem_nil
  | cons e l ih =>
    cases e with
    | connected u conn =>
      have hnone : serving l = [] := h.1
      rw [serving, hnone] at ht
      rw [connOf, if_pos (List.mem_singleton.1 ht).symm]
      rfl
    | onDisconnected u | ended u => exact ih h.2 (List.mem_filter.1 ht).1
    | _ => exact ih h.2 ht

/-! ## The task -/

theorem OwnReads.quiet (hq : Quiet t s s') (h : OwnReads t s) : OwnReads t s' := by
  obtain ⟨evs, hlog, hevs⟩ := hq.log
  refine ⟨hq.reader h.reader, fun hsole => ?_⟩
  rw [hlog] at hsole ⊢
  exact (readers_append hevs).2.2 (h.reads (hsole.suffix (List.suffix_append _ _)))

theorem AtReader.quiet (hq : Quiet t s s') (h : AtReader t p s) : AtReader t p s' := by
  obtain ⟨evs, hlog, hevs⟩ := hq.log
  obtain ⟨hconn, hserving, -⟩ := readers_append (l := s.log) hevs
  refine ⟨h.toOwnReads.quiet hq, fun hp => ?_, fun hsole reader hr => ?_⟩
  · rw [hlog]
    exact hserving (h.serves hp)
  · rw [hlog] at hsole ⊢
    rw [hconn]
    exact h.own (hsole.suffix (List.suffix_append _ _)) reader hr

/-- An event of the task that is none of a reader. -/
theorem OwnReads.emit (h : OwnReads t s) (hl : latest (e :: s.log) = latest s.log)
    (he : e.ReadsOwn t s.log) : OwnReads t (s.emit e) :=
  ⟨h.reader.trans hl.symm, fun hsole => ⟨he, h.reads hsole.2⟩⟩

theorem AtReader.emit (h : AtReader t p s) (hl : latest (e :: s.log) = latest s.log)
    (he : e.ReadsOwn t s.log) (hs : serving (e :: s.log) = serving s.log)
    (hc : connOf t (e :: s.log) = connOf t s.log) : AtReader t p (s.emit e) := by
  refine ⟨h.toOwnReads.emit hl he, fun hp => ?_, fun hsole reader hr => ?_⟩
  · rw [Client.emit_log, hs]
    exact h.serves hp
  · rw [Client.emit_log, hc]
    exact h.own hsole.2 reader hr

theorem OwnReads.atReader (h : OwnReads t s) (hp : p.final = true) : AtReader t p s := by
  refine ⟨h, fun hno => absurd (hno.symm.trans hp) Bool.false_ne_true, fun _ reader hr => ?_⟩
  cases p <;> first | exact absurd hp Bool.false_ne_true | cases hr

/-- The task goes on to read from `_reader`. -/
theorem AtReader.goesOn (h : AtReader t p s) (hp : p.final = false)
    (hq : ∀ reader, q.reader? = some reader → reader = s.reader) : AtReader t q s := by
  refine ⟨h.toOwnReads, fun _ => h.serves hp, fun hsole reader hr => ?_⟩
  rw [hq reader hr, h.reader]
  exact latest_eq_connOf hsole (h.serves hp)

theorem AtReader.next (h : AtReader t p s) (hp : p.final = false) :
    AtReader t (.readHeader s.reader) s :=
  h.goesOn hp fun _ hr => (Option.some.inj hr).symm

theorem OwnReads.stopped (h : OwnReads t s) :
    AtReader t .onDisconnected (readerLoopStopped t s) := by
  obtain ⟨s', haside, heq⟩ := readerLoopStopped_eq t t s
  rw [heq]
  exact ((h.quiet haside.toQuiet).emit (e := .onDisconnected t) rfl trivial).atReader rfl

theorem readexactly_some {reader : Option ℕ} {n : ℕ}
    (h : readexactly reader a n = some (conn, bs)) : reader = some conn ∧ bs.length = n := by
  obtain ⟨conn', rfl, hmap⟩ := Option.bind_eq_some_iff.1 h
  obtain ⟨bs', hfilter, heq⟩ := Option.map_eq_some_iff.1 hmap
  obtain ⟨-, hlen⟩ := Option.filter_eq_some_iff.1 hfilter
  obtain ⟨rfl, rfl⟩ := Prod.mk.inj heq
  exact ⟨rfl, of_decide_eq_true hlen⟩

/-- The task reads. -/
theorem AtReader.read {reader : Option ℕ} {n : ℕ} (h : AtReader t p s)
    (hp : p.reader? = some reader) (hread : readexactly reader a n = some (conn, bs)) :
    AtReader t p (s.emit (.read t conn bs)) := by
  obtain ⟨rfl, -⟩ := readexactly_some hread
  refine ⟨⟨h.reader, fun hsole => ?_⟩, h.serves, fun hsole => h.own hsole.2⟩
  exact ⟨fun _ => (h.own hsole.2 _ hp).symm, h.reads hsole.2⟩

theorem handleMessage_atReader {m : Message} (h : AtReader t p s) (hp : p.final = false) :
    NextHolds (AtReader t) (OwnReads t) q (handleMessage t a m s) := by
  have hmsg : AtReader t p (s.emit (.message t m)) := h.emit rfl trivial rfl rfl
  have hstop := hmsg.toOwnReads.stopped
  unfold handleMessage
  dsimp only
  split_ifs
  · exact (hmsg.emit (e := .onMessage t m.2) rfl trivial rfl rfl).goesOn hp fun _ hr => by cases hr
  · exact hstop
  · split
    · rename_i s' hs'
      obtain ⟨event, -, rfl⟩ := Option.map_eq_some_iff.1 hs'
      exact AtReader.next
        (AtReader.quiet (s := s.emit (.message t m)) (.of_log rfl le_rfl rfl) hmsg) hp
    · exact hstop
  · exact hmsg.next hp

theorem AtReader.advance (h : AtReader t p s) (a : Answer) :
    NextHolds (AtReader t) (OwnReads t) p (advance t a p s) := by
  have hcalls : AtReader t p (userCalls a s) := h.quiet (userCalls_aside a s).toQuiet
  have hconnect : ∀ s, OwnReads t s → AtReader t .openConnection (s.emit (.openConnection t)) :=
    fun s hs => (hs.emit (e := .openConnection t) rfl trivial).atReader rfl
  cases p with
  | created => exact hconnect s h.toOwnReads
  | sleep delay => exact hconnect s h.toOwnReads
  | openConnection =>
    unfold PyClient.advance
    dsimp only
    split
    · refine ⟨⟨rfl, fun hsole => ⟨trivial, trivial, h.reads hsole.2.2⟩⟩,
        fun _ => List.mem_cons_self, fun _ reader hr => by cases hr⟩
    · exact (h.toOwnReads.emit (e := .onConnectFailure t _) rfl trivial).atReader rfl
    · exact h.toOwnReads
  | onConnectFailure =>
    unfold PyClient.advance
    dsimp only
    split
    · exact hcalls
    · exact hcalls.toOwnReads
    · exact hcalls.toOwnReads.atReader rfl
    · exact hcalls.toOwnReads
  | onConnected =>
    unfold PyClient.advance
    dsimp only
    split
    · exact hcalls
    · exact (hcalls.next rfl).quiet (startReading_aside _).toQuiet
    · exact hcalls.toOwnReads
  | readHeader reader =>
    unfold PyClient.advance
    dsimp only
    split
    · exact h.toOwnReads.stopped
    · rename_i conn header hread
      have hheader := h.read rfl hread
      split_ifs
      · exact handleMessage_atReader hheader rfl
      · exact hheader.goesOn rfl fun _ hr => (Option.some.inj hr).symm
  | readPayload reader type size =>
    unfold PyClient.advance
    dsimp only
    split
    · exact h.toOwnReads.stopped
    · rename_i conn payload hread
      exact handleMessage_atReader (h.read rfl hread) rfl
  | onMessage =>
    unfold PyClient.advance
    dsimp only
    split
    · exact hcalls
    · exact hcalls.next rfl
    · exact hcalls.toOwnReads.stopped
  | onDisconnected =>
    unfold PyClient.advance
    dsimp only
    split
    · exact hcalls
    · exact hconnect _ (hcalls.toOwnReads.emit (e := .returned t) rfl trivial)
    · exact hcalls.toOwnReads

theorem atReader_rule (t : ℕ) :
    MainRule t (fun _ _ _ => True) (AtReader t) (OwnReads t) (OwnReads t) where
  init := ⟨rfl, fun _ => trivial⟩
  forget _ _ h := h.toOwnReads
  quiet _ _ _ hq h := h.quiet hq
  rest _ _ hq h := h.quiet hq
  created _ _ hq _ _ h := (h.quiet hq).atReader rfl
  advance a _ _ h _ := h.advance a
  raised _ _ _ h := raised_holds (fun _ _ hq hs => hs.quiet hq) (fun _ hs => hs.stopped)
    (h.toOwnReads.emit rfl trivial)
  ended s h :=
    have hset : Quiet t s (s.setMain t none) := .of_log rfl le_rfl rfl
    (h.quiet hset).emit rfl trivial

/-- As long as no main task gets in the way of another one, each of them reads from its own
connections. -/
theorem run_readsOwn {steps : List Step} (h : Always Event.Sole (run steps).log) (t : ℕ) :
    Always (Event.ReadsOwn t) (run steps).log :=
  ((atReader_rule t).run (runOk_of_forall (fun _ _ _ => trivial) steps clientInit)).rest.reads h

/-! ## What has been read from a connection -/

theorem connOf_mem (h : connOf t l = some conn) : .connected t conn ∈ l := by
  induction l with
  | nil => cases h
  | cons e l ih =>
    cases e with
    | connected u conn' =>
      rw [connOf] at h
      split_ifs at h with hu
      · rw [hu, Option.some.inj h]
        exact List.mem_cons_self
      · exact List.mem_cons_of_mem _ (ih h)
    | _ => exact List.mem_cons_of_mem _ (ih h)

/-- A connection is made once. -/
theorem connected_unique (h : Always Event.OnOpen l) (ht : .connected t conn ∈ l)
    (hu : .connected u conn ∈ l) : t = u := by
  induction l with
  | nil => exact absurd ht List.not_mem_nil
  | cons e l ih =>
    rcases List.mem_cons.1 ht with rfl | ht'
    · rcases List.mem_cons.1 hu with heq | hu'
      · exact ((Event.connected.inj heq).1).symm
      · exact absurd hu' (h.1 u)
    · rcases List.mem_cons.1 hu with rfl | hu'
      · exact absurd ht' (h.1 t)
      · exact ih h.2 ht' hu'

theorem readFrom_fresh (h : ∀ t, Always (Event.ReadsOwn t) l)
    (hno : ∀ t, .connected t conn ∉ l) : readFrom conn l = [] := by
  induction l with
  | nil => rfl
  | cons e l ih =>
    have hrest := ih (fun t => (h t).2) fun t ht => hno t (List.mem_cons_of_mem e ht)
    cases e with
    | read u conn' bs =>
      have hown : connOf u l = some conn' := (h u).1 rfl
      have hne : conn' ≠ conn := fun heq =>
        hno u (List.mem_cons_of_mem _ (heq ▸ connOf_mem hown))
      exact (if_neg hne).trans hrest
    | _ => exact hrest

theorem received_eq_readFrom (h : ∀ t, Always (Event.ReadsOwn t) l) (ho : Always Event.OnOpen l)
    (hconn : connOf t l = some conn) : received t l = readFrom conn l := by
  induction l with
  | nil => rfl
  | cons e l ih =>
    have hrest := ih (fun t => (h t).2) ho.2
    cases e with
    | connected u conn' =>
      rw [connOf] at hconn
      rw [received]
      split_ifs at hconn ⊢ with hu
      · obtain rfl := Option.some.inj hconn
        exact (readFrom_fresh (fun t => (h t).2) ho.1).symm
      · exact hrest hconn
    | read u conn' bs =>
      have hown : connOf u l = some conn' := (h u).1 rfl
      have hold : connOf t l = some conn := hconn
      have hiff : u = t ↔ conn' = conn := by
        constructor
        · rintro rfl
          exact Option.some.inj (hown.symm.trans hold)
        · rintro rfl
          exact connected_unique ho.2 (connOf_mem hown) (connOf_mem hold)
      rw [received, readFrom, hrest hold]
      simp only [hiff]
    | _ => exact hrest hconn

theorem received_eq_nil (h : Always (Event.ReadsOwn t) l) (hconn : connOf t l = none) :
    received t l = [] := by
  induction l with
  | nil => rfl
  | cons e l ih =>
    cases e with
    | connected u conn =>
      rw [connOf] at hconn
      rw [received]
      split_ifs at hconn ⊢ with hu
      exact ih h.2 hconn
    | read u conn bs =>
      have hne : u ≠ t := by
        rintro rfl
        have hown : connOf u l = some conn := h.1 rfl
        have hnone : connOf u l = none := hconn
        rw [hnone] at hown
        cases hown
      exact (if_neg hne).trans (ih h.2 hconn)
    | _ => exact ih h.2 hconn

/-- What a main task has read is what has been read from its last connection. -/
theorem received_eq_stream {steps : List Step} (h : Always Event.Sole (run steps).log) (t : ℕ) :
    received t (run steps).log = stream t (run steps).log := by
  unfold stream
  split
  · rename_i conn hconn
    exact received_eq_readFrom (run_readsOwn h) (run_writes steps).events hconn
  · rename_i hconn
    exact received_eq_nil (run_readsOwn h t) hconn

end

end Messi.PyClient
