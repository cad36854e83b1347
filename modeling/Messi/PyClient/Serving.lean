import Messi.Deliveries
import Messi.PyClient.Readers
import Messi.PyClient.Stopping

/-!
# What the Python client delivers

Whatever the tasks do, and in whatever order, a main task has handled the messages of what it has
read since it has made its last connection, and has delivered what has to be delivered of them. A
main task may be stopped, and its callbacks may raise exceptions. `_reader` is shared: what the task
has read is the stream of its connection if no main task makes a connection while another one serves
one (`py_delivers`).
-/

namespace Messi.PyClient

open Trace

/-- The messages that a main task has read since it has made its last connection. -/
def handled (t : ℕ) : List Event → List Message
  | [] => []
  | .connected u _ :: l => if u = t then [] else handled t l
  | .message u m :: l => if u = t then handled t l ++ [m] else handled t l
  | _ :: l => handled t l

/-- What a main task has delivered since it has made its last connection. -/
def deliveries (t : ℕ) : List Event → List Delivery
  | [] => []
  | .connected u _ :: l => if u = t then [] else deliveries t l
  | .onMessage u payload :: l => if u = t then deliveries t l ++ [.user payload] else deliveries t l
  | .message u m :: l => if u = t ∧ isPong m then deliveries t l ++ [.pong] else deliveries t l
  | _ :: l => deliveries t l

/-- The event is about what the task reads. -/
def Event.ofReader (t : ℕ) : Event → Bool
  | .connected u _ | .read u _ _ | .message u _ | .onMessage u _ => u == t
  | _ => false

/-- What the receiver holds when a task is at this point of `_main()`. -/
def Await.Holds : Await → Receiver → Prop
  | .readPayload _ type size, r => ∃ header : List UInt8, header.length = headerSize ∧
      (Header.ofBytes header).type = type ∧ r = ⟨header, true, size⟩
  | _, r => r = ⟨[], false, headerSize⟩

/-- All messages that the task has read have been handled. -/
def ReadAll (t : ℕ) (s : Client) : Prop := handled t s.log = framed noLimit (received t s.log)

/-- A task at `p` has handled what it has read, and waits for the rest of the next message. -/
structure Reads (t : ℕ) (p : Await) (s : Client) : Prop where
  all : ReadAll t s
  waits : p.final = false → ∃ r, p.Holds r ∧
    r.Progress noLimit (fun _ => true) (received t s.log) (handled t s.log)

/-- What has been handled has been delivered. -/
def Delivered (decode : List UInt8 → Bool) (t : ℕ) (s : Client) : Prop :=
  deliveries t s.log = deliver decode (handled t s.log)

/-- A task at `p` has delivered what it has handled; unless it has left the reader loop, that could
all be decoded. -/
structure Delivers (decode : List UInt8 → Bool) (t : ℕ) (p : Await) (s : Client) : Prop where
  delivered : Delivered decode t s
  decoded : p.final = false → ∀ m ∈ handled t s.log, decodable decode m = true

/-- The messages handled between the two states. -/
def newlyHandled (t : ℕ) (s s' : Client) : List Message :=
  (handled t s'.log).drop (handled t s.log).length

/-- A user message that is handled now is parsed as `decode` says. -/
def ParsesAs (decode : List UInt8 → Bool) (t : ℕ) (a : Answer) (p : Await) (s : Client) : Prop :=
  ∀ m ∈ newlyHandled t s (advance t a p s).2,
    m.1 = messageTypeServerToClientUser → a.parse = decode m.2

instance (decode : List UInt8 → Bool) (t : ℕ) (a : Answer) (p : Await) (s : Client) :
    Decidable (ParsesAs decode t a p s) := by
  unfold ParsesAs
  infer_instance

/-- Nothing is read, handled or delivered. -/
structure Same (t : ℕ) (s s' : Client) : Prop where
  received : received t s'.log = received t s.log
  handled : handled t s'.log = handled t s.log
  deliveries : deliveries t s'.log = deliveries t s.log

section

variable {decode : List UInt8 → Bool} {t u : ℕ} {p q : Await} {s s' s'' : Client} {a : Answer}
  {m : Message} {l evs : List Event} {e : Event} {conn : ℕ} {reader : Option ℕ} {bs : List UInt8}

/-! ## Nothing is read -/

theorem same_of_append (h : ∀ e ∈ evs, e.ofReader t = false) (hlog : s'.log = evs ++ s.log) :
    Same t s s' := by
  suffices hall : ∀ l, received t (evs ++ l) = received t l ∧ handled t (evs ++ l) = handled t l ∧
      deliveries t (evs ++ l) = deliveries t l by
    obtain ⟨hr, hh, hd⟩ := hall s.log
    exact ⟨hlog ▸ hr, hlog ▸ hh, hlog ▸ hd⟩
  intro l
  clear hlog
  induction evs with
  | nil => exact ⟨rfl, rfl, rfl⟩
  | cons e evs ih =>
    have hrest := ih fun e' he' => h e' (List.mem_cons_of_mem e he')
    have he := h e List.mem_cons_self
    cases e <;> simp_all [Event.ofReader, received, handled, deliveries]

theorem Same.trans (h : Same t s s') (h' : Same t s' s'') : Same t s s'' :=
  ⟨h'.received.trans h.received, h'.handled.trans h.handled, h'.deliveries.trans h.deliveries⟩

theorem Same.emit (s : Client) (he : e.ofReader t = false) : Same t s (s.emit e) :=
  same_of_append (fun e' he' => by obtain rfl := List.mem_singleton.1 he'; exact he) rfl

theorem Quiet.same (h : Quiet t s s') : Same t s s' := by
  obtain ⟨evs, hlog, hevs⟩ := h.log
  refine same_of_append (fun e he => ?_) hlog
  have hmain := hevs e he
  cases e <;> first | rfl | exact hmain

theorem readerLoopStopped_same (t u : ℕ) (s : Client) : Same t s (readerLoopStopped u s) := by
  obtain ⟨s', haside, heq⟩ := readerLoopStopped_eq t u s
  rw [heq]
  exact haside.toQuiet.same.trans (Same.emit s' rfl)

theorem Same.readAll (h : Same t s s') (hs : ReadAll t s) : ReadAll t s' := by
  unfold ReadAll
  rw [h.handled, h.received]
  exact hs

theorem Same.reads (h : Same t s s') (hs : Reads t p s) : Reads t p s' := by
  refine ⟨h.readAll hs.all, ?_⟩
  rw [h.handled, h.received]
  exact hs.waits

theorem Same.done (h : Same t s s') (hs : Delivered decode t s) : Delivered decode t s' := by
  unfold Delivered
  rw [h.handled, h.deliveries]
  exact hs

theorem Same.delivers (h : Same t s s') (hs : Delivers decode t p s) : Delivers decode t p s' := by
  refine ⟨h.done hs.delivered, ?_⟩
  rw [h.handled]
  exact hs.decoded

theorem Reads.of_final (h : ReadAll t s) (hp : p.final = true) : Reads t p s :=
  ⟨h, fun hno => absurd (hno.symm.trans hp) nofun⟩

theorem Delivers.of_final (h : Delivered decode t s) (hp : p.final = true) :
    Delivers decode t p s :=
  ⟨h, fun hno => absurd (hno.symm.trans hp) nofun⟩

theorem Reads.fresh (hq : q.Holds ⟨[], false, headerSize⟩)
    (h : Receiver.Progress noLimit (fun _ => true) (PyClient.received t s.log)
      (PyClient.handled t s.log) ⟨[], false, headerSize⟩) : Reads t q s :=
  ⟨h.handled_eq, fun _ => ⟨_, hq, h⟩⟩

/-! ## Reading -/

theorem noLimit_load (r : Receiver) :
    r.load noLimit = if r.payload then some r else some ⟨r.bytes, true, r.announced⟩ := by
  have hlt : r.announced < 2 ^ 24 := headerGetSize_lt _
  have hfit : ¬ noLimit < r.announced + headerSize := by
    unfold noLimit
    omega
  unfold Receiver.load
  rw [if_neg hfit]

theorem received_read (t conn : ℕ) (s : Client) (bs : List UInt8) :
    received t (s.emit (.read t conn bs)).log = received t s.log ++ bs := by
  simp [received]

/-- A message is handled, and nothing else is read; the task goes on to the next header, or leaves
the reader loop. -/
theorem handleMessage_spec (t : ℕ) (a : Answer) (m : Message) (s : Client) :
    received t (handleMessage t a m s).2.log = received t s.log ∧
      handled t (handleMessage t a m s).2.log = handled t s.log ++ [m] ∧
      ∃ q, (handleMessage t a m s).1 = .goto q ∧
        (q.final = false → q.Holds ⟨[], false, headerSize⟩) := by
  have hr : received t (s.emit (.message t m)).log = received t s.log := by simp [received]
  have hh : handled t (s.emit (.message t m)).log = handled t s.log ++ [m] := by simp [handled]
  have hstop := readerLoopStopped_same t t (s.emit (.message t m))
  have hstopped := And.intro (hstop.received.trans hr) (hstop.handled.trans hh)
  unfold handleMessage
  dsimp only
  split_ifs
  · exact ⟨hr, hh, .onMessage, rfl, fun _ => rfl⟩
  · exact ⟨hstopped.1, hstopped.2, .onDisconnected, rfl, fun h => absurd h Bool.false_ne_true.symm⟩
  · split
    · rename_i s' hs'
      obtain ⟨event, -, rfl⟩ := Option.map_eq_some_iff.1 hs'
      exact ⟨hr, hh, .readHeader s.reader, rfl, fun _ => rfl⟩
    · exact ⟨hstopped.1, hstopped.2, .onDisconnected, rfl,
        fun h => absurd h Bool.false_ne_true.symm⟩
  · exact ⟨hr, hh, .readHeader s.reader, rfl, fun _ => rfl⟩

theorem handleMessage_reads (J : Client → Prop)
    (h : Receiver.Progress noLimit (fun _ => true) (received t s.log) (handled t s.log ++ [m])
      ⟨[], false, headerSize⟩) : NextHolds (Reads t) J p (handleMessage t a m s) := by
  obtain ⟨hr, hh, q, hq, hholds⟩ := handleMessage_spec t a m s
  generalize handleMessage t a m s = r at hr hh hq
  obtain ⟨next, s'⟩ := r
  obtain rfl : next = .goto q := hq
  rw [← hr, ← hh] at h
  exact ⟨h.handled_eq, fun hfinal => ⟨_, hholds hfinal, h⟩⟩

/-- A header has been read: an empty message is complete, and otherwise a payload is to follow. -/
theorem readHeader_reads {header : List UInt8} (h : Reads t (.readHeader reader) s)
    (hread : readexactly reader a headerSize = some (conn, header)) :
    NextHolds (Reads t) (ReadAll t) (.readHeader reader) (advance t a (.readHeader reader) s) := by
  obtain ⟨r, rfl, hprog⟩ := h.waits rfl
  obtain ⟨-, hlen⟩ := readexactly_some hread
  have hload := noLimit_load (Receiver.read ⟨[], false, headerSize⟩ header)
  have hrec := received_read t conn s header
  simp only [advance, hread]
  split_ifs with hzero
  · have hempty : header.drop headerSize = [] := List.drop_eq_nil_of_le hlen.le
    have hmsg : Receiver.message ⟨header, true, 0⟩ = ((Header.ofBytes header).type, []) := by
      unfold Receiver.message
      rw [hempty]
    have hload' : (Receiver.read ⟨[], false, headerSize⟩ header).load noLimit =
        some ⟨header, true, 0⟩ := hload.trans (congrArg some (by rw [← hzero]; rfl))
    rw [← hmsg]
    refine handleMessage_reads _ ?_
    rw [hrec]
    exact hprog.next hlen hload' rfl rfl
  · have hbody := hprog.body hlen hload hzero
    rw [← hrec] at hbody
    exact ⟨hbody.handled_eq, fun _ => ⟨_, ⟨header, hlen, rfl, rfl⟩, hbody⟩⟩

/-- A payload has been read. -/
theorem readPayload_reads {type : UInt8} {size : ℕ} {payload : List UInt8}
    (h : Reads t (.readPayload reader type size) s)
    (hread : readexactly reader a size = some (conn, payload)) :
    NextHolds (Reads t) (ReadAll t) (.readPayload reader type size)
      (advance t a (.readPayload reader type size) s) := by
  obtain ⟨r, ⟨header, hheader, htype, rfl⟩, hprog⟩ := h.waits rfl
  obtain ⟨-, hlen⟩ := readexactly_some hread
  have hload := noLimit_load (Receiver.read ⟨header, true, size⟩ payload)
  have hzero : (Receiver.read ⟨header, true, size⟩ payload).left = 0 :=
    Nat.sub_eq_zero_of_le hlen.ge
  have hmsg : (Receiver.read ⟨header, true, size⟩ payload).message = (type, payload) := by
    have htake : (header ++ payload).take headerSize = header := List.take_left' hheader
    have hdrop : (header ++ payload).drop headerSize = payload := List.drop_left' hheader
    unfold Receiver.read Receiver.message
    dsimp only
    rw [hdrop, ← ofBytes_take, htake, htype]
  simp only [advance, hread]
  rw [← hmsg]
  refine handleMessage_reads _ ?_
  rw [received_read]
  exact hprog.next hlen hload hzero rfl

theorem Reads.stopped (h : ReadAll t s) : Reads t .onDisconnected (readerLoopStopped t s) :=
  .of_final ((readerLoopStopped_same t t s).readAll h) rfl

theorem Reads.advance (h : Reads t p s) (a : Answer) :
    NextHolds (Reads t) (ReadAll t) p (advance t a p s) := by
  have hcalls : Reads t p (userCalls a s) := (userCalls_aside a s).toQuiet.same.reads h
  have hconnect : ∀ s, ReadAll t s → Reads t .openConnection (s.emit (.openConnection t)) :=
    fun s hs => .of_final ((Same.emit s rfl).readAll hs) rfl
  cases p with
  | created => exact hconnect s h.all
  | sleep delay => exact hconnect s h.all
  | openConnection =>
    unfold PyClient.advance
    dsimp only
    split
    · refine Reads.fresh rfl ?_
      simp only [Client.emit_log, received, handled, if_true]
      exact Receiver.progress_fresh
    · exact .of_final ((Same.emit s rfl).readAll h.all) rfl
    · exact h.all
  | onConnectFailure =>
    unfold PyClient.advance
    dsimp only
    split
    · exact hcalls
    · exact hcalls.all
    · exact .of_final hcalls.all rfl
    · exact hcalls.all
  | onConnected =>
    unfold PyClient.advance
    dsimp only
    split
    · exact hcalls
    · obtain ⟨r, rfl, hprog⟩ := hcalls.waits rfl
      exact ((startReading_aside (userCalls a s)).toQuiet.same).reads (Reads.fresh rfl hprog)
    · exact hcalls.all
  | readHeader reader =>
    cases hread : readexactly reader a headerSize with
    | none =>
      simp only [PyClient.advance, hread]
      exact Reads.stopped h.all
    | some r => exact readHeader_reads h hread
  | readPayload reader type size =>
    cases hread : readexactly reader a size with
    | none =>
      simp only [PyClient.advance, hread]
      exact Reads.stopped h.all
    | some r => exact readPayload_reads h hread
  | onMessage =>
    unfold PyClient.advance
    dsimp only
    split
    · exact hcalls
    · obtain ⟨r, rfl, hprog⟩ := hcalls.waits rfl
      exact Reads.fresh rfl hprog
    · exact Reads.stopped hcalls.all
  | onDisconnected =>
    unfold PyClient.advance
    dsimp only
    split
    · exact hcalls
    · exact hconnect _ ((Same.emit _ rfl).readAll hcalls.all)
    · exact hcalls.all

theorem reads_rule (t : ℕ) : MainRule t (fun _ _ _ => True) (Reads t) (ReadAll t) (ReadAll t) where
  init := rfl
  forget _ _ h := h.all
  quiet _ _ _ hq h := hq.same.reads h
  rest _ _ hq h := hq.same.readAll h
  created _ _ hq _ _ h := .of_final (hq.same.readAll h) rfl
  advance a _ _ h _ := h.advance a
  raised _ _ s h := raised_holds (fun _ _ hq => hq.same.readAll) (fun _ => Reads.stopped)
    ((Same.emit s rfl).readAll h.all)
  ended s h := (Same.emit (s.setMain t none) rfl).readAll h

/-! ## Delivering -/

theorem newlyHandled_of_append (h : handled t s'.log = handled t s.log ++ [m]) :
    m ∈ newlyHandled t s s' := by
  unfold newlyHandled
  rw [h, List.drop_left]
  exact List.mem_cons_self

/-- A message is delivered or skipped, or it ends the connection. -/
theorem handleMessage_delivers (h : Delivered decode t s)
    (hok : ∀ m ∈ handled t s.log, decodable decode m = true)
    (hdec : m.1 = messageTypeServerToClientUser → a.parse = decode m.2) :
    NextHolds (Delivers decode t) (Delivered decode t) p (handleMessage t a m s) := by
  have hdel : deliver decode (handled t s.log ++ [m]) =
      deliveries t s.log ++ deliver decode [m] := by
    rw [deliver_append hok, ← show deliveries t s.log = _ from h]
  have hgoes : ∀ s' q, handled t s'.log = handled t s.log ++ [m] →
      deliveries t s'.log = deliveries t s.log ++ deliver decode [m] →
      decodable decode m = true → Delivers decode t q s' := by
    intro s' q hh hd hm
    refine ⟨by unfold Delivered; rw [hd, hh, hdel], fun _ m' hm' => ?_⟩
    rw [hh] at hm'
    rcases List.mem_append.1 hm' with hm' | hm'
    · exact hok m' hm'
    · rw [List.mem_singleton.1 hm']
      exact hm
  have hstops : ∀ s', handled t s'.log = handled t s.log ++ [m] →
      deliveries t s'.log = deliveries t s.log ++ deliver decode [m] →
      Delivers decode t .onDisconnected (readerLoopStopped t s') := by
    intro s' hh hd
    refine .of_final ((readerLoopStopped_same t t s').done ?_) rfl
    unfold Delivered
    rw [hd, hh, hdel]
  have hh : handled t (s.emit (.message t m)).log = handled t s.log ++ [m] := by simp [handled]
  have hd : deliveries t (s.emit (.message t m)).log =
      if isPong m then deliveries t s.log ++ [.pong] else deliveries t s.log := by
    simp [deliveries]
  unfold handleMessage
  dsimp only
  split_ifs with huser hparse hispong
  · have hok : decode m.2 = true := (hdec huser).symm.trans hparse
    have hnot : isPong m = false := by simp [isPong, huser]; decide
    refine hgoes _ .onMessage hh ?_ (by simp [decodable, hok])
    simp [deliveries, deliver, huser, hok, hnot]
  · have hbad : decode m.2 = false := (hdec huser).symm.trans (Bool.eq_false_iff.2 hparse)
    have hnot : isPong m = false := by simp [isPong, huser]; decide
    refine hstops _ hh ?_
    rw [hd, hnot, deliver_bad (by simp [decodable, huser, hbad])]
    simp
  · have hyes : isPong m = true := by simp [isPong, hispong]
    have hone : deliver decode [m] = [.pong] := by
      rw [deliver, if_neg huser, if_pos hispong]
      rfl
    rw [hyes, if_pos rfl, ← hone] at hd
    split
    · rename_i s' hs'
      obtain ⟨event, -, rfl⟩ := Option.map_eq_some_iff.1 hs'
      exact hgoes _ (.readHeader s.reader) hh hd (by simp [decodable, huser])
    · exact hstops _ hh hd
  · have hnot : isPong m = false := by simp [isPong, hispong]
    refine hgoes _ (.readHeader s.reader) hh ?_ (by simp [decodable, huser])
    rw [hd, hnot]
    simp [deliver, huser, hispong]

theorem Delivers.stopped (h : Delivered decode t s) :
    Delivers decode t .onDisconnected (readerLoopStopped t s) :=
  .of_final ((readerLoopStopped_same t t s).done h) rfl

theorem Delivers.moved (h : Delivers decode t p s) (hq : p.final = q.final) :
    Delivers decode t q s :=
  ⟨h.delivered, hq ▸ h.decoded⟩

theorem Delivers.advance (h : Delivers decode t p s) (hdec : ParsesAs decode t a p s) :
    NextHolds (Delivers decode t) (Delivered decode t) p (advance t a p s) := by
  have hcalls : Delivers decode t p (userCalls a s) := (userCalls_aside a s).toQuiet.same.delivers h
  have hconnect : ∀ s, Delivered decode t s →
      Delivers decode t .openConnection (s.emit (.openConnection t)) :=
    fun s hs => .of_final ((Same.emit s rfl).done hs) rfl
  unfold ParsesAs at hdec
  cases p with
  | created => exact hconnect s h.delivered
  | sleep delay => exact hconnect s h.delivered
  | openConnection =>
    unfold PyClient.advance
    dsimp only
    split
    · refine ⟨?_, fun _ m hm => ?_⟩
      · simp [Delivered, handled, deliveries, deliver]
      · simp [handled] at hm
    · exact .of_final ((Same.emit s rfl).done h.delivered) rfl
    · exact h.delivered
  | onConnectFailure =>
    unfold PyClient.advance
    dsimp only
    split
    · exact hcalls
    · exact hcalls.delivered
    · exact .of_final hcalls.delivered rfl
    · exact hcalls.delivered
  | onConnected =>
    unfold PyClient.advance
    dsimp only
    split
    · exact hcalls
    · exact ((startReading_aside (userCalls a s)).toQuiet.same).delivers (hcalls.moved rfl)
    · exact hcalls.delivered
  | readHeader reader =>
    cases hread : readexactly reader a headerSize with
    | none =>
      simp only [PyClient.advance, hread]
      exact Delivers.stopped h.delivered
    | some r =>
      obtain ⟨conn, header⟩ := r
      simp only [PyClient.advance, hread] at hdec ⊢
      split_ifs at hdec ⊢
      · have hnew := newlyHandled_of_append (s := s) (handleMessage_spec t a
          ((Header.ofBytes header).type, []) (s.emit (.read t conn header))).2.1
        exact handleMessage_delivers h.delivered (h.decoded rfl) (hdec _ hnew)
      · exact ⟨h.delivered, fun _ => h.decoded rfl⟩
  | readPayload reader type size =>
    cases hread : readexactly reader a size with
    | none =>
      simp only [PyClient.advance, hread]
      exact Delivers.stopped h.delivered
    | some r =>
      obtain ⟨conn, payload⟩ := r
      simp only [PyClient.advance, hread] at hdec ⊢
      have hnew := newlyHandled_of_append (s := s) (handleMessage_spec t a (type, payload)
        (s.emit (.read t conn payload))).2.1
      exact handleMessage_delivers h.delivered (h.decoded rfl) (hdec _ hnew)
  | onMessage =>
    unfold PyClient.advance
    dsimp only
    split
    · exact hcalls
    · exact hcalls.moved rfl
    · exact Delivers.stopped hcalls.delivered
  | onDisconnected =>
    unfold PyClient.advance
    dsimp only
    split
    · exact hcalls
    · exact hconnect _ ((Same.emit _ rfl).done hcalls.delivered)
    · exact hcalls.delivered

theorem delivers_rule (decode : List UInt8 → Bool) (t : ℕ) :
    MainRule t (ParsesAs decode t) (Delivers decode t) (Delivered decode t)
      (Delivered decode t) where
  init := rfl
  forget _ _ h := h.delivered
  quiet _ _ _ hq h := hq.same.delivers h
  rest _ _ hq h := hq.same.done h
  created _ _ hq _ _ h := .of_final (hq.same.done h) rfl
  advance _ _ _ h hdec := h.advance hdec
  raised _ _ s h := raised_holds (fun _ _ hq => hq.same.done) (fun _ => Delivers.stopped)
    ((Same.emit s rfl).done h.delivered)
  ended s h := (Same.emit (s.setMain t none) rfl).done h

/-! ## Runs -/

theorem run_readAll (t : ℕ) (steps : List Step) :
    handled t (run steps).log = messages (received t (run steps).log) := by
  rw [← framed_eq_messages (allFit_noLimit _)]
  exact ((reads_rule t).run (runOk_of_forall (fun _ _ _ => trivial) steps clientInit)).rest

theorem run_delivered {steps : List Step} (h : RunOk (ParsesAs decode t) t steps clientInit) :
    Delivered decode t (run steps) :=
  ((delivers_rule decode t).run h).rest

/-- In every run in which no main task makes a connection while another one serves one, a main task
has handled the messages that have been read from its last connection, and has delivered them, up to
the first one that cannot be parsed. -/
theorem py_delivers (decode : List UInt8 → Bool) (t : ℕ) (steps : List Step)
    (hsole : Always Event.Sole (run steps).log)
    (h : RunOk (ParsesAs decode t) t steps clientInit) :
    handled t (run steps).log = messages (stream t (run steps).log) ∧
      deliveries t (run steps).log = deliver decode (messages (stream t (run steps).log)) := by
  have hall := run_readAll t steps
  have hdelivered : deliveries t (run steps).log = deliver decode (handled t (run steps).log) :=
    run_delivered h
  rw [received_eq_stream hsole t] at hall
  exact ⟨hall, hall ▸ hdelivered⟩

end

/-! ## A sample -/

namespace Sample

/-- `readexactly()` returns some bytes. -/
def reads (bs : List UInt8) : Answer := { nothing with read := some bs }

end Sample

open Sample

/-- A message and a half are read, the client is stopped, and another main task connects and reads
a pong and a message that cannot be parsed. -/
def stopBetweenSteps : List Step :=
  connectSteps 0 ++
    [.main 0 (reads [2, 0, 0, 1]) [reads [7], callback [], reads [2, 0, 0, 2]], .call .stop,
      .main 0 nothing [callback []]] ++ connectSteps 2 ++
    [.main 2 (reads [4, 0, 0, 0]) [reads [2, 0, 0, 2], { reads [1, 2] with parse := false }]]

theorem py_delivers_stopBetweenSteps :
    handled 2 (run stopBetweenSteps).log = messages (stream 2 (run stopBetweenSteps).log) ∧
      deliveries 2 (run stopBetweenSteps).log = deliver (fun payload => payload.length = 1)
        (messages (stream 2 (run stopBetweenSteps).log)) :=
  py_delivers _ 2 stopBetweenSteps (by decide) (by decide)

end Messi.PyClient
