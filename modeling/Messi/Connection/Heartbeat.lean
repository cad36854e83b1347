import Messi.AsyncClient.KeepAlive
import Messi.AsyncServer.Pongs
import Messi.Base.Heartbeat
import Messi.Connection.Link

/-!
# One token

A client written in C, and either of the two servers, on a connection: whatever the two do, there is
one token. The client has it when `pong_received` is true; otherwise it is a ping under way to the
server, or one that the server has not answered, or a pong under way to the client (`one_token`).
That is from the time on at which the client had a connection and had not handled anything there,
and as long as each end has what it relies on (`Setup.Sound`).
-/

namespace Messi

open Trace

/-! ## The Linux client -/

namespace LinuxClient

/-- A ping of which the socket has accepted the whole frame, or a pong. -/
def Event.beat : Event → Option Beat
  | .write _ m n => if isPing m = true ∧ n = (frameBytes m).length then some .ping else none
  | .handleMessage m => if isPong m = true then some .pong else none
  | _ => none

def beats : List Event → List Beat := beatsOf Event.begins Event.beat

/-- What `pong_received` says, once there has been a connection. -/
structure Flagged (s : Client) : Prop where
  up : s.serverFd ≠ -1 → 0 < s.log.countP Event.begins
  flag : 0 < s.log.countP Event.begins → s.pongReceived = !Beat.waits (beats s.log)
  prompt : Always Beat.Prompt (beats s.log)

/-- Nothing begins, and there is no beat. -/
def Event.still (e : Event) : Prop := e.begins = false ∧ e.beat = none

section

variable {s t : Client} {e : Event} {evs : List Event}

theorem Event.still_of_bare (h : e.bare = true) : e.still := by
  cases e <;> first | exact ⟨rfl, rfl⟩ | cases h

theorem Flagged.agree (h : Agree s t) (hs : Flagged s) : Flagged t := by
  obtain ⟨hup, hflag, hprompt⟩ := hs
  constructor
  · rw [h.serverFd, h.log]
    exact hup
  · rw [h.pongReceived, h.log]
    exact hflag
  · rw [h.log]
    exact hprompt

theorem Flagged.still (hs : Flagged s) (hevs : ∀ e ∈ evs, e.still) (hlog : t.log = evs ++ s.log)
    (hup : t.serverFd ≠ -1 → s.serverFd ≠ -1) (hpong : t.pongReceived = s.pongReceived) :
    Flagged t := by
  have hnone : evs.countP Event.begins = 0 :=
    List.countP_eq_zero.2 fun e he => Bool.eq_false_iff.1 (hevs e he).1
  have hcount : t.log.countP Event.begins = s.log.countP Event.begins := by
    rw [hlog, List.countP_append, hnone, Nat.zero_add]
  have hbeats : beats t.log = beats s.log := by
    rw [hlog]
    exact beatsOf_still hevs
  constructor
  · rw [hcount]
    exact fun ht => hs.up (hup ht)
  · rw [hcount, hbeats, hpong]
    exact hs.flag
  · rw [hbeats]
    exact hs.prompt

theorem Flagged.emit (hs : Flagged s) (he : e.still) : Flagged (s.emit e) := by
  have hlog : (s.emit e).log = [e] ++ s.log := rfl
  exact hs.still (by simpa using he) hlog id rfl

theorem Flagged.pending (hs : Flagged s) (r : DisconnectReason) :
    Flagged (pendingDisconnect s r) := by
  obtain ⟨evs, hevs, hlog⟩ := pendingDisconnect_still s r
  refine hs.still (fun e he => Event.still_of_bare (hevs e he)) hlog up_of_pendingDisconnect ?_
  rcases pendingDisconnect_spec s r with ⟨-, h⟩ | ⟨-, h⟩ <;> rw [h]

theorem Flagged.disconnect (hs : Flagged s) : Flagged (disconnect s) := by
  obtain ⟨evs, hevs, hlog⟩ := disconnect_still s
  refine hs.still (fun e he => Event.still_of_bare (hevs e he)) hlog up_of_pendingDisconnect ?_
  show (pendingDisconnect s .messageEncodeError).pongReceived = s.pongReceived
  rcases pendingDisconnect_spec s .messageEncodeError with ⟨-, h⟩ | ⟨-, h⟩ <;> rw [h]

/-- A ping is sent, and none waits. -/
theorem Flagged.ping (hs : Flagged s) (hup : s.serverFd ≠ -1) (hpong : s.pongReceived = true) :
    Flagged { s.emit (.write s.serverFd (messageTypePing, [])
      (frameBytes (messageTypePing, [])).length) with pongReceived := false } := by
  have hmade := hs.up hup
  have hnone : Beat.waits (beats s.log) = false := by simpa [hpong] using hs.flag hmade
  exact ⟨fun _ => hmade, fun _ => rfl, fun _ => hnone, hs.prompt⟩

theorem Flagged.message (hs : Flagged s) (m : Message) :
    Flagged { s.emit (.handleMessage m) with pongReceived := isPong m || s.pongReceived } := by
  cases hm : isPong m with
  | false =>
    have hstill : (Event.handleMessage m).still := ⟨rfl, by simp [Event.beat, hm]⟩
    exact hs.emit hstill
  | true =>
    have hbeats : beats (.handleMessage m :: s.log) = .pong :: beats s.log := by
      simp [beats, beatsOf, Event.begins, Event.beat, hm]
    refine ⟨hs.up, fun _ => ?_, ?_⟩
    · show true = !Beat.waits (beats (.handleMessage m :: s.log))
      rw [hbeats]
      rfl
    · show Always Beat.Prompt (beats (.handleMessage m :: s.log))
      rw [hbeats]
      exact ⟨fun h => absurd h (by decide), hs.prompt⟩

theorem Move.flagged (h : Move s t) (hs : Flagged s) : Flagged t := by
  cases h with
  | bare evs hevs h =>
    have hkept : Flagged { s with log := evs ++ s.log } :=
      hs.still (fun e he => Event.still_of_bare (hevs e he)) rfl id rfl
    exact hkept.agree h
  | readTimer fd ok h => exact (hs.emit ⟨rfl, rfl⟩).agree h
  | pending r hr h => exact (hs.pending r).agree h
  | timeout fd l last pong h => exact (hs.pending _).agree h
  | user payload up h => exact (hs.emit ⟨rfl, rfl⟩).agree h
  | ping up pong h => exact (hs.ping up pong).agree h
  | short m n hn down pong r hr h =>
    have hstill : (Event.write s.serverFd m n).still := ⟨rfl, if_neg fun hm => hn.ne hm.2⟩
    exact ((hs.emit hstill).pending r).agree h
  | message m up h => exact (hs.message m).agree h
  | disconnect h => exact hs.disconnect.agree h
  | dropped pending h => exact (hs.disconnect.emit ⟨rfl, rfl⟩).agree h
  | connected fd evs l hevs opened h =>
    refine Flagged.agree h ⟨fun _ => ?_, fun _ => rfl, trivial⟩
    show 0 < (Event.onConnected fd s.pendingDisconnect :: s.log).countP Event.begins
    exact List.countP_pos_iff.2 ⟨_, List.mem_cons_self, rfl⟩

theorem Moves.flagged (h : Moves s t) (hs : Flagged s) : Flagged t := by
  induction h with
  | refl => exact hs
  | tail _ h ih => exact h.flagged ih

theorem clientInit_flagged (m : Client) (sz n : ℕ) : Flagged (clientInit m sz n) :=
  ⟨fun hup => absurd rfl hup, nofun, trivial⟩

theorem Setup.Sound.flagged {x : Setup} (h : x.Sound s) : Flagged s := by
  obtain ⟨⟨calls, rfl⟩, -⟩ := h
  exact (run_moves _ _ _ calls x.init).flagged (clientInit_flagged _ _ _)

theorem pings_beats (l : List Event) : Beat.pings (beats l) = (transmitted l).countP isPing := by
  refine count_beatsOf transmitted_collects (fun l e he => ?_) l
  cases e <;> try rfl
  case write fd m n =>
    simp only [Event.beat]
    split_ifs <;> simp_all
  case handleMessage m =>
    simp only [Event.beat]
    split_ifs <;> rfl

theorem pongs_beats (l : List Event) : Beat.pongs (beats l) = (handled l).countP isPong := by
  refine count_beatsOf handled_collects (fun l e he => ?_) l
  cases e <;> try rfl
  case write fd m n =>
    simp only [Event.beat]
    split_ifs <;> rfl
  case handleMessage m =>
    simp only [Event.beat]
    split_ifs <;> simp_all

end

def Setup.pinger (x : Setup) : Pinger x.party isPing isPong where
  beats s := beats s.log
  pings _ := pings_beats _
  pongs _ := pongs_beats _
  prompt hs := hs.flagged.prompt
  goesOn := by
    rintro s t ⟨call, rfl⟩ hn
    exact beatsOf_mono (callWith_moves x.top x.inner x.nest call s).log_suffix hn

end LinuxClient

/-! ## The async client -/

namespace AsyncClient

/-- A ping that is written while there is a connection, or a pong. -/
def Event.beat : Event → Option Beat
  | .write true m => if isPing m = true then some .ping else none
  | .handleMessage m => if isPong m = true then some .pong else none
  | _ => none

def beats : List Event → List Beat := beatsOf Event.begins Event.beat

section

variable {l : List Event}

theorem pings_beats (l : List Event) : Beat.pings (beats l) = (written l).countP isPing := by
  refine count_beatsOf written_collects (fun l e he => ?_) l
  cases e <;> try rfl
  case write connected m =>
    cases connected
    · rfl
    · simp only [Event.beat]
      split_ifs <;> simp_all
  case handleMessage m =>
    simp only [Event.beat]
    split_ifs <;> rfl

theorem pongs_beats (l : List Event) : Beat.pongs (beats l) = (handled l).countP isPong := by
  refine count_beatsOf handled_collects (fun l e he => ?_) l
  cases e <;> try rfl
  case write connected m =>
    cases connected
    · rfl
    · simp only [Event.beat]
      split_ifs <;> rfl
  case handleMessage m =>
    simp only [Event.beat]
    split_ifs <;> simp_all

theorem waits_beats (h : Always Event.Prompt l) : Beat.waits (beats l) = awaiting l := by
  induction l with
  | nil => rfl
  | cons e l ih =>
    have hrest := ih h.2
    cases e <;> try exact hrest
    case write connected m =>
      cases hm : isPing m with
      | false =>
        have hbeat : Event.beat (.write connected m) = none := by
          cases connected <;> simp [Event.beat, hm]
        rw [beats, beatsOf_none rfl hbeat, awaiting, hm]
        exact hrest
      | true =>
        obtain ⟨rfl, -⟩ := h.1 hm
        have hbeat : Event.beat (.write true m) = some .ping := if_pos hm
        rw [beats, beatsOf_some rfl hbeat, awaiting, hm]
        rfl
    case handleMessage m =>
      cases hm : isPong m with
      | false =>
        have hbeat : Event.beat (.handleMessage m) = none := by simp [Event.beat, hm]
        rw [beats, beatsOf_none rfl hbeat, awaiting, hm]
        exact hrest
      | true =>
        have hbeat : Event.beat (.handleMessage m) = some .pong := if_pos hm
        rw [beats, beatsOf_some rfl hbeat, awaiting, hm]
        rfl
    case onConnected => rfl

theorem prompt_beats (h : Always Event.Prompt l) : Always Beat.Prompt (beats l) := by
  refine beatsOf_prompt ?_
  induction l with
  | nil => trivial
  | cons e l ih =>
    refine ⟨fun hbeat => ?_, ih h.2⟩
    show Beat.waits (beats l) = false
    rw [waits_beats h.2]
    cases e
    case write connected m =>
      have hping : isPing m = true := by
        cases connected <;> simp_all [Event.beat]
      exact (h.1 hping).2
    case handleMessage m =>
      cases hm : isPong m <;> simp [Event.beat, hm] at hbeat
    all_goals cases hbeat

end

theorem Setup.Sound.keepsAlive {x : Setup} {s : Client} (h : x.Sound s) : KeepsAlive s := by
  obtain ⟨⟨steps, rfl⟩, -⟩ := h
  exact (init_keepsAlive _ _ _).run steps

def Setup.pinger (x : Setup) : Pinger x.party isPing isPong where
  beats s := beats s.log
  pings _ := pings_beats _
  pongs _ := pongs_beats _
  prompt hs := prompt_beats hs.keepsAlive.prompt
  goesOn := by
    rintro s t ⟨y, rfl⟩ hn
    exact beatsOf_mono (step_suffix y s) hn

end AsyncClient

/-! ## The servers -/

namespace LinuxServer

theorem Setup.answers (x : Setup) : x.party.Answers isPing isPong := by
  rintro s ⟨⟨calls, hrun⟩, -⟩
  have hanswers := run_answers x.started x.discipline x.depth calls x.slot
  rw [hrun] at hanswers
  exact hanswers.pongs

end LinuxServer

namespace AsyncServer

theorem Setup.answers (x : Setup) : x.party.Answers isPing isPong := by
  rintro s ⟨-, ⟨steps, rfl⟩, -⟩
  have hanswering := run_answering x.memory x.clientsMax x.inputSize x.messageSize steps
  exact (hanswering.answers x.slot).pongs.le

end AsyncServer

namespace Connection

/-- A client written in C. -/
inductive CClient where
  | linux (x : LinuxClient.Setup)
  | async (x : AsyncClient.Setup)

def CClient.toEnd : CClient → ClientEnd
  | .linux x => .linux x
  | .async x => .async x

def CClient.pinger : (k : CClient) → Pinger k.toEnd.party isPing isPong
  | .linux x => x.pinger
  | .async x => x.pinger

def CClient.pongReceived : (k : CClient) → k.toEnd.State → Bool
  | .linux _, (s : LinuxClient.Client) => s.pongReceived
  | .async _, (s : AsyncClient.Client) => s.pongReceived

theorem ServerEnd.answers (j : ServerEnd) : j.party.Answers isPing isPong := by
  cases j with
  | linux x => exact x.answers
  | async x => exact x.answers

/-- `pong_received` is true just when no ping waits. -/
theorem CClient.flag (k : CClient) {s : k.toEnd.State} (hs : k.toEnd.party.Sound s)
    (hmade : 0 < k.toEnd.party.connections s) :
    k.pongReceived s = !Beat.waits (k.pinger.beats s) := by
  cases k with
  | linux x => exact LinuxClient.Flagged.flag hs.flagged hmade
  | async x =>
    have hkeeps := AsyncClient.Setup.Sound.keepsAlive hs
    obtain ⟨e, he, hbegins⟩ := List.countP_pos_iff.1 hmade
    have hconnected : e = .onConnected := by cases e <;> first | rfl | cases hbegins
    show _ = !Beat.waits (AsyncClient.beats _)
    rw [AsyncClient.waits_beats hkeeps.prompt]
    exact hkeeps.flag (hconnected ▸ he)

/-- There is one token from the time on at which the client had not handled anything. -/
theorem one_token (k : CClient) (j : ServerEnd) (p q : Session k.toEnd.party j.party)
    (hmade : 0 < k.toEnd.party.connections p.left)
    (hnone : (k.toEnd.party.traffic p.left).handled = []) (h : Session.Steps p q) :
    (k.pongReceived q.left).toNat + ((toServer q).content.countP isPing +
      j.party.unanswered isPing isPong q.right + (toClient q).content.countP isPong) = 1 := by
  have hpongs : Beat.pongs (k.pinger.beats p.left) = 0 := by
    rw [k.pinger.pongs p.leftSound, hnone]
    rfl
  have hfirst : Always Beat.Due (k.pinger.beats p.left) :=
    Beat.due_extend (show Always Beat.Due [] from trivial) List.nil_suffix hpongs.le
  have hdue := h.due messages_mono k.pinger j.answers hfirst
  have htoken := q.token messages_mono k.pinger j.answers hdue
  have hflag := k.flag q.leftSound (h.connections ▸ hmade)
  rw [hflag]
  unfold toServer toClient
  unfold Session.rightward Session.leftward at htoken
  rw [htoken]
  cases Beat.waits (k.pinger.beats q.left) <;> rfl

/-! ## A ping -/

open Sample

/-- The client sends a ping when its timer expires; the server gets it in two parts, and its pong
stays in the output queue. -/
def pingStep : AsyncClient.Step := .timeout .keepAlive

def firstCall : LinuxServer.Call :=
  LinuxServer.Sample.receive 5 [LinuxServer.Sample.read (.data [3, 0]) []]

def restCall : LinuxServer.Call :=
  LinuxServer.Sample.receive 5 [LinuxServer.Sample.read (.data [0, 0]) []]

set_option maxRecDepth 4000 in
theorem one_token_ping :
    (CClient.pongReceived (.async Sample.asyncClient) (clientAfter [pingStep])).toNat +
      ((toServer (session [pingStep] [firstCall, restCall] (by decide) rfl)).content.countP isPing +
        (ServerEnd.linux Sample.linuxServer).party.unanswered isPing isPong
          (serverAfter [firstCall, restCall]) +
        (toClient (session [pingStep] [firstCall, restCall] (by decide) rfl)).content.countP
          isPong) =
      1 := by
  have hping :
      Session.Steps (session [] [] (by decide) rfl) (session [pingStep] [] (by decide) rfl) :=
    .single (.left ⟨pingStep, rfl⟩ rfl rfl)
  have hfirst : Session.Steps (session [pingStep] [] (by decide) rfl)
      (session [pingStep] [firstCall] (by decide) rfl) := .single (.right ⟨firstCall, rfl⟩ rfl rfl)
  have hrest : Session.Steps (session [pingStep] [firstCall] (by decide) rfl)
      (session [pingStep] [firstCall, restCall] (by decide) rfl) :=
    .single (.right ⟨restCall, rfl⟩ rfl rfl)
  exact one_token (.async Sample.asyncClient) (.linux Sample.linuxServer)
    (session [] [] (by decide) rfl)
    (session [pingStep] [firstCall, restCall] (by decide) rfl) (by decide) rfl
    ((hping.trans hfirst).trans hrest)

end Connection

end Messi
