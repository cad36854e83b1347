import Messi.LinuxServer.Runs

/-!
# Where the slots are

In every run every slot is in one of the three lists (`slots_in_lists`), and every connection is
reported disconnected once (`disconnected_once`).

The first result needs the user to leave `NAME_server_process()` alone in the message callbacks:
called there, it can destroy the client whose message is being handled. The second one is about
users who disconnect clients in `on_client_disconnected`; there it holds as long as the client that
is destroyed can be unlinked from the pending list, which the server does through a `prev_p` that
it does not maintain.
-/

namespace Messi.LinuxServer

open PointerList Sample

/-- Every one of the `n` slots is in one of the lists, and these are what the server takes them
for. -/
structure ListsOk (n : ℕ) (s : Server) (cl fl pl : List Slot) : Prop where
  connected : Links s.clients.nextP s.clients.connectedListP cl
  free : Links s.clients.nextP s.clients.freeListP fl
  pending : Links s.clients.nextP s.clients.pendingDisconnectListP pl
  all : (cl ++ (fl ++ pl)).Perm (List.range n)
  back : BackLinks s.clients.prevP cl
  connectedFd : ∀ c ∈ cl, s.clientFd c ≠ -1
  pendingFd : ∀ c ∈ pl, s.clientFd c = -1

section

variable {sz n : ℕ} {ls : Bool} {s : Server} {v : View} {c : Slot} {d : Discipline}

theorem Good.listsOk (h : Good sz s v) : ListsOk s.clientsMax s v.connected v.free v.pending :=
  ⟨h.slots.lists.connected, h.slots.lists.free, h.slots.lists.pending, h.slots.all,
    h.slots.lists.back, h.slots.connectedFd, h.slots.pendingFd⟩

/-- What `NAME_server_init()` and a successful `NAME_server_start()` leave. -/
theorem started_fine {m : Server} {messageSize : ℕ} {e : StartEnv} {b : Bool} (hn : 0 < n)
    (hs : started m n sz messageSize e = (0, s)) : Fine sz b true s ∧ s.clientsMax = n := by
  obtain ⟨v, hi, hg⟩ := serverInit_good m sz messageSize hn
  have hfine := serverStart_fine (hg.fine (b := b) hi) e
  have hgrow := serverStart_grows (serverInit m n sz messageSize) e
  unfold started at hs
  rw [hs] at hfine hgrow
  exact ⟨hfine, hgrow.2.1⟩

/-- Every state of a run stands for a view. -/
theorem run_good {m : Server} {messageSize : ℕ} {e : StartEnv} (hn : 0 < n)
    (hs : started m n sz messageSize e = (0, s)) (hd : d.processInMessage = false)
    (depth : ℕ) (calls : List Call)
    (hu : d.callInDisconnected = true → ¬ BadUnlink (run d depth calls s).state.log) :
    ∃ v, v.busy = none ∧ Good sz (run d depth calls s).state v ∧
      (run d depth calls s).state.clientsMax = n := by
  obtain ⟨hfine, hmax⟩ := started_fine (b := d.callInDisconnected) hn hs
  have hrun := (run_fine d hd depth calls hfine).state fun _ _ ht => ht.inside
  have hgrow := (run_grows d depth calls s).state fun _ _ ht => ht
  rcases hrun with ⟨hb, hbad⟩ | ⟨v, hv, hg⟩
  · exact absurd hbad (hu hb)
  · exact ⟨v, hv, hg, hgrow.2.1.trans hmax⟩

/-- Every slot is in one of the lists, in every state between two calls and inside the callbacks,
and every traversal of a list has ended. -/
theorem slots_in_lists {m : Server} {messageSize : ℕ} {e : StartEnv} (hn : 0 < n)
    (hs : started m n sz messageSize e = (0, s)) (depth : ℕ) (calls : List Call) :
    (∃ cl fl pl, ListsOk n (run ⟨false, false⟩ depth calls s).state cl fl pl) ∧
      Event.outOfFuel ∉ (run ⟨false, false⟩ depth calls s).state.log := by
  obtain ⟨v, -, hg, hmax⟩ := run_good (d := ⟨false, false⟩) hn hs rfl depth calls nofun
  refine ⟨⟨v.connected, v.free, v.pending, hmax ▸ hg.listsOk⟩, fun hmem => ?_⟩
  obtain ⟨l, hl⟩ := hg.log.mem hmem
  exact hl

/-- A client leaves from a message callback, and another one connects from `on_client_connected`. -/
def someCalls : List Call :=
  [connect 5 6, receive 5 [read (.data [1, 0, 0, 0]) [.disconnect none, .pause]],
    .process 3 ⟨true, false⟩ { nothing with
      accept := ⟨some 9, true, true, some 10, true, true, true, [connect 11 12, .pause]⟩ }]

theorem slots_in_lists_someCalls :
    (∃ cl fl pl, ListsOk 2 (run ⟨false, false⟩ 1 someCalls (server 2 16)).state cl fl pl) ∧
      Event.outOfFuel ∉ (run ⟨false, false⟩ 1 someCalls (server 2 16)).state.log :=
  slots_in_lists (n := 2) (m := memory) (e := start) (by decide) rfl 1 someCalls

/-- A list has as many cells as one can walk. -/
theorem ListsOk.free_nodup {cl fl pl : List Slot} (h : ListsOk n s cl fl pl) :
    (walk s.clients.nextP n s.clients.freeListP).Nodup := by
  have hlen : fl.length ≤ n := by
    have hall := h.all.length_eq
    simp only [List.length_append, List.length_range] at hall
    omega
  rw [h.free.walk_eq hlen]
  exact h.free.nodup

/-- A message callback disconnects its client, and calls `NAME_server_process()`: once for nothing,
which frees the slot, and once for a client whose timer cannot be created, which takes the slot and
leaves its descriptor there; `read()` on that one fails. -/
def processCalls : List Call :=
  [connect 5 6, connect 7 8,
    receive 5 [read (.data [1, 0, 0, 0]) [.disconnect none, .process 3 ⟨true, false⟩ nothing,
      connect 9 (-1)], read .error []]]

/-- The slot is put on the free list again, in front of itself. -/
theorem not_slots_in_lists_processCalls :
    ¬ ∃ cl fl pl, ListsOk 2 (run ⟨true, false⟩ 1 processCalls (server 2 16)).state cl fl pl := by
  rintro ⟨cl, fl, pl, h⟩
  have hnodup := h.free_nodup
  revert hnodup
  decide

/-! ## Connections, one after the other -/

/-- What happens on one connection of `c`. -/
def connection (c : Slot) : List Event :=
  [.onClientConnected c, .pendingDisconnect c, .onClientDisconnected c, .slotFreed c]

/-- How far the connection of a slot has come. -/
def Phase.events (c : Slot) : Phase → List Event
  | .free => []
  | .connected => [.onClientConnected c]
  | .pending => [.onClientConnected c, .pendingDisconnect c]
  | .notified => [.onClientConnected c, .pendingDisconnect c, .onClientDisconnected c]

/-- What has happened on the connections of `c`, oldest first. -/
def life (c : Slot) (l : List Event) : List Event := (l.filter (· ∈ connection c)).reverse

theorem life_of_mem {e : Event} (l : List Event) (h : e ∈ connection c) :
    life c (e :: l) = life c l ++ [e] := by
  simp [life, h]

theorem life_of_notMem {e : Event} (l : List Event) (h : e ∉ connection c) :
    life c (e :: l) = life c l := by
  simp [life, h]

/-- A slot that nobody has stopped has had whole connections, and a last one. -/
theorem life_eq {l : List Event} {p : Phase} (h : phase c l = some p)
    (hstop : ∀ d, Event.slotStopped d ∉ l) :
    ∃ k, life c l = (List.replicate k (connection c)).flatten ++ p.events c := by
  induction l generalizing p with
  | nil =>
    obtain rfl : Phase.free = p := Option.some.inj h
    exact ⟨0, rfl⟩
  | cons e l ih =>
    have hstop' : ∀ d, Event.slotStopped d ∉ l := fun d hd => hstop d (List.mem_cons_of_mem e hd)
    -- an event of `c` follows the one before it
    have hstep : ∀ q r : Phase, e ∈ connection c → phase c l = some q →
        q.events c ++ [e] = r.events c →
        ∃ k, life c (e :: l) = (List.replicate k (connection c)).flatten ++ r.events c := by
      intro q r he hq hr
      obtain ⟨k, hk⟩ := ih hq hstop'
      exact ⟨k, by rw [life_of_mem l he, hk, List.append_assoc, hr]⟩
    have hother : e ∉ connection c → phase c l = some p →
        ∃ k, life c (e :: l) = (List.replicate k (connection c)).flatten ++ p.events c := by
      intro he hp
      rw [life_of_notMem l he]
      exact ih hp hstop'
    cases e with
    | onClientConnected d =>
      by_cases hd : d = c
      · subst hd
        simp only [phase, if_true, Option.ite_none_right_eq_some, Option.some.injEq] at h
        obtain ⟨hq, rfl⟩ := h
        exact hstep .free .connected (by simp [connection]) hq rfl
      · exact hother (by simp [connection, hd]) (by simpa [phase, hd] using h)
    | pendingDisconnect d =>
      by_cases hd : d = c
      · subst hd
        simp only [phase, if_true, Option.ite_none_right_eq_some, Option.some.injEq] at h
        obtain ⟨hq, rfl⟩ := h
        exact hstep .connected .pending (by simp [connection]) hq rfl
      · exact hother (by simp [connection, hd]) (by simpa [phase, hd] using h)
    | onClientDisconnected d =>
      by_cases hd : d = c
      · subst hd
        simp only [phase, if_true, Option.ite_none_right_eq_some, Option.some.injEq] at h
        obtain ⟨hq, rfl⟩ := h
        exact hstep .pending .notified (by simp [connection]) hq rfl
      · exact hother (by simp [connection, hd]) (by simpa [phase, hd] using h)
    | slotFreed d =>
      by_cases hd : d = c
      · subst hd
        simp only [phase, if_true, Option.ite_none_right_eq_some, Option.some.injEq] at h
        obtain ⟨hq, rfl⟩ := h
        -- the connection is over
        obtain ⟨k, hk⟩ := ih hq hstop'
        refine ⟨k + 1, ?_⟩
        rw [life_of_mem l (by simp [connection]), hk, List.replicate_succ', List.flatten_append]
        simp [Phase.events, connection]
      · exact hother (by simp [connection, hd]) (by simpa [phase, hd] using h)
    | slotStopped d => exact absurd List.mem_cons_self (hstop d)
    | _ => exact hother (by simp [connection]) h

/-- Every connection of every slot goes through its stages once and in order, the slots of the
connected list are those whose last connection has not been disconnected, and those in no list but
the free one have had `on_client_disconnected` for every connection. -/
def DisconnectedOnce (n : ℕ) (s : Server) : Prop :=
  ∃ cl fl pl, ListsOk n s cl fl pl ∧ ∀ c, ∃ k tail,
    life c s.log = (List.replicate k (connection c)).flatten ++ tail ∧
      (c ∈ cl → tail = [.onClientConnected c]) ∧
      (c ∈ pl → tail = [.onClientConnected c, .pendingDisconnect c] ∨
        tail = [.onClientConnected c, .pendingDisconnect c, .onClientDisconnected c]) ∧
      (c ∉ cl → c ∉ pl → tail = [])

theorem Good.disconnectedOnce (h : Good sz s v) (hstop : ∀ d, Event.slotStopped d ∉ s.log) :
    DisconnectedOnce s.clientsMax s := by
  refine ⟨v.connected, v.free, v.pending, h.listsOk, fun c => ?_⟩
  have hnot : c ∈ v.connected → c ∉ v.pending := fun hc hp =>
    h.slots.connectedFd c hc (h.slots.pendingFd c hp)
  by_cases hc : c ∈ v.connected
  · obtain ⟨k, hk⟩ := life_eq (h.slots.connectedPhase c hc) hstop
    exact ⟨k, _, hk, fun _ => rfl, fun hp => absurd hp (hnot hc), fun hn => absurd hc hn⟩
  · by_cases hp : c ∈ v.pending
    · obtain ⟨k, hk⟩ := life_eq (h.slots.pendingPhase c hp) hstop
      refine ⟨k, _, hk, fun hc' => absurd hc' hc, fun _ => ?_, fun _ hn => absurd hp hn⟩
      by_cases hplace : v.place = .disconnected c
      · rw [if_pos hplace]
        exact Or.inr rfl
      · rw [if_neg hplace]
        exact Or.inl rfl
    · obtain ⟨k, hk⟩ := life_eq (h.slots.freePhase c hc hp) hstop
      exact ⟨k, [], hk, fun hc' => absurd hc' hc, fun hp' => absurd hp' hp, fun _ _ => rfl⟩

/-- With calls from `on_client_disconnected`, connections are reported disconnected once, in every
run in which the client that is destroyed after its callback can be unlinked from the pending list:
it is at the head, or its `prev_p` points to its predecessor. -/
theorem disconnected_once {m : Server} {messageSize : ℕ} {e : StartEnv} (hn : 0 < n)
    (hs : started m n sz messageSize e = (0, s)) (depth : ℕ) (calls : List Call)
    (hu : ¬ BadUnlink (run ⟨false, true⟩ depth calls s).state.log) :
    DisconnectedOnce n (run ⟨false, true⟩ depth calls s).state := by
  obtain ⟨v, -, hg, hmax⟩ := run_good (d := ⟨false, true⟩) hn hs rfl depth calls fun _ => hu
  have hgrow := (run_grows ⟨false, true⟩ depth calls s).state fun _ _ ht => ht
  have hstart := serverStart_grows (serverInit m n sz messageSize) e
  unfold started at hs
  rw [hs] at hstart
  rw [← hmax]
  refine hg.disconnectedOnce fun d hd => ?_
  have := hstart.2.2 d (hgrow.2.2 d hd)
  cases this

/-- When slot 0 has left, slot 1 is disconnected, which was in front of it in the connected list
and is now in the pending one. -/
def inFrontCalls : List Call :=
  [connect 5 6, connect 7 8,
    .process 6 ⟨true, false⟩ { nothing with disconnected := fun _ => [.disconnect (some 1)] }]

set_option maxRecDepth 4000 in
theorem disconnected_once_inFrontCalls :
    DisconnectedOnce 2 (run ⟨false, true⟩ 0 inFrontCalls (server 2 16)).state :=
  disconnected_once (n := 2) (m := memory) (e := start) (by decide) rfl 0 inFrontCalls (by decide)

theorem DisconnectedOnce.count_le (h : DisconnectedOnce n s) (c : Slot) :
    (life c s.log).count (.onClientDisconnected c) ≤
    (life c s.log).count (.onClientConnected c) := by
  obtain ⟨cl, fl, pl, -, hall⟩ := h
  obtain ⟨k, tail, hlife, hcl, hpl, hfree⟩ := hall c
  have htail : tail.count (.onClientDisconnected c) ≤ tail.count (.onClientConnected c) := by
    by_cases hc : c ∈ cl
    · rw [hcl hc]
      simp
    · by_cases hp : c ∈ pl
      · rcases hpl hp with rfl | rfl <;> simp
      · rw [hfree hc hp]
        exact Nat.le_refl _
  rw [hlife, List.count_append, List.count_append]
  simp only [List.count_flatten, List.map_replicate, List.sum_replicate]
  simpa [connection] using htail

/-- When slot 1 has left, slot 0 is disconnected, which was behind it. -/
def behindCalls : List Call :=
  [connect 5 6, connect 7 8, connect 9 10,
    .process 8 ⟨true, false⟩ { nothing with disconnected := fun c =>
      if c = 1 then [.disconnect (some 0)] else [] },
    .process 100 ⟨true, false⟩ nothing]

set_option maxRecDepth 4000 in
/-- The slot that has left stays in the pending list, and is reported again. -/
theorem not_disconnectedOnce_behindCalls :
    ¬ DisconnectedOnce 3 (run ⟨false, true⟩ 0 behindCalls (server 3 16)).state := by
  intro h
  have hcount := h.count_le 1
  revert hcount
  decide

end

end Messi.LinuxServer
