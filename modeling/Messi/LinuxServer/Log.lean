import Messi.Base.Trace
import Messi.LinuxServer.State

/-!
# The log

Which of the observations of the log an event concerns, and `LogOk`, which says of a whole log that
every event of it was in order when it happened: descriptors were open when they were used, and
closed once; a connection was read from only while it was up, and into its own buffer; every list
was unlinked from properly; and no traversal went on for ever.
-/

namespace Messi.LinuxServer

variable {e : Event} {l l' : List Event} {c : Slot}

/-! ## What an event is about -/

/-- The event is about which descriptors are open. -/
def Event.ofFds : Event → Bool
  | .opened _ | .closed _ => true
  | _ => false

/-- The event is about the life of a slot. -/
def Event.ofSlots : Event → Bool
  | .onClientConnected _ | .pendingDisconnect _ | .onClientDisconnected _ | .slotFreed _
  | .slotStopped _ => true
  | _ => false

/-- The slot whose input the event is about. -/
def Event.input? : Event → Option Slot
  | .read c .. | .handleMessage c _ | .handleFailed c | .onClientConnected c
  | .pendingDisconnect c => some c
  | _ => none

/-- The slot whose output the event is about. -/
def Event.output? : Event → Option Slot
  | .write c .. | .malloc c none | .frame c _ | .onClientConnected c => some c
  | _ => none

theorem phase_cons (h : e.ofSlots = false) : phase c (e :: l) = phase c l := by
  cases e <;> first | rfl | cases h

theorem openFds_cons (h : e.ofFds = false) : openFds (e :: l) = openFds l := by
  cases e <;> first | rfl | cases h

theorem received_cons (h : e.input? ≠ some c) : received c (e :: l) = received c l := by
  cases e <;> first | rfl | simp_all [Event.input?, received]

theorem handled_cons (h : e.input? ≠ some c) : handled c (e :: l) = handled c l := by
  cases e <;> first | rfl | simp_all [Event.input?, handled]

theorem ended_cons (h : e.input? ≠ some c) : ended c (e :: l) = ended c l := by
  cases e <;> first | rfl | simp_all [Event.input?, ended]

theorem accepted_cons (h : e.output? ≠ some c) : accepted c (e :: l) = accepted c l := by
  cases e <;> first | rfl | simp_all [Event.output?, accepted]

theorem issued_cons (h : e.output? ≠ some c) : issued c (e :: l) = issued c l := by
  cases e <;> first | rfl | simp_all [Event.output?, issued]

theorem mallocOk_cons (h : e.output? ≠ some c) : mallocOk c (e :: l) = mallocOk c l := by
  cases e with
  | malloc d item => cases item <;> simp_all [Event.output?, mallocOk]
  | onClientConnected d => simp_all [Event.output?, mallocOk]
  | _ => rfl

instance (c : Slot) (l : List Event) : Decidable (mallocOk c l) := by
  induction l with
  | nil => exact inferInstanceAs (Decidable True)
  | cons e l ih =>
    cases e
    case malloc d item =>
      cases item with
      | none => exact inferInstanceAs (Decidable (d ≠ c ∧ mallocOk c l))
      | some i => exact ih
    case onClientConnected d => exact inferInstanceAs (Decidable (d = c ∨ mallocOk c l))
    all_goals exact ih

/-- What has been logged between two states. -/
def eventsSince (s t : Server) : List Event := t.log.take (t.log.length - s.log.length)

theorem eventsSince_eq {s t : Server} {evs : List Event} (h : t.log = evs ++ s.log) :
    eventsSince s t = evs := by
  unfold eventsSince
  rw [h, List.length_append, Nat.add_sub_cancel]
  exact List.take_left' rfl

/-! ## Events in order -/

/-- The event was in order when it happened after the log `l`; `sz` is the size of an input
buffer. `read()` and `write()` on `-1` fail, and `epoll_ctl()` does. -/
def EventOk (sz : ℕ) (l : List Event) : Event → Prop
  | .opened fd => fd ∉ openFds l
  | .closed fd => fd ∈ openFds l
  | .epollCtl _ fd _ _ => fd = -1 ∨ fd ∈ openFds l
  | .settime fd _ => fd ∈ openFds l
  | .read c fd addr want bs =>
    (fd = -1 ∨ fd ∈ openFds l) ∧ (bs ≠ [] → ended c l = false) ∧
      (headerSize ≤ sz → fd ≠ -1 → 0 < want ∧ c * sz ≤ addr ∧ addr + want ≤ (c + 1) * sz)
  | .write _ fd _ => fd = -1 ∨ fd ∈ openFds l
  | .handleMessage c _ => ended c l = false
  | .unlinked _ ok => ok = true
  | .outOfFuel => False
  | _ => True

/-- Every event of the log was in order. -/
abbrev LogOk (sz : ℕ) : List Event → Prop := Trace.Always (EventOk sz)

theorem LogOk.mem {sz : ℕ} (h : LogOk sz l') (he : e ∈ l') : ∃ l, EventOk sz l e := by
  obtain ⟨l₁, l₂, rfl⟩ := List.append_of_mem he
  exact ⟨l₂, h.event (List.suffix_append l₁ (e :: l₂))⟩

/-- A list was unlinked from through a stale `prev_p`. -/
def BadUnlink (l : List Event) : Prop := ∃ c, Event.unlinked c false ∈ l

instance : Decidable (BadUnlink l) :=
  decidable_of_iff (l.any fun | .unlinked _ ok => !ok | _ => false) <| by
    rw [List.any_eq_true]
    constructor
    · rintro ⟨e, he, hbad⟩
      cases e with
      | unlinked c ok =>
        obtain rfl : ok = false := by simpa using hbad
        exact ⟨c, he⟩
      | _ => cases hbad
    · rintro ⟨c, hc⟩
      exact ⟨_, hc, rfl⟩

theorem BadUnlink.suffix (h : BadUnlink l) (hl : l <:+ l') : BadUnlink l' :=
  h.imp fun _ hc => hl.subset hc

/-! ## Logs that agree -/

/-- No observation of the log is about the event. -/
structure Event.Neutral (e : Event) : Prop where
  ofFds : e.ofFds = false
  ofSlots : e.ofSlots = false
  input : e.input? = none
  output : e.output? = none

/-- The logs agree on everything that is observed of them. -/
structure SameLog (l l' : List Event) : Prop where
  phase : ∀ c, phase c l' = phase c l
  openFds : openFds l' = openFds l
  received : ∀ c, received c l' = received c l
  handled : ∀ c, handled c l' = handled c l
  ended : ∀ c, ended c l' = ended c l
  accepted : ∀ c, accepted c l' = accepted c l
  issued : ∀ c, issued c l' = issued c l
  mallocOk : ∀ c, mallocOk c l' = mallocOk c l

theorem SameLog.refl (l : List Event) : SameLog l l :=
  ⟨fun _ => rfl, rfl, fun _ => rfl, fun _ => rfl, fun _ => rfl, fun _ => rfl, fun _ => rfl,
    fun _ => rfl⟩

theorem SameLog.cons (h : SameLog l l') (he : e.Neutral) : SameLog l (e :: l') := by
  have hin : ∀ c, e.input? ≠ some c := fun c => by simp [he.input]
  have hout : ∀ c, e.output? ≠ some c := fun c => by simp [he.output]
  exact {
    phase := fun c => (phase_cons he.ofSlots).trans (h.phase c)
    openFds := (openFds_cons he.ofFds).trans h.openFds
    received := fun c => (received_cons (hin c)).trans (h.received c)
    handled := fun c => (handled_cons (hin c)).trans (h.handled c)
    ended := fun c => (ended_cons (hin c)).trans (h.ended c)
    accepted := fun c => (accepted_cons (hout c)).trans (h.accepted c)
    issued := fun c => (issued_cons (hout c)).trans (h.issued c)
    mallocOk := fun c => (mallocOk_cons (hout c)).trans (h.mallocOk c) }

/-- A descriptor that is opened and closed again leaves no trace. -/
theorem SameLog.close {fd : ℤ} (h : SameLog (.opened fd :: l) l') :
    SameLog l (.closed fd :: l') where
  phase := h.phase
  openFds := by
    show (LinuxServer.openFds l').erase fd = LinuxServer.openFds l
    rw [h.openFds]
    exact List.erase_cons_head fd _
  received := h.received
  handled := h.handled
  ended := h.ended
  accepted := h.accepted
  issued := h.issued
  mallocOk := h.mallocOk

/-! ## Uses of output items -/

/-- An output item is used or freed. -/
def Event.ofItem : Event → Bool
  | .itemUse _ _ | .itemFree _ _ => true
  | _ => false

theorem Event.ofItem_neutral (h : e.ofItem = true) : e.Neutral := by
  cases e <;> first | exact ⟨rfl, rfl, rfl, rfl⟩ | cases h

theorem SameLog.append_items {evs : List Event} (h : SameLog l l')
    (he : ∀ e ∈ evs, e.ofItem = true) : SameLog l (evs ++ l') := by
  induction evs with
  | nil => exact h
  | cons e evs ih =>
    exact (ih fun e he' => he e (List.mem_cons_of_mem _ he')).cons
      (Event.ofItem_neutral (he e List.mem_cons_self))

theorem LogOk.append_items {sz : ℕ} {evs : List Event} (h : LogOk sz l)
    (he : ∀ e ∈ evs, e.ofItem = true) : LogOk sz (evs ++ l) := by
  induction evs with
  | nil => exact h
  | cons e evs ih =>
    refine ⟨?_, ih fun e he' => he e (List.mem_cons_of_mem _ he')⟩
    have := he e List.mem_cons_self
    cases e <;> simp_all [Event.ofItem, EventOk]

end Messi.LinuxServer
