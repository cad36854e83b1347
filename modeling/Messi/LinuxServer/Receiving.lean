import Messi.LinuxServer.Sending
import Messi.LinuxServer.Turns

/-!
# Receiving

The loop of `process_client_socket_in()`. Between a `read()` and what is done about it the input
buffer holds what has been received after the handled messages (`Reading`); then the client waits
for more, is disconnected, or has its message handled at the place `.message c`, from where the
callback is called. There the client is connected or pending, and nothing of it is buffered.
-/

namespace Messi.LinuxServer

open Framing ByteMemory

section

variable {sz : ℕ} {s s' : Server} {v : View} {c d : Slot} {bs : List UInt8}

/-! ## `read()` -/

theorem readBytes_nil (s : Server) (c : Slot) :
    readBytes s c [] = s.emit (.read c (s.clientFd c) ((s.input c).bufP + (s.input c).size)
      (s.input c).left []) := by
  have hmem : write s.inputBufs ((s.input c).bufP + (s.input c).size) [] = s.inputBufs := by
    funext i
    simp [write]
  have hin : Function.update s.input c { s.input c with
      size := (s.input c).size + 0, left := (s.input c).left - 0 } = s.input :=
    Function.update_eq_self c s.input
  unfold readBytes
  simp only [Server.emit, Server.setInput, hmem, List.length_nil]
  rw [hin]

theorem readBytes_same (s : Server) (c : Slot) (bs : List UInt8) :
    SameSlots s (readBytes s c bs) ∧ ∀ d, SameOutput d s (readBytes s c bs) :=
  ⟨⟨rfl, rfl, rfl, rfl, rfl, rfl, fun _ => rfl⟩, fun _ => ⟨rfl, rfl, rfl, rfl⟩⟩

theorem readBytes_input (s : Server) (c : Slot) (bs : List UInt8) :
    (readBytes s c bs).input c = { s.input c with
      size := (s.input c).size + bs.length, left := (s.input c).left - bs.length } :=
  Function.update_self _ _ _

theorem inputBytes_readBytes (s : Server) (c : Slot) (bs : List UInt8) :
    inputBytes (readBytes s c bs) c = inputBytes s c ++ bs := by
  unfold inputBytes
  rw [readBytes_input]
  exact slice_write_append s.inputBufs (s.input c).bufP (s.input c).size bs

/-- A client's place in the input buffers is its own. -/
theorem readBytes_other (hb : (s.input c).bufP = c * sz) (hd : (s.input d).bufP = d * sz)
    (hdc : d ≠ c) (hc : (s.input c).size + bs.length ≤ sz) (hsize : (s.input d).size ≤ sz) :
    SameInput d s (readBytes s c bs) := by
  have hin : (readBytes s c bs).input d = s.input d := Function.update_of_ne hdc _ _
  have hread : (Event.read c (s.clientFd c) ((s.input c).bufP + (s.input c).size) (s.input c).left
      bs).input? ≠ some d := by simp [Event.input?, Ne.symm hdc]
  refine ⟨hin, ?_, received_cons hread, handled_cons hread, ended_cons hread⟩
  unfold inputBytes
  rw [hin]
  refine slice_write_of_disjoint ?_
  rw [hb, hd]
  rcases Nat.lt_or_gt_of_ne hdc with hlt | hlt
  · have := Nat.mul_le_mul_right sz hlt
    rw [Nat.succ_mul] at this
    left
    omega
  · have := Nat.mul_le_mul_right sz hlt
    rw [Nat.succ_mul] at this
    right
    omega

/-- Every `read()` is in order. -/
theorem Good.eventOk_read (h : Good sz s v) (hb : v.busy = none) (hp : v.place = .top)
    (hc : c ∈ v.connected ∨ c ∈ v.pending) (hbs : bs ≠ [] → c ∈ v.connected) :
    EventOk sz s.log (.read c (s.clientFd c) ((s.input c).bufP + (s.input c).size)
      (s.input c).left bs) := by
  refine ⟨h.clientFd_open hc, fun hne => h.notEnded c (hbs hne), fun hsz hfd => ?_⟩
  have hmem : c ∈ v.connected := hc.resolve_right fun hm => hfd (h.slots.pendingFd c hm)
  have hw := (h.reception hsz).waiting c hmem (by simp [hb]) (by simp [hp])
  have hbuf := (h.buffers c (h.mem_range (Or.inl hmem))).1
  have hbound := hw.left.bound hsz
  unfold inputBytes at hbound
  rw [length_slice] at hbound
  rw [hbuf, Nat.add_one_mul]
  exact ⟨hw.left.pos, Nat.le_add_right _ _, by omega⟩

theorem Good.readBytes_nil (h : Good sz s v) (hb : v.busy = none) (hp : v.place = .top)
    (hc : c ∈ v.connected ∨ c ∈ v.pending) : Good sz (readBytes s c []) v := by
  rw [LinuxServer.readBytes_nil]
  have hr : ∀ d, received d (.read c (s.clientFd c) ((s.input c).bufP + (s.input c).size)
      (s.input c).left [] :: s.log) = received d s.log := fun d => by simp [received]
  exact h.of_same (SameSlots.emit s rfl) rfl (fun _ d _ _ => ⟨rfl, rfl, hr d, rfl, rfl⟩)
    (fun _ _ => rfl) (fun _ _ => rfl) (fun d _ => hr d) (fun _ => ⟨rfl, rfl⟩)
    (fun d _ => SameOutput.emit s (Option.some_ne_none d).symm) (fun d hd _ => h.ends d hd)
    (fun d _ => h.sent d) ⟨h.eventOk_read hb hp hc (fun hne => absurd rfl hne), h.log⟩

/-! ## Between `read()` and what is done about it -/

/-- The input buffer holds what has been received after the handled messages. -/
def Buffered (sz : ℕ) (s : Server) (c : Slot) : Prop :=
  ∃ fs, handled c s.log = fs.map messageOf ∧ parse messi (fits sz) (received c s.log) =
    (fs ++ (parse messi (fits sz) (inputBytes s c)).1, (parse messi (fits sz) (inputBytes s c)).2)

/-- The input of a connected client is being worked on. -/
structure Reading (sz : ℕ) (s : Server) (v : View) (c : Slot) : Prop where
  good : Good sz s { v with busy := some c }
  output : OutputOk s c
  buffered : headerSize ≤ sz → Buffered sz s c

theorem Buffered.received (h : Buffered sz s c)
    (hp : parse messi (fits sz) (inputBytes s c) = ([], inputBytes s c)) :
    Received sz s c ∧ pendingBytes sz s c = inputBytes s c := by
  obtain ⟨fs, hh, hr⟩ := h
  unfold Received pendingBytes
  rw [hr, hp, List.append_nil]
  exact ⟨hh, rfl⟩

/-- Bytes have been read. -/
theorem Good.readBytes (h : Good sz s v) (hb : v.busy = none) (hp : v.place = .top)
    (hc : c ∈ v.connected) (hlen : bs.length ≤ (s.input c).left) :
    Reading sz (readBytes s c bs) v c := by
  have hok : EventOk sz s.log (.read c (s.clientFd c) ((s.input c).bufP + (s.input c).size)
      (s.input c).left bs) := h.eventOk_read hb hp (Or.inl hc) fun _ => hc
  obtain ⟨hs, hout⟩ := readBytes_same s c bs
  have hread : ∀ d, d ≠ c → (Event.read c (s.clientFd c) ((s.input c).bufP + (s.input c).size)
      (s.input c).left bs).input? ≠ some d := fun d hd => by simp [Event.input?, Ne.symm hd]
  have hne : ∀ d, some c ≠ some d → d ≠ c := fun d hd he => hd (he ▸ rfl)
  have hwait : headerSize ≤ sz → ∀ d ∈ v.connected, Waiting sz s d := fun hsz d hd =>
    (h.reception hsz).waiting d hd (by simp [hb]) (by simp [hp])
  have hbound : headerSize ≤ sz → ∀ d ∈ v.connected,
      (s.input d).size + (s.input d).left ≤ sz := fun hsz d hd => by
    have := (hwait hsz d hd).left.bound hsz
    unfold inputBytes at this
    rwa [length_slice] at this
  have hbuf : ∀ d ∈ v.connected, (s.input d).bufP = d * sz := fun d hd =>
    (h.buffers d (h.mem_range (Or.inl hd))).1
  refine ⟨?_, ?_, fun hsz => ?_⟩
  · refine (h.work hb c).of_same hs rfl (fun hsz d hd hdb => ?_) (fun _ _ => rfl) (fun _ _ => rfl)
      (fun d hd => ?_) (fun d => ?_) (fun d _ => hout d) (fun d hd _ => h.ends d hd)
      (fun d _ => (hout d).sent (h.sent d)) ⟨hok, h.log⟩
    · have h1 := hbound hsz c hc
      have h2 := hbound hsz d hd
      exact readBytes_other (hbuf c hc) (hbuf d hd) (hne d hdb) (by omega) (by omega)
    · rcases hd with hd | hd
      · exact received_cons (hread d (hne d hd))
      · exact absurd hd (by simp [hp])
    · by_cases hdc : d = c
      · subst hdc
        rw [readBytes_input]
        exact ⟨rfl, rfl⟩
      · rw [show (LinuxServer.readBytes s c bs).input d = s.input d from
          Function.update_of_ne hdc _ _]
        exact ⟨rfl, rfl⟩
  · exact (h.output c hc (by simp [hb])).congr (hout c)
  · have hw := hwait hsz c hc
    have hr := (h.reception hsz).received c (by simp [hb])
    have hrec : received c (LinuxServer.readBytes s c bs).log = received c s.log ++ bs := by
      show received c (.read c _ _ _ bs :: s.log) = _
      simp [LinuxServer.received]
    refine ⟨(parse messi (fits sz) (received c s.log)).1, hr, ?_⟩
    rw [hrec, inputBytes_readBytes, parse_append]
    rw [show (parse messi (fits sz) (received c s.log)).2 = inputBytes s c from hw.bytes]

/-- Only what is left, and the state, is set. -/
theorem Reading.setInput (h : Reading sz s v c) {i : Input}
    (hb : i.bufP = (s.input c).bufP) (hd : i.dataSize = (s.input c).dataSize)
    (hs : i.size = (s.input c).size) : Reading sz (s.setInput c i) v c := by
  have hne : ∀ d, some c ≠ some d → d ≠ c := fun d hd he => hd (he ▸ rfl)
  have hin : (s.setInput c i).input c = i := Function.update_self _ _ _
  have hbytes : inputBytes (s.setInput c i) c = inputBytes s c := by
    unfold inputBytes
    rw [hin, hb, hs]
    rfl
  refine ⟨?_, h.output.congr (SameOutput.setInput s c c i), fun hsz => ?_⟩
  · refine h.good.of_same (SameSlots.setInput s c i) rfl
      (fun _ d _ hdb => SameInput.setInput s i (hne d hdb)) (fun _ _ => rfl) (fun _ _ => rfl)
      (fun _ _ => rfl) (fun d => ?_) (fun d _ => SameOutput.setInput s d c i)
      (fun d hd _ => h.good.ends d hd) (fun d _ => h.good.sent d) h.good.log
    by_cases hdc : d = c
    · subst hdc
      rw [hin]
      exact ⟨hb, hd⟩
    · rw [show (s.setInput c i).input d = s.input d from Function.update_of_ne hdc _ _]
      exact ⟨rfl, rfl⟩
  · obtain ⟨fs, hh, hr⟩ := h.buffered hsz
    exact ⟨fs, hh, by rw [hbytes]; exact hr⟩

/-- The client waits for more. -/
theorem Reading.wait (h : Reading sz s v c)
    (hw : headerSize ≤ sz →
      Awaits sz (decide ((s.input c).state = .payload)) (inputBytes s c) (s.input c).left) :
    Good sz s v := by
  have hr : headerSize ≤ sz → Received sz s c ∧ pendingBytes sz s c = inputBytes s c := fun hsz =>
    (h.buffered hsz).received (hw hsz).parse
  exact h.good.finish (fun _ => h.output) (fun hsz _ _ => ⟨(hr hsz).2, hw hsz⟩) fun hsz =>
    (hr hsz).1

/-- The client sends too big a message. -/
theorem Reading.disconnect (h : Reading sz s v c) (hc : c ∈ v.connected)
    (hp : headerSize ≤ sz → parse messi (fits sz) (inputBytes s c) = ([], inputBytes s c)) :
    ∃ v', Moved c v v' ∧ Good sz (clientPendingDisconnect s c) v' := by
  obtain ⟨l₁, l₂, hl⟩ := List.append_of_mem hc
  exact ⟨_, .moved l₁ l₂ hl, h.good.clientPendingDisconnect hl (Or.inr rfl) fun hsz =>
    ((h.buffered hsz).received (hp hsz)).1⟩

/-- The client's message is handed over. -/
theorem Reading.message (h : Reading sz s v c) (hc : c ∈ v.connected) (hp : v.place = .top)
    (hcur : v.current = none) {m : Message}
    (hm : headerSize ≤ sz → ∃ f, messageOf f = m ∧
      parse messi (fits sz) (inputBytes s c) = ([f], [])) :
    Good sz (s.emit (.handleMessage c m)) { v with place := .message c } := by
  have hg := h.good
  have hlog : ∀ d, d ≠ c → (Event.handleMessage c m).input? ≠ some d := fun d hd => by
    simp [Event.input?, Ne.symm hd]
  have hpend : ∀ l : List Slot, l.flatMap (pendingFds s (.message c)) =
      l.flatMap (pendingFds s v.place) := fun l => by
    refine List.flatMap_congr fun d _ => ?_
    unfold pendingFds
    rw [hp, if_neg (by simp), if_neg (by simp)]
  constructor
  case slots =>
    exact {
      lists := hg.slots.lists
      all := hg.slots.all
      connectedFd := hg.slots.connectedFd
      pendingFd := hg.slots.pendingFd
      connectedPhase := hg.slots.connectedPhase
      pendingPhase := fun d hd => by
        have := hg.slots.pendingPhase d hd
        rw [if_neg (by simp [hp])] at this
        exact this
      freePhase := hg.slots.freePhase
      current := hg.slots.current
      currentPlace := fun d hd => absurd (hd.symm.trans hcur) (Option.some_ne_none d)
      message := fun d hd => Or.inl (Place.message.inj hd ▸ hc)
      disconnected := fun _ hd => Place.noConfusion hd }
  case fds =>
    refine hg.fds.trans (List.Perm.of_eq ?_)
    unfold View.owned
    exact congrArg _ (congrArg _ (congrArg _ (hpend v.pending).symm))
  case log => exact ⟨hg.notEnded c hc, hg.log⟩
  case buffers => exact hg.buffers
  case ends => exact hg.ends
  case notEnded => exact hg.notEnded
  case sent => exact hg.sent
  case output =>
    intro d hd hb
    by_cases hdc : d = c
    · subst hdc
      exact h.output.congr (SameOutput.emit s (by simp [Event.output?]))
    · exact (hg.output d hd (by simp [Ne.symm hdc])).congr
        (SameOutput.emit s (by simp [Event.output?]))
  case reception =>
    intro hsz
    have hr := hg.reception hsz
    obtain ⟨f, hf, hparse⟩ := hm hsz
    obtain ⟨fs, hh, hrec⟩ := h.buffered hsz
    rw [hparse] at hrec
    refine ⟨fun d hd _ hdc => ?_, fun d hb => ?_, fun d hd => ?_⟩
    · have hdc' : d ≠ c := fun he => hdc (he ▸ rfl)
      exact (hr.waiting d hd (by simp [Ne.symm hdc']) (by simp [hp])).congr
        (SameInput.emit s (hlog d hdc'))
    · by_cases hdc : d = c
      · subst hdc
        show handled d (.handleMessage d m :: s.log) = _
        rw [show received d (s.emit (.handleMessage d m)).log = received d s.log from rfl, hrec]
        simp [handled, hh, hf]
      · exact (hr.received d (by simp [Ne.symm hdc])).congr (handled_cons (hlog d hdc)) rfl
    · obtain rfl : c = d := Place.message.inj hd
      show (parse messi (fits sz) (received c s.log)).2 = []
      rw [hrec]

/-! ## Handling a message -/

/-- The state stands for some view, between two steps or in a callback. -/
def Observed (sz : ℕ) (s : Server) : Prop := ∃ v, v.busy = none ∧ Good sz s v

theorem GoodAfter.observed (h : GoodAfter sz v s) (hb : v.busy = none) : Observed sz s := by
  obtain ⟨v', hs, hg⟩ := h
  exact ⟨v', hs.busy.trans hb, hg⟩

/-- What the user's code does in a message callback. -/
def MessageOk {α : Type*} (sz : ℕ) (cb : Callbacks α) : Prop :=
  ∀ (l : List α) (s : Server) (v : View), Good sz s v → v.busy = none →
    Exec.Sat (GoodAfter sz v) (fun _ => GoodAfter sz v) (cb.onMessage l s)

theorem Good.setCurrent {p : Option Slot} (h : Good sz s v)
    (hp : ∀ d, p = some d → v.place = .message d) :
    Good sz (s.setCurrentClientP p) { v with current := p } where
  slots := ⟨h.slots.lists, h.slots.all, h.slots.connectedFd, h.slots.pendingFd,
    h.slots.connectedPhase, h.slots.pendingPhase, h.slots.freePhase, rfl, hp, h.slots.message,
    h.slots.disconnected⟩
  fds := h.fds
  log := h.log
  buffers := h.buffers
  ends := h.ends
  notEnded := h.notEnded
  sent := h.sent
  output := h.output
  reception hsz :=
    have hr := h.reception hsz
    ⟨fun d hd hb hm => ⟨(hr.waiting d hd hb hm).bytes, (hr.waiting d hd hb hm).left⟩, hr.received,
      hr.message⟩

/-- The message has been handled, and the client waits for the next one or is disconnected. -/
theorem Good.leave (h : Good sz s v) (hp : v.place = .message c) (hcur : v.current = none)
    (hw : headerSize ≤ sz → c ∈ v.connected → Waiting sz s c) :
    Good sz s { v with place := .top } where
  slots :=
    { lists := h.slots.lists
      all := h.slots.all
      connectedFd := h.slots.connectedFd
      pendingFd := h.slots.pendingFd
      connectedPhase := h.slots.connectedPhase
      pendingPhase := fun d hd => by
        have := h.slots.pendingPhase d hd
        rw [if_neg (by simp [hp])] at this
        exact this
      freePhase := h.slots.freePhase
      current := h.slots.current
      currentPlace := fun d hd => absurd (hcur.symm.trans hd) nofun
      message := nofun
      disconnected := nofun }
  fds := by
    refine h.fds.trans (List.Perm.of_eq ?_)
    unfold View.owned
    dsimp only
    rw [show v.pending.flatMap (pendingFds s v.place) = v.pending.flatMap (pendingFds s .top) from
      List.flatMap_congr fun d _ => by
        unfold pendingFds
        rw [hp, if_neg nofun, if_neg nofun]]
  log := h.log
  buffers := h.buffers
  ends := h.ends
  notEnded := h.notEnded
  sent := h.sent
  output := h.output
  reception hsz := by
    have hr := h.reception hsz
    refine ⟨fun d hd hb _ => ?_, hr.received, nofun⟩
    by_cases hdc : d = c
    · exact hdc ▸ hw hsz (hdc ▸ hd)
    · exact hr.waiting d hd hb (by simp [hp, Ne.symm hdc])

theorem clientResetInput_good (h : Good sz s v) (hb : v.busy = none) (hp : v.place = .message c)
    (hcur : v.current = none) : Good sz (clientResetInput s c) { v with place := .top } := by
  have hin : (clientResetInput s c).input c =
      { s.input c with state := .header, size := 0, left := headerSize } :=
        Function.update_self _ _ _
  have hne : ∀ d, some c ≠ some d → d ≠ c := fun d hd he => hd (he ▸ rfl)
  have hbuf : ∀ d, ((clientResetInput s c).input d).bufP = (s.input d).bufP ∧
      ((clientResetInput s c).input d).dataSize = (s.input d).dataSize := fun d => by
    by_cases hdc : d = c
    · subst hdc
      rw [hin]
      exact ⟨rfl, rfl⟩
    · rw [show (clientResetInput s c).input d = s.input d from Function.update_of_ne hdc _ _]
      exact ⟨rfl, rfl⟩
  have hbusy : Good sz (clientResetInput s c) { v with busy := some c } :=
    (h.work hb c).of_same (SameSlots.setInput s c _) rfl
      (fun _ d _ hdb => SameInput.setInput s _ (hne d hdb)) (fun _ _ => rfl) (fun _ _ => rfl)
      (fun _ _ => rfl) hbuf (fun d _ => SameOutput.setInput s d c _) (fun d hd _ => h.ends d hd)
      (fun d _ => h.sent d) h.log
  have hgood : Good sz (clientResetInput s c) v := hbusy.finish
    (fun hc => (h.output c hc (by simp [hb])).congr (SameOutput.setInput s c c _))
    (fun _ _ hm => absurd hp hm) fun hsz => (h.reception hsz).received c (by simp [hb])
  refine hgood.leave hp hcur fun hsz _ => ?_
  have hbytes : inputBytes (clientResetInput s c) c = [] := by
    unfold inputBytes
    rw [hin]
    rfl
  refine ⟨?_, ?_⟩
  · rw [hbytes]
    exact (h.reception hsz).message c hp
  · rw [hbytes, hin]
    exact awaits_header

variable {α : Type*} {cb : Callbacks α}

theorem handleMessageUser_good (hcb : MessageOk sz cb) (e : ReadEnv α) (h : Good sz s v)
    (hb : v.busy = none) (hp : v.place = .message c) (hcur : v.current = none) :
    Exec.Sat (Observed sz) (fun _ => GoodAfter sz v) (handleMessageUser cb c e s) := by
  unfold handleMessageUser
  cases e.new
  · exact h.goodAfter
  cases e.decode
  · exact h.goodAfter
  have hset := h.setCurrent (p := some c) fun d hd => Option.some.inj hd ▸ hp
  refine Exec.Sat.bind ((hcb e.callback _ _ hset hb).mono (fun t ht => ht.observed hb)
    fun _ _ ht => ht) fun _ t ht => ?_
  obtain ⟨v', hs, hg⟩ := ht
  refine ⟨{ v' with current := none }, ?_, hg.setCurrent nofun⟩
  exact ⟨hs.free, hs.place, hcur.symm, hs.busy, hs.listening, hs.fds, hs.pending⟩

/-- What is in the input buffer is handed over. -/
theorem Reading.handleMessage (h : Reading sz s v c) (hc : c ∈ v.connected) (hp : v.place = .top)
    (hcur : v.current = none)
    (hparse : headerSize ≤ sz → parse messi (fits sz) (inputBytes s c) =
      ([((inputBytes s c).take headerSize, (inputBytes s c).drop headerSize)], [])) :
    Good sz (s.emit (.handleMessage c ((inputHeader s c).type,
      (inputBytes s c).drop headerSize))) { v with place := .message c } := by
  refine h.message hc hp hcur fun hsz => ⟨_, ?_, hparse hsz⟩
  have hmem : ((inputBytes s c).take headerSize, (inputBytes s c).drop headerSize) ∈
      (parse messi (fits sz) (inputBytes s c)).1 := by
    rw [hparse hsz]
    exact List.mem_cons_self
  have hlen := (parse_frames_fit hmem).1
  rw [headerLen_messi, List.length_take, inputBytes, length_slice] at hlen
  have htake : (inputBytes s c).take headerSize =
      slice s.inputBufs (s.input c).bufP headerSize := take_slice _ _ (by omega)
  unfold messageOf inputHeader Header.ofBytes
  rw [htake]

theorem handleMessage_good (hcb : MessageOk sz cb) (e : ReadEnv α) (h : Reading sz s v c)
    (hb : v.busy = none) (hc : c ∈ v.connected) (hp : v.place = .top) (hcur : v.current = none)
    (hparse : headerSize ≤ sz → parse messi (fits sz) (inputBytes s c) =
      ([((inputBytes s c).take headerSize, (inputBytes s c).drop headerSize)], [])) :
    Exec.Sat (Observed sz) (fun _ => GoodAfter sz { v with place := .message c })
      (handleMessage cb c e s) := by
  have hmsg := h.handleMessage hc hp hcur hparse
  unfold handleMessage
  dsimp only
  generalize s.emit (.handleMessage c ((inputHeader s c).type,
    (inputBytes s c).drop headerSize)) = t at hmsg
  by_cases h1 : (inputHeader s c).type = messageTypeClientToServerUser
  · rw [if_pos h1]
    exact handleMessageUser_good hcb e hmsg hb rfl hcur
  · rw [if_neg h1]
    by_cases h2 : (inputHeader s c).type = messageTypePing
    · rw [if_pos h2]
      unfold handleMessagePing clientStartKeepAliveTimer
      have hset : Good sz (t.emit (.settime (t.keepAliveTimerFd c) e.settime))
          { v with place := .message c } := hmsg.emit ⟨rfl, rfl, rfl, rfl⟩ (hmsg.timer_open hc)
      generalize e.settime = ok at hset ⊢
      cases ok
      · exact hset.goodAfter
      · obtain ⟨v', hm, hg⟩ := issueMessage_good (m := (messageTypePong, [])) (e := e.pong) hset hb
          (Or.inl hc)
        exact ⟨v', hm.shrunk hb, hg⟩
    · rw [if_neg h2]
      exact hmsg.goodAfter

/-! ## The loop -/

theorem Moved.goodAfter {v' : View} (h : Moved c v v') (hb : v.busy = none) (hg : Good sz s v') :
    GoodAfter sz v s := ⟨v', h.shrunk hb, hg⟩

/-- The state of the input after `loadHeader`. -/
theorem loadHeader_good (h : Reading sz s v c) (hleft : (s.input c).left = 0)
    (hbuf : (s.input c).dataSize = sz)
    (hw : headerSize ≤ sz → match (s.input c).state with
      | .header => (inputBytes s c).length = headerSize
      | .payload => parse messi (fits sz) (inputBytes s c) =
          ([((inputBytes s c).take headerSize, (inputBytes s c).drop headerSize)], [])) :
    match loadHeader s c with
    | (false, t) => Reading sz t v c ∧
        (headerSize ≤ sz → parse messi (fits sz) (inputBytes t c) = ([], inputBytes t c))
    | (true, t) => Reading sz t v c ∧ (headerSize ≤ sz →
        if (t.input c).left = 0 then parse messi (fits sz) (inputBytes t c) =
          ([((inputBytes t c).take headerSize, (inputBytes t c).drop headerSize)], [])
        else Awaits sz (decide ((t.input c).state = .payload)) (inputBytes t c)
          (t.input c).left) := by
  unfold loadHeader
  cases hstate : (s.input c).state with
  | payload =>
    rw [if_neg nofun]
    refine ⟨h, fun hsz => ?_⟩
    rw [if_pos hleft]
    have := hw hsz
    rw [hstate] at this
    exact this
  | header =>
    rw [if_pos rfl]
    -- the length announced by the header, in the buffer and as the parser reads it
    have hsize : headerSize ≤ sz → inputHeader s c = Header.ofBytes (inputBytes s c) :=
      fun hsz => by
      have hlen := hw hsz
      rw [hstate] at hlen
      unfold inputHeader
      unfold inputBytes at hlen ⊢
      rw [length_slice] at hlen
      rw [show (s.input c).size = headerSize from hlen]
    have hlen : headerSize ≤ sz → (inputBytes s c).length = headerSize := fun hsz => by
      have := hw hsz
      rwa [hstate] at this
    have hin : ∀ i, (s.setInput c i).input c = i := fun i => Function.update_self _ _ _
    have hbytes : ∀ i : Input, i.bufP = (s.input c).bufP → i.size = (s.input c).size →
        inputBytes (s.setInput c i) c = inputBytes s c := fun i h1 h2 => by
      unfold inputBytes
      rw [hin, h1, h2]
      rfl
    obtain ⟨n, hn⟩ : ∃ n, n = (headerGetSize (inputHeader s c)).toNat := ⟨_, rfl⟩
    rw [← hn]
    have h₁ : Reading sz (s.setInput c { s.input c with left := n }) v c := h.setInput rfl rfl rfl
    have hb₁ := hbytes { s.input c with left := n } rfl rfl
    have hi₁ := hin { s.input c with left := n }
    by_cases hbig : n + headerSize > sz
    · rw [if_pos (by rw [hi₁]; exact hbuf.symm ▸ hbig)]
      refine ⟨h₁, fun hsz => ?_⟩
      rw [hb₁]
      exact parse_too_big (hlen hsz) (hsize hsz ▸ hn ▸ hbig)
    · rw [if_neg (by rw [hi₁]; exact hbuf.symm ▸ hbig)]
      have h₂ := h₁.setInput (i := { s.input c with left := n, state := .payload })
        (by rw [hi₁]) (by rw [hi₁]) (by rw [hi₁])
      have hb₂ := hbytes { s.input c with left := n, state := .payload } rfl rfl
      have hi₂ := hin { s.input c with left := n, state := .payload }
      have heq : (s.setInput c { s.input c with left := n }).setInput c
          { (s.setInput c { s.input c with left := n }).input c with state := .payload } =
          s.setInput c { s.input c with left := n, state := .payload } := by
        rw [hi₁]
        simp [Server.setInput]
      have heq' : (s.setInput c { s.input c with left := n }).setInput c
          { s.input c with left := n, state := .payload } =
          s.setInput c { s.input c with left := n, state := .payload } := by
        simp [Server.setInput]
      rw [heq'] at h₂
      rw [heq]
      refine ⟨h₂, fun hsz => ?_⟩
      rw [hb₂, hi₂]
      have hfit : (headerGetSize (Header.ofBytes (inputBytes s c))).toNat + headerSize ≤ sz := by
        rw [← hsize hsz, ← hn]
        exact Nat.le_of_not_lt hbig
      by_cases hzero : n = 0
      · rw [if_pos hzero]
        exact parse_empty (hlen hsz) hfit (by rw [← hsize hsz, ← hn, hzero])
      · rw [if_neg hzero]
        have hpos : 0 < (headerGetSize (Header.ofBytes (inputBytes s c))).toNat := by
          rw [← hsize hsz, ← hn]
          exact Nat.pos_of_ne_zero hzero
        have := awaits_body (hlen hsz) hfit hpos
        rw [← hsize hsz, ← hn] at this
        exact this

/-- The client is done with a message, and is ready for the next one or disconnected. -/
theorem GoodAfter.reset (h : GoodAfter sz { v with place := .message c } s) (hb : v.busy = none)
    (hp : v.place = .top) (hcur : v.current = none) :
    ∃ v', Shrunk v v' ∧ (c ∈ v'.connected ∨ c ∈ v'.pending) ∧
      Good sz (clientResetInput s c) v' := by
  obtain ⟨v', hs, hg⟩ := h
  exact ⟨{ v' with place := .top }, ⟨hs.free, hp.symm, hs.current, hs.busy, hs.listening, hs.fds,
    hs.pending⟩, hg.slots.message c hs.place,
      clientResetInput_good hg (hs.busy.trans hb) hs.place (hs.current.trans hcur)⟩

theorem GoodAfter.fail (h : GoodAfter sz { v with place := .message c } s) (hb : v.busy = none)
    (hp : v.place = .top) (hcur : v.current = none) :
    GoodAfter sz v ((clientPendingDisconnect s c).emit (.handleFailed c)) := by
  obtain ⟨v₁, hs₁, hg₁⟩ := h
  have hb₁ : v₁.busy = none := hs₁.busy.trans hb
  have hp₁ : v₁.place = .message c := hs₁.place
  obtain ⟨v₂, hm, hg₂⟩ := clientPendingDisconnect_good hg₁ hb₁ (hg₁.slots.message c hp₁)
  have hs₂ := hm.shrunk hb₁
  have hnot : c ∉ v₂.connected := by
    cases hm with
    | moved l₁ l₂ hl => exact (hl ▸ hg₁.slots.lists).notMem_of_connected.1
    | same =>
      intro hc
      -- a client that is still connected would have been moved
      obtain ⟨l₁, l₂, hl⟩ := List.append_of_mem hc
      have hmoved := hg₁.clientPendingDisconnect hl (Or.inl hb₁) fun hsz =>
        (hg₁.reception hsz).received c (by simp [hb₁])
      exact hg₂.slots.connectedFd c hc (hmoved.slots.pendingFd c List.mem_cons_self)
  have hleave := hg₂.leave (hs₂.place.trans hp₁) ((hs₂.current.trans hs₁.current).trans hcur)
    fun _ hc => absurd hc hnot
  have hne : ∀ d ∈ v₂.connected, d ≠ c := fun d hd => ne_of_mem_of_not_mem hd hnot
  have hended : ∀ d ∈ v₂.connected, (Event.handleFailed c).input? ≠ some d := fun d hd => by
    simp [Event.input?, (hne d hd).symm]
  refine ⟨{ v₂ with place := .top }, ?_, hleave.of_same (SameSlots.emit _ rfl) rfl
    (fun _ d hd _ => SameInput.emit _ (hended d hd)) (fun d hd => ended_cons (hended d hd))
    (fun _ _ => rfl) (fun _ _ => rfl) (fun _ => ⟨rfl, rfl⟩)
    (fun d _ => SameOutput.emit _ (by simp [Event.output?])) (fun d hd _ => hleave.ends d hd)
    (fun d _ => hleave.sent d) ⟨trivial, hleave.log⟩⟩
  exact ⟨hs₂.free.trans hs₁.free, hp.symm, hs₂.current.trans hs₁.current,
    hs₂.busy.trans hs₁.busy, hs₂.listening.trans hs₁.listening, hs₂.fds.trans hs₁.fds, by
      obtain ⟨n₁, h₁⟩ := hs₁.pending
      obtain ⟨n₂, h₂⟩ := hs₂.pending
      exact ⟨n₂ ++ n₁, by rw [h₂, h₁, List.append_assoc]⟩⟩

theorem GoodAfter.trans {v' : View} (hs : Shrunk v v') (h : GoodAfter sz v' s) :
    GoodAfter sz v s := by
  obtain ⟨v'', hs', hg⟩ := h
  exact ⟨v'', hs.trans hs', hg⟩

/-- What is done after `handle_message()`. -/
def afterMessage (c : Slot) (res : Bool) (s : Server) : Exec Server Bool :=
  if res then .done true (clientResetInput s c)
  else .done false ((clientPendingDisconnect s c).emit (.handleFailed c))

/-- What a turn of the loop comes to. -/
inductive Turn (sz : ℕ) (cb : Callbacks α) (c : Slot) (e : ReadEnv α) (s : Server) (v : View) :
    Exec Server Bool → Prop
  | blocked : Turn sz cb c e s v (.done false (readBytes s c []))
  | closed : Turn sz cb c e s v (.done false (clientPendingDisconnect (readBytes s c []) c))
  | wait (t : Server) (hq : Calm s t) (hg : Good sz t v) : Turn sz cb c e s v (.done true t)
  | tooBig (t : Server) (hq : Calm s t) (hr : Reading sz t v c) (hc : c ∈ v.connected)
    (hp : headerSize ≤ sz → parse messi (fits sz) (inputBytes t c) = ([], inputBytes t c)) :
    Turn sz cb c e s v (.done false (clientPendingDisconnect t c))
  | message (t : Server) (hq : Calm s t) (hr : Reading sz t v c) (hc : c ∈ v.connected)
    (hp : headerSize ≤ sz → parse messi (fits sz) (inputBytes t c) =
      ([((inputBytes t c).take headerSize, (inputBytes t c).drop headerSize)], [])) :
    Turn sz cb c e s v ((handleMessage cb c e t).bind (afterMessage c))

theorem socketInTurn_turn (cb : Callbacks α) (e : ReadEnv α) (h : Good sz s v)
    (hb : v.busy = none) (hc : c ∈ v.connected ∨ c ∈ v.pending) (hp : v.place = .top) :
    Turn sz cb c e s v (socketInTurn cb c e s) := by
  unfold socketInTurn sysRead
  by_cases hfd : s.clientFd c = -1
  · rw [if_pos hfd]
    exact .closed
  rw [if_neg hfd]
  have hmem : c ∈ v.connected := hc.resolve_right fun hm => hfd (h.slots.pendingFd c hm)
  cases e.res with
  | eagain => exact .blocked
  | error => exact .closed
  | data as =>
    dsimp only
    have hlen : (as.take (s.input c).left).length ≤ (s.input c).left := List.length_take_le _ _
    generalize as.take (s.input c).left = bs at hlen
    cases bs with
    | nil => exact .closed
    | cons b bs =>
      dsimp only
      have hcalm := Calm.readBytes s c (b :: bs)
      have hread := h.readBytes hb hp hmem hlen
      have hbytes := inputBytes_readBytes s c (b :: bs)
      have hin := readBytes_input s c (b :: bs)
      have hwait : headerSize ≤ sz → Waiting sz s c := fun hsz =>
        (h.reception hsz).waiting c hmem (by simp [hb]) (by simp [hp])
      have hleft : ((readBytes s c (b :: bs)).input c).left =
          (s.input c).left - (b :: bs).length := by rw [hin]
      have hstate : ((readBytes s c (b :: bs)).input c).state = (s.input c).state := by rw [hin]
      have hdata : ((readBytes s c (b :: bs)).input c).dataSize = sz := by
        rw [hin]
        exact (h.buffers c (h.mem_range (Or.inl hmem))).2
      generalize readBytes s c (b :: bs) = t at hcalm hread hbytes hleft hstate hdata ⊢
      by_cases hmore : 0 < (t.input c).left
      · rw [if_pos hmore]
        refine .wait t hcalm (hread.wait fun hsz => ?_)
        rw [hbytes, hleft, hstate]
        exact (hwait hsz).left.append (by omega)
      rw [if_neg hmore]
      have hload := loadHeader_good hread (by omega) hdata fun hsz => by
        have hw := (hwait hsz).left
        rw [hbytes, hstate]
        cases hst : (s.input c).state with
        | header =>
          rw [hst] at hw
          exact hw.header_length (by omega)
        | payload =>
          rw [hst] at hw
          exact hw.parse_full (by omega)
      have hcalm' := hcalm.trans (Calm.loadHeader t c)
      generalize loadHeader t c = r at hload hcalm'
      obtain ⟨fit, u⟩ := r
      cases fit with
      | false => exact .tooBig u hcalm' hload.1 hmem hload.2
      | true =>
        dsimp only at hload ⊢
        by_cases hzero : (u.input c).left = 0
        · rw [if_pos hzero]
          refine .message u hcalm' hload.1 hmem fun hsz => ?_
          have := hload.2 hsz
          rwa [if_pos hzero] at this
        · rw [if_neg hzero]
          refine .wait u hcalm' (hload.1.wait fun hsz => ?_)
          have := hload.2 hsz
          rwa [if_neg hzero] at this

/-- One turn of the loop, after which the client is still connected or pending. -/
theorem socketInTurn_good (hcb : MessageOk sz cb) (e : ReadEnv α) (h : Good sz s v)
    (hb : v.busy = none) (hc : c ∈ v.connected ∨ c ∈ v.pending) (hp : v.place = .top)
    (hcur : v.current = none) :
    Exec.Sat (Observed sz) (fun again t => if again then
      ∃ v', Shrunk v v' ∧ (c ∈ v'.connected ∨ c ∈ v'.pending) ∧ Good sz t v' else GoodAfter sz v t)
      (socketInTurn cb c e s) := by
  have hnil := h.readBytes_nil hb hp hc
  have hturn := socketInTurn_turn cb e h hb hc hp
  generalize socketInTurn cb c e s = x at hturn
  cases hturn with
  | blocked => exact hnil.goodAfter
  | closed =>
    obtain ⟨v', hm, hg⟩ := clientPendingDisconnect_good hnil hb hc
    exact hm.goodAfter hb hg
  | wait t hq hg => exact ⟨v, Shrunk.refl v, hc, hg⟩
  | tooBig t hq hr hmem hparse =>
    obtain ⟨v', hm, hg⟩ := hr.disconnect hmem hparse
    exact hm.goodAfter hb hg
  | message t hq hr hmem hparse =>
    refine Exec.Sat.bind (handleMessage_good hcb e hr hb hmem hp hcur hparse) fun res u hu => ?_
    cases res with
    | true => exact hu.reset hb hp hcur
    | false => exact hu.fail hb hp hcur

theorem processClientSocketIn_good (hcb : MessageOk sz cb) (es : List (ReadEnv α))
    (h : Good sz s v) (hb : v.busy = none) (hc : c ∈ v.connected ∨ c ∈ v.pending)
    (hp : v.place = .top) (hcur : v.current = none) :
    Exec.Sat (Observed sz) (fun _ => GoodAfter sz v) (processClientSocketIn cb c es s) := by
  induction es generalizing s v with
  | nil => exact (h.readBytes_nil hb hp hc).goodAfter
  | cons e es ih =>
    rw [processClientSocketIn_cons]
    refine Exec.Sat.bind (socketInTurn_good hcb e h hb hc hp hcur) fun again t ht => ?_
    cases again with
    | false => exact ht
    | true =>
      obtain ⟨v', hs, hmem, hg⟩ := ht
      exact (ih hg (hs.busy.trans hb) hmem (hs.place.trans hp) (hs.current.trans hcur)).mono
        (fun _ hP => hP) fun _ _ hQ => hQ.trans hs

theorem processClientSocket_good (hcb : MessageOk sz cb) (events : Events) (e : ProcessEnv α)
    (h : Good sz s v) (hb : v.busy = none) (hc : c ∈ v.connected) (hp : v.place = .top)
    (hcur : v.current = none) :
    Exec.Sat (Observed sz) (fun _ => GoodAfter sz v) (processClientSocket cb c events e s) := by
  have hout : ∃ v', Moved c v v' ∧
      Good sz (if events.epollOut then processClientSocketOut s c e.writes e.mod else s) v' := by
    cases events.epollOut
    · exact ⟨v, .same, h⟩
    · exact processClientSocketOut_good e.writes e.mod h hb hc
  obtain ⟨v', hm, hg⟩ := hout
  have hs := hm.shrunk hb
  have hc' : c ∈ v'.connected ∨ c ∈ v'.pending := by
    cases hm with
    | same => exact Or.inl hc
    | moved l₁ l₂ hl => exact Or.inr List.mem_cons_self
  unfold processClientSocket
  dsimp only
  generalize (if events.epollOut then processClientSocketOut s c e.writes e.mod else s) = t at hg
  cases events.epollIn with
  | false => exact hg.goodAfter.trans hs
  | true =>
    exact (processClientSocketIn_good hcb e.reads hg (hs.busy.trans hb) hc' (hs.place.trans hp)
      (hs.current.trans hcur)).mono (fun _ hP => hP) fun _ _ hQ => hQ.trans hs

/-- The search for a descriptor ends, and meets connected clients only. -/
theorem processClients_good (hcb : MessageOk sz cb) (fd : ℤ) (events : Events) (e : ProcessEnv α)
    {n : ℕ} {p : Option Slot} {l₁ l₂ : List Slot} (h : Good sz s v) (hb : v.busy = none)
    (hp : v.place = .top) (hcur : v.current = none) (hv : v.connected = l₁ ++ l₂)
    (hl : p = l₂.head?) (hn : l₂.length < n) :
    Exec.Sat (Observed sz) (fun _ => GoodAfter sz v) (processClients cb fd events e n p s) := by
  induction n generalizing p l₁ l₂ with
  | zero => exact absurd hn (Nat.not_lt_zero _)
  | succ n ih =>
    cases l₂ with
    | nil =>
      subst hl
      exact h.goodAfter
    | cons c l₂ =>
      subst hl
      have hc : c ∈ v.connected := by simp [hv]
      show Exec.Sat _ _ (if fd = s.clientFd c then _ else _)
      by_cases h1 : fd = s.clientFd c
      · rw [if_pos h1]
        exact processClientSocket_good hcb events e h hb hc hp hcur
      · rw [if_neg h1]
        by_cases h2 : fd = s.keepAliveTimerFd c
        · rw [if_pos h2]
          obtain ⟨v', hm, hg⟩ := clientPendingDisconnect_good h hb (Or.inl hc)
          exact hm.goodAfter hb hg
        · rw [if_neg h2]
          have hnext : s.clients.nextP c = l₂.head? :=
            PointerList.Links.next_eq (show PointerList.Links _ _ (l₁ ++ c :: l₂) from
              hv ▸ h.slots.lists.connected)
          exact ih (show v.connected = (l₁ ++ [c]) ++ l₂ by rw [hv]; simp) hnext
            (by simp at hn; omega)

end

end Messi.LinuxServer
