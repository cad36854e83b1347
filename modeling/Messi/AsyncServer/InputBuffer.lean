import Messi.AsyncServer.Receiving

/-!
# The input buffers of the async server

As long as no frame has been rejected, every read asks for something that fits in the slice of its
slot, so that the slices of the other slots are left alone. After a rejected frame the next read
asks for nothing, or goes beyond the end of the slice: reads are in order just if there is no input
on a connection after a frame that is rejected (`reads_ok_iff`).
-/

namespace Messi.AsyncServer

open Framing ByteMemory Trace Sample

/-- A read asks for at least one byte, and for no more than its slice has room for. -/
def Event.Asks (sz : ℕ) (_ : List Event) : Event → Prop
  | .read _ offset want _ => 0 < want ∧ offset + want ≤ sz
  | _ => True

abbrev ReadsOk (sz : ℕ) : List Event → Prop := Always (Event.Asks sz)

/-- What has been received on the last connection of `c` contains a frame that is rejected. -/
def BadFrame (sz : ℕ) (c : Slot) (l : List Event) : Prop :=
  refused c l = true ∨ tooBig sz (pendingBytes sz c l) = true

/-- There is input on a connection while there has been no frame that is rejected. -/
def Event.Clean (sz : ℕ) (l : List Event) : Event → Prop
  | .read c .. => ¬ BadFrame sz c l
  | _ => True

abbrev NoInputAfterReject (sz : ℕ) : List Event → Prop := Always (Event.Clean sz)

instance (sz : ℕ) (l : List Event) : DecidablePred (Event.Asks sz l) := fun e => by
  rcases e <;> unfold Event.Asks <;> infer_instance

instance (sz : ℕ) (l : List Event) : DecidablePred (Event.Clean sz l) := fun e => by
  rcases e <;> unfold Event.Clean BadFrame <;> infer_instance

/-- The connection goes on from one message to the next, or a frame has been rejected and the next
read is out of order. -/
inductive SlotOk (sz : ℕ) (s : Server) (c : Slot) : Prop
  | waiting (h : Waiting sz s c) (refused : refused c s.log = false)
  | stuck (h : BadFrame sz c s.log)
    (next : (s.input c).left = 0 ∨ sz < (s.input c).size + (s.input c).left)

/-- All reads were in order, and no input has come after a rejected frame. -/
structure Sound (sz : ℕ) (s : Server) : Prop where
  buffers : ∀ c < s.clientsMax, (s.input c).bufP = c * sz ∧ (s.input c).dataSize = sz
  slots : ∀ c, s.connected c = true → c < s.clientsMax
  reads : ReadsOk sz s.log
  clean : NoInputAfterReject sz s.log
  inputs : ∀ c, s.connected c = true → SlotOk sz s c

section

variable {sz : ℕ} {s t u : Server} {c d : Slot} {e : Event} {l evs : List Event} {bs : List UInt8}

/-! ## Slots -/

theorem SlotOk.same (h : SlotOk sz s c) (hs : SameInput c s t) : SlotOk sz t c := by
  cases h with
  | waiting h href =>
    refine .waiting ?_ (hs.refused.trans href)
    unfold Waiting
    rw [hs.receiver, hs.received, hs.handled]
    exact h
  | stuck h hnext =>
    refine .stuck ?_ (hs.input ▸ hnext)
    unfold BadFrame pendingBytes
    rw [hs.refused, hs.received]
    exact h

theorem Waiting.not_badFrame (h : Waiting sz s c) (href : refused c s.log = false) :
    ¬ BadFrame sz c s.log := by
  rintro (hbad | hbig)
  · rw [href] at hbad
    cases hbad
  · exact h.not_rejects (Or.inr hbig)

theorem Waiting.asks (h : Waiting sz s c) (hsz : headerSize ≤ sz) :
    0 < (s.input c).left ∧ (s.input c).size + (s.input c).left ≤ sz := by
  have hwaits : Awaits sz _ (inputBytes s c) (s.input c).left := h.waits
  have hbound := hwaits.bound hsz
  rw [length_inputBytes] at hbound
  exact ⟨hwaits.pos, hbound⟩

/-- A turn is about no other slot. -/
theorem Turned.others_log (h : Turned c s t) (hne : d ≠ c) : received d t.log = received d s.log ∧
    handled d t.log = handled d s.log ∧ refused d t.log = refused d s.log := by
  obtain ⟨bs, evs, -, -, hlog, hevs⟩ := h.read
  have hread : (Event.read c (s.input c).size (s.input c).left bs).input? ≠ some d := by
    simp [Event.input?, Ne.symm hne]
  have hrest : ∀ e ∈ evs, e.input? ≠ some d := by
    intro e he
    have hf := hevs e he
    cases e <;> simp_all [Event.follows, Event.input?, Ne.symm hne]
  obtain ⟨hr, hh, hf⟩ := log_cons (l := s.log) hread
  obtain ⟨hr', hh', hf'⟩ := log_append (c := d)
    (l := .read c (s.input c).size (s.input c).left bs :: s.log) hrest
  rw [hlog]
  exact ⟨hr'.trans hr, hh'.trans hh, hf'.trans hf⟩

/-- What is read into one slice leaves the others alone. -/
theorem Turned.others_same (h : Turned c s t) (hsz : headerSize ≤ sz)
    (hc : (s.input c).bufP = c * sz)
    (hw : Waiting sz s c) (hd : (s.input d).bufP = d * sz) (hne : d ≠ c)
    (hsize : (s.input d).size ≤ sz) : SameInput d s t := by
  obtain ⟨bs, -, hlen, hbufs, -, -⟩ := h.read
  obtain ⟨hr, hh, hf⟩ := h.others_log hne
  have hin := h.others d hne
  have hroom := (hw.asks hsz).2
  refine ⟨hin, ?_, hr, hh, hf⟩
  unfold inputBytes
  rw [hin, hbufs, hc, hd]
  refine slice_write_of_disjoint ?_
  rcases Nat.lt_or_gt_of_ne hne with hlt | hlt
  · have := Nat.mul_le_mul_right sz hlt
    rw [Nat.succ_mul] at this
    left
    omega
  · have := Nat.mul_le_mul_right sz hlt
    rw [Nat.succ_mul] at this
    right
    omega

/-- A turn of a connection that waits keeps everything in order, if its own slot is. -/
theorem Sound.turned (hs : Sound sz s) (hsz : headerSize ≤ sz) (hcon : s.connected c = true)
    (hw : Waiting sz s c) (href : refused c s.log = false) (h : Turned c s t)
    (hslot : SlotOk sz t c) : Sound sz t := by
  have hbuf := hs.buffers c (hs.slots c hcon)
  have hasks := hw.asks hsz
  constructor
  case buffers =>
    intro d hd
    rw [h.clientsMax] at hd
    by_cases hdc : d = c
    · subst hdc
      rw [h.bufP, h.dataSize]
      exact hbuf
    · rw [h.others d hdc]
      exact hs.buffers d hd
  case slots =>
    rw [h.connected, h.clientsMax]
    exact hs.slots
  case reads =>
    obtain ⟨bs, evs, -, -, hlog, hevs⟩ := h.read
    rw [hlog]
    refine Always.append ⟨hasks, hs.reads⟩ fun e he l => ?_
    have hf := hevs e he
    cases e <;> trivial
  case clean =>
    obtain ⟨bs, evs, -, -, hlog, hevs⟩ := h.read
    rw [hlog]
    refine Always.append ⟨hw.not_badFrame href, hs.clean⟩ fun e he l => ?_
    have hf := hevs e he
    cases e <;> trivial
  case inputs =>
    intro d hd
    rw [h.connected] at hd
    by_cases hdc : d = c
    · subst hdc
      exact hslot
    have hdbuf := hs.buffers d (hs.slots d hd)
    have hdslot := hs.inputs d hd
    cases hdslot with
    | waiting hdw hdref =>
      have hdasks := hdw.asks hsz
      exact SlotOk.same (.waiting hdw hdref)
        (h.others_same hsz hbuf.1 hw hdbuf.1 hdc (by omega))
    | stuck hbad hnext =>
      -- what its slice holds does not matter any more
      obtain ⟨hr, -, hf⟩ := h.others_log hdc
      refine .stuck ?_ (h.others d hdc ▸ hnext)
      unfold BadFrame pendingBytes
      rw [hr, hf]
      exact hbad

/-! ## The loop -/

theorem readBytes_waiting (hw : Waiting sz s c) : Waiting sz (readBytes s c []) c := by
  obtain ⟨hr, hh, -⟩ := received_readBytes s c []
  unfold Waiting
  rw [hr, hh, receiver_readBytes]
  exact hw.part (Awaits.pos hw.waits)

theorem readBytes_sound (hs : Sound sz s) (hsz : headerSize ≤ sz) (hcon : s.connected c = true)
    (hw : Waiting sz s c) (href : refused c s.log = false) : Sound sz (readBytes s c []) :=
  hs.turned hsz hcon hw href (Turned.readBytes (Nat.zero_le _))
    (.waiting (readBytes_waiting hw) ((received_readBytes s c []).2.2.trans href))

/-- Input on a connection on which no frame has been rejected. -/
theorem input_sound (hsz : headerSize ≤ sz) (es : List ReadEnv) (hs : Sound sz s)
    (hcon : s.connected c = true) (hw : Waiting sz s c) (href : refused c s.log = false) :
    Sound sz (onStcpClientInput c es s) := by
  induction es generalizing s with
  | nil => exact readBytes_sound hs hsz hcon hw href
  | cons e es ih =>
    rw [onStcpClientInput_cons]
    cases hturn : inputTurn c e s with
    | mk again t =>
      have hdata := (hs.buffers c (hs.slots c hcon)).2
      obtain ⟨hturned, hends⟩ := inputTurn_spec hw hdata hturn
      have hcon' : t.connected c = true := by rw [hturned.connected, hcon]
      have hsound := hs.turned hsz hcon hw href hturned
      cases hends with
      | blocked h =>
        subst h
        exact readBytes_sound hs hsz hcon hw href
      | waits h hhan hr =>
        have hr' := hr.trans href
        exact ih (hsound (.waiting h hr')) hcon' h hr'
      | tooBig h hhan hr hlarge => exact hsound (.stuck (Or.inr h) (Or.inr hlarge))
      | accepted m h hhan hr ok =>
        have hr' := hr.trans href
        exact ih (hsound (.waiting h hr')) hcon' h hr'
      | refused m holds hhan hr bad hleft => exact hsound (.stuck (Or.inl hr) (Or.inl hleft))

/-! ## After a rejected frame -/

theorem Kept.suffix (h : Kept s t) : s.log <:+ t.log := by
  obtain ⟨evs, hlog, -⟩ := h.log
  exact ⟨evs, hlog.symm⟩

theorem handleMessage_suffix (c : Slot) (e : ReadEnv) (s : Server) :
    s.log <:+ (handleMessage c e s).2.log := by
  have hcallback : ∀ t : Server, t.log <:+
      ((callback e.callback (t.setCurrentClientP (some c))).setCurrentClientP none).log :=
    fun t => (callback_kept e.callback (t.setCurrentClientP (some c))).suffix
  have hmsg : s.log <:+ (s.emit (.handleMessage c ((inputHeader s c).type,
    (inputBytes s c).drop headerSize))).log := List.suffix_cons _ _
  unfold handleMessage handleMessageUser
  dsimp only
  generalize s.emit (.handleMessage c ((inputHeader s c).type,
    (inputBytes s c).drop headerSize)) = t at hmsg
  have hdecode : s.log <:+
      (t.emit (.decode c ((inputBytes t c).drop headerSize) e.decode)).log :=
    hmsg.trans (List.suffix_cons _ _)
  generalize t.emit (.decode c ((inputBytes t c).drop headerSize) e.decode) = u at hdecode
  split_ifs
  · exact hmsg.trans (List.suffix_cons _ _)
  · exact hdecode
  · exact hdecode.trans (hcallback u)
  · exact hmsg.trans ((List.suffix_cons _ _).trans (List.suffix_cons _ _))
  · exact hmsg

theorem loadHeader_log (s : Server) (c : Slot) : (loadHeader s c).2.log = s.log := by
  unfold loadHeader
  dsimp only
  split_ifs <;> rfl

/-- The loop begins with a read. -/
theorem onStcpClientInput_reads (c : Slot) (es : List ReadEnv) (s : Server) :
    ∃ bs, .read c (s.input c).size (s.input c).left bs :: s.log <:+
      (onStcpClientInput c es s).log := by
  induction es generalizing s with
  | nil => exact ⟨[], List.suffix_rfl⟩
  | cons e es ih =>
    have hloop : ∀ t : Server, t.log <:+ (onStcpClientInput c es t).log := fun t => by
      obtain ⟨bs, hbs⟩ := ih t
      exact (List.suffix_cons _ _).trans hbs
    unfold onStcpClientInput
    split
    · exact ⟨[], List.suffix_rfl⟩
    · rename_i b bs _
      refine ⟨b :: bs, ?_⟩
      have hlog : (readBytes s c (b :: bs)).log =
          .read c (s.input c).size (s.input c).left (b :: bs) :: s.log := rfl
      rw [← hlog]
      generalize readBytes s c (b :: bs) = t
      dsimp only
      split_ifs
      · exact hloop t
      · have hload := loadHeader_log t c
        cases hfit : loadHeader t c with
        | mk fit w =>
          rw [hfit] at hload
          rw [← hload]
          cases fit with
          | false => exact List.suffix_rfl
          | true =>
            dsimp only
            split_ifs
            · have hmsg := handleMessage_suffix c e w
              cases hres : handleMessage c e w with
              | mk res x =>
                rw [hres] at hmsg
                cases res with
                | true => exact hmsg.trans (hloop (clientResetInput x c))
                | false => exact hmsg
            · exact hloop w

/-- Some read was out of order, and there was input after a rejected frame. -/
def Broken (sz : ℕ) (l : List Event) : Prop := ¬ ReadsOk sz l ∧ ¬ NoInputAfterReject sz l

theorem Broken.suffix {l' : List Event} (h : Broken sz l) (hl : l <:+ l') : Broken sz l' :=
  ⟨fun hr => h.1 (hr.suffix hl), fun hc => h.2 (hc.suffix hl)⟩

/-- Input after a rejected frame is out of order. -/
theorem input_broken (es : List ReadEnv) (hbad : BadFrame sz c s.log)
    (hnext : (s.input c).left = 0 ∨ sz < (s.input c).size + (s.input c).left) :
    Broken sz (onStcpClientInput c es s).log := by
  obtain ⟨bs, hread⟩ := onStcpClientInput_reads c es s
  have hbroken : Broken sz (.read c (s.input c).size (s.input c).left bs :: s.log) := by
    refine ⟨fun h => ?_, fun h => ?_⟩
    · have hasks : 0 < (s.input c).left ∧ (s.input c).size + (s.input c).left ≤ sz := h.1
      omega
    · have hclean : ¬ BadFrame sz c s.log := h.1
      exact hclean hbad
  exact hbroken.suffix hread

/-! ## Runs -/

theorem Kept.sound (h : Kept s t) (hs : Sound sz s) : Sound sz t := by
  obtain ⟨evs, hlog, hevs⟩ := h.log
  constructor
  case buffers =>
    rw [h.clientsMax, h.input]
    exact hs.buffers
  case slots =>
    rw [h.connected, h.clientsMax]
    exact hs.slots
  case reads =>
    rw [hlog]
    refine Always.append hs.reads fun e he l => ?_
    have hnone := hevs e he
    cases e <;> trivial
  case clean =>
    rw [hlog]
    refine Always.append hs.clean fun e he l => ?_
    have hnone := hevs e he
    cases e <;> trivial
  case inputs =>
    intro c hc
    rw [h.connected] at hc
    exact (hs.inputs c hc).same (h.same c)

theorem setConnected_sound (hs : Sound sz s) (hc : c < s.clientsMax) (b : Bool)
    (hslot : b = true → SlotOk sz s c) : Sound sz (s.setConnected c b) := by
  have hcon : ∀ d, (s.setConnected c b).connected d = true →
      d = c ∧ b = true ∨ s.connected d = true := by
    intro d hd
    by_cases hdc : d = c
    · subst hdc
      have hnew : (s.setConnected d b).connected d = b := Function.update_self _ _ _
      exact Or.inl ⟨rfl, hnew.symm.trans hd⟩
    · have hold : (s.setConnected c b).connected d = s.connected d := Function.update_of_ne hdc _ _
      exact Or.inr (hold.symm.trans hd)
  have hsame : ∀ d, SameInput d s (s.setConnected c b) := fun d => ⟨rfl, rfl, rfl, rfl, rfl⟩
  refine ⟨hs.buffers, fun d hd => ?_, hs.reads, hs.clean, fun d hd => ?_⟩
  · rcases hcon d hd with ⟨rfl, -⟩ | hd
    · exact hc
    · exact hs.slots d hd
  · rcases hcon d hd with ⟨rfl, hb⟩ | hd
    · exact (hslot hb).same (hsame d)
    · exact (hs.inputs d hd).same (hsame d)

/-- A new connection begins with a header. -/
theorem connect_waiting (sz : ℕ) (s : Server) (c : Slot) :
    Waiting sz ((clientResetInput s c).emit (.onClientConnected c)) c ∧
      refused c ((clientResetInput s c).emit (.onClientConnected c)).log = false := by
  have hrecv : receiver ((clientResetInput s c).emit (.onClientConnected c)) c =
      ⟨[], false, headerSize⟩ := receiver_reset s c
  have hr : received c (.onClientConnected c :: s.log) = [] := by simp [received]
  have hh : handled c (.onClientConnected c :: s.log) = [] := by simp [handled]
  refine ⟨?_, by simp [refused, clientResetInput]⟩
  unfold Waiting
  rw [hrecv]
  show Receiver.Progress sz _ (received c (.onClientConnected c :: s.log))
    (handled c (.onClientConnected c :: s.log)) _
  rw [hr, hh]
  exact Receiver.progress_fresh

/-- The input of a slot is reset, and its connection begins. -/
theorem reset_sound (hs : Sound sz s) (c : Slot) :
    Sound sz ((clientResetInput s c).emit (.onClientConnected c)) := by
  obtain ⟨hwait, href⟩ := connect_waiting sz s c
  constructor
  case buffers =>
    intro d hd
    show ((clientResetInput s c).input d).bufP = _ ∧ ((clientResetInput s c).input d).dataSize = _
    by_cases hdc : d = c
    · subst hdc
      rw [show (clientResetInput s d).input d = { s.input d with
        state := .header, size := 0, left := headerSize } from Function.update_self _ _ _]
      exact hs.buffers d hd
    · rw [show (clientResetInput s c).input d = s.input d from Function.update_of_ne hdc _ _]
      exact hs.buffers d hd
  case slots => exact hs.slots
  case reads => exact ⟨trivial, hs.reads⟩
  case clean => exact ⟨trivial, hs.clean⟩
  case inputs =>
    intro d hd
    by_cases hdc : d = c
    · subst hdc
      exact .waiting hwait href
    · have hother : (Event.onClientConnected c).input? ≠ some d := by
        simp [Event.input?, Ne.symm hdc]
      exact (hs.inputs d hd).same ((SameInput.setInput s _ hdc).trans (SameInput.emit _ hother))

/-- Every step keeps the server sound, or something goes wrong in it. -/
theorem step_sound (hsz : headerSize ≤ sz) (x : Step) (hs : Sound sz s) :
    Sound sz (step s x) ∨ Broken sz (step s x).log := by
  unfold step
  cases x with
  | call x => exact Or.inl ((call_kept s x).sound hs)
  | connected c calls =>
    dsimp only
    split_ifs with hc
    · refine Or.inl ((callback_kept calls _).sound ?_)
      have hreset := setConnected_sound (reset_sound hs c) hc.1 true fun _ =>
        .waiting (connect_waiting sz s c).1 (connect_waiting sz s c).2
      exact hreset
    · exact Or.inl hs
  | disconnected c calls =>
    dsimp only
    split_ifs with hc
    · refine Or.inl ((callback_kept calls _).sound ?_)
      exact ((Kept.refl _).emit (.onClientDisconnected c) rfl).sound
        (setConnected_sound hs (hs.slots c hc) false nofun)
    · exact Or.inl hs
  | input c es =>
    dsimp only
    split_ifs with hc
    · have hslot := hs.inputs c hc
      cases hslot with
      | waiting hw href => exact Or.inl (input_sound hsz es hs hc hw href)
      | stuck hbad hnext => exact Or.inr (input_broken es hbad hnext)
    · exact Or.inl hs

theorem step_suffix (s : Server) (x : Step) : s.log <:+ (step s x).log := by
  unfold step
  cases x with
  | call x => exact (call_kept s x).suffix
  | connected c calls =>
    dsimp only
    split_ifs
    · exact (List.suffix_cons _ _).trans (callback_kept calls
        ((clientResetInput (s.setConnected c true) c).emit (.onClientConnected c))).suffix
    · exact List.suffix_rfl
  | disconnected c calls =>
    dsimp only
    split_ifs
    · exact (List.suffix_cons _ _).trans (callback_kept calls
        ((s.setConnected c false).emit (.onClientDisconnected c))).suffix
    · exact List.suffix_rfl
  | input c es =>
    dsimp only
    split_ifs
    · obtain ⟨bs, hread⟩ := onStcpClientInput_reads c es s
      exact (List.suffix_cons _ _).trans hread
    · exact List.suffix_rfl

theorem run_sound (hsz : headerSize ≤ sz) (steps : List Step)
    (hs : Sound sz s ∨ Broken sz s.log) : Sound sz (run steps s) ∨ Broken sz (run steps s).log := by
  induction steps generalizing s with
  | nil => exact hs
  | cons x steps ih =>
    refine ih ?_
    rcases hs with hs | hs
    · exact step_sound hsz x hs
    · exact Or.inr (hs.suffix (step_suffix s x))

theorem serverInit_sound (m : Server) (n sz k : ℕ) : Sound sz (serverInit m n sz k) := by
  refine ⟨fun c hc => ?_, nofun, trivial, trivial, nofun⟩
  have hin : (serverInit m n sz k).input c = { m.input c with bufP := c * sz, dataSize := sz } :=
    if_pos hc
  rw [hin]
  exact ⟨rfl, rfl⟩

/-- Every read of a run asks for at least one byte, and for no more than there is room for in the
slice, just if there is no input on a connection after a frame that is rejected. -/
theorem reads_ok_iff (hsz : headerSize ≤ sz) (m : Server) (n k : ℕ) (steps : List Step) :
    ReadsOk sz (run steps (serverInit m n sz k)).log ↔
      NoInputAfterReject sz (run steps (serverInit m n sz k)).log := by
  rcases run_sound hsz steps (Or.inl (serverInit_sound m n sz k)) with hs | hbroken
  · exact ⟨fun _ => hs.clean, fun _ => hs.reads⟩
  · exact ⟨fun h => absurd h hbroken.1, fun h => absurd h hbroken.2⟩

/-- Two clients send messages in pieces. -/
def pieceSteps : List Step :=
  [.connected 0 [], .connected 1 [], .input 0 [bytes [1, 0, 0, 2, 7], bytes [7]],
    .input 1 [bytes [3, 0], bytes [0, 0]], .input 0 [bytes [8], bytes [3, 0, 0, 0]]]

theorem reads_ok_iff_pieceSteps :
    ReadsOk 16 (run pieceSteps (server 2 16)).log ↔
      NoInputAfterReject 16 (run pieceSteps (server 2 16)).log :=
  reads_ok_iff (by decide) memory 2 64 pieceSteps

/-- A client announces a message of 256 bytes, and sends more; or it sends a message of an unknown
type, and then something else. -/
def tooBigSteps : List Step :=
  [.connected 0 [], .input 0 [bytes [1, 0, 1, 0]], .input 0 [bytes [7, 7, 7]]]

def unknownSteps : List Step :=
  [.connected 0 [], .input 0 [bytes [9, 0, 0, 0]], .input 0 [bytes [3, 0, 0, 0]]]

/-- After the one the server asks for 256 bytes behind the first four of a slice of 16, after the
other for none. -/
theorem not_readsOk_tooBigSteps :
    ¬ ReadsOk 16 (run tooBigSteps (server 1 16)).log ∧
      ¬ ReadsOk 16 (run unknownSteps (server 1 16)).log := by
  decide

end

end Messi.AsyncServer
