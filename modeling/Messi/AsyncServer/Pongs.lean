import Messi.AsyncServer.Serving
import Messi.AsyncServer.Streams

/-!
# Pings and pongs of the async server

As long as a connection lasts the server answers every ping that it handles, at once, with one pong,
and writes nothing else but the messages of its user (`async_answers`).
-/

namespace Messi.AsyncServer

/-- What has been written to the last connection of `c` are user messages and pongs, one for each
ping that has been handled. -/
structure Answers (c : Slot) (l : List Event) : Prop where
  written : ∀ m ∈ written c l, m.1 = messageTypeServerToClientUser ∨ m = (messageTypePong, [])
  pongs : (AsyncServer.written c l).countP isPong = (handled c l).countP isPing

/-- Every slot that has a connection is up. -/
structure Answering (s : Server) : Prop where
  answers : ∀ c, Answers c s.log
  up : ∀ c, s.connected c = true → up c s.log = true

/-- The event is no write, no message and no end of a connection. -/
def Event.idle : Event → Bool
  | .onClientConnected _ | .onClientDisconnected _ | .write .. | .handleMessage .. => false
  | _ => true

section

variable {s t : Server} {c d : Slot} {l : List Event} {e : Event} {m : Message}

/-! ## Events -/

theorem Answers.idle (h : Answers c l) (he : e.idle = true) : Answers c (e :: l) := by
  cases e <;> first | exact ⟨h.written, h.pongs⟩ | cases he

theorem up_idle (he : e.idle = true) : up c (e :: l) = up c l := by
  cases e <;> first | rfl | cases he

theorem Answering.emit (h : Answering s) (he : e.idle = true) : Answering (s.emit e) :=
  ⟨fun c => (h.answers c).idle he, fun c hc => (up_idle he).trans (h.up c hc)⟩

theorem written_user (c d : Slot) (payload : List UInt8) (l : List Event) :
    written c (.write d (messageTypeServerToClientUser, payload) :: l) = written c l ∨
      written c (.write d (messageTypeServerToClientUser, payload) :: l) =
        written c l ++ [(messageTypeServerToClientUser, payload)] := by
  rw [written]
  split_ifs
  · exact Or.inr rfl
  · exact Or.inl rfl

/-- A message of the user is written. -/
theorem Answering.user (h : Answering s) (d : Slot) (payload : List UInt8) :
    Answering (stcpWrite s d (messageTypeServerToClientUser, payload)) := by
  refine ⟨fun c => ?_, h.up⟩
  have hans := h.answers c
  show Answers c (.write d _ :: s.log)
  rcases written_user c d payload s.log with hw | hw
  · constructor
    · rw [hw]
      exact hans.written
    · rw [hw]
      exact hans.pongs
  · constructor
    · rw [hw]
      intro m hm
      rcases List.mem_append.1 hm with hm | hm
      · exact hans.written m hm
      · exact Or.inl (by rw [List.mem_singleton.1 hm])
    · rw [hw, List.countP_append]
      exact hans.pongs

/-- A message is handled that is no ping. -/
theorem Answering.message (h : Answering s) (d : Slot) (hm : isPing m = false) :
    Answering (s.emit (.handleMessage d m)) := by
  refine ⟨fun c => ⟨(h.answers c).written, (h.answers c).pongs.trans ?_⟩, h.up⟩
  show _ = (if d = c then handled c s.log ++ [m] else handled c s.log).countP isPing
  split_ifs
  · rw [List.countP_append, List.countP_singleton, hm]
    rfl
  · rfl

/-- A ping is handled and answered. -/
theorem Answering.ping (h : Answering s) (hd : s.connected d = true) (payload : List UInt8) :
    Answering (stcpWrite (timerStart (s.emit (.handleMessage d (messageTypePing, payload))) d) d
      (messageTypePong, [])) := by
  refine ⟨fun c => ?_, h.up⟩
  have hans := h.answers c
  show Answers c (.write d (messageTypePong, []) :: .timerStart d ::
    .handleMessage d (messageTypePing, payload) :: s.log)
  by_cases hdc : d = c
  · subst hdc
    have hw : written d (.write d (messageTypePong, []) :: .timerStart d ::
        .handleMessage d (messageTypePing, payload) :: s.log) =
        written d s.log ++ [(messageTypePong, [])] := if_pos ⟨rfl, h.up d hd⟩
    have hh : handled d (.write d (messageTypePong, []) :: .timerStart d ::
        .handleMessage d (messageTypePing, payload) :: s.log) =
        handled d s.log ++ [(messageTypePing, payload)] := if_pos rfl
    constructor
    · rw [hw]
      intro m hm
      rcases List.mem_append.1 hm with hm | hm
      · exact hans.written m hm
      · exact Or.inr (List.mem_singleton.1 hm)
    · rw [hw, hh, List.countP_append, List.countP_append, hans.pongs]
      rfl
  · have hw : written c (.write d (messageTypePong, []) :: .timerStart d ::
        .handleMessage d (messageTypePing, payload) :: s.log) = written c s.log :=
      if_neg fun h => hdc h.1
    have hh : handled c (.write d (messageTypePong, []) :: .timerStart d ::
        .handleMessage d (messageTypePing, payload) :: s.log) = handled c s.log := if_neg hdc
    exact ⟨hw ▸ hans.written, by rw [hw, hh, hans.pongs]⟩

/-! ## Calls -/

theorem encodeUserMessage_type {enc : Encoder} (h : encodeUserMessage s enc = some m) :
    m = (messageTypeServerToClientUser, m.2) := by
  obtain ⟨payload, -, rfl⟩ := encodeInto_some h
  rfl

theorem Answering.serverSend (h : Answering s) (c : Slot) (enc : Encoder) :
    Answering (serverSend s c enc) := by
  unfold AsyncServer.serverSend
  split
  · exact h
  · rename_i m hm
    rw [encodeUserMessage_type hm]
    exact h.user c m.2

theorem Answering.broadcastLoop (h : Answering s) (payload : List UInt8) (n : ℕ) (p : Option Slot) :
    Answering (broadcastLoop (messageTypeServerToClientUser, payload) n p s) := by
  induction n generalizing p s with
  | zero => exact h.emit rfl
  | succ n ih =>
    cases p with
    | none => exact h
    | some c => exact ih (h.user c payload) _

theorem Answering.call (h : Answering s) (x : Call) : Answering (call s x) := by
  cases x with
  | send c enc => exact h.serverSend c enc
  | reply enc =>
    show Answering (serverReply s enc)
    unfold serverReply
    split
    · exact h.serverSend _ enc
    · exact h
  | broadcast enc =>
    show Answering (serverBroadcast s enc)
    unfold serverBroadcast
    split
    · exact h
    · rename_i m hm
      rw [encodeUserMessage_type hm]
      exact h.broadcastLoop m.2 _ _
  | disconnect p => exact h

theorem Answering.callback (h : Answering s) (calls : List Call) :
    Answering (callback calls s) := by
  unfold AsyncServer.callback
  induction calls generalizing s with
  | nil => exact h
  | cons x calls ih => exact ih (h.call x)

/-! ## Input -/

theorem Answering.handleMessageUser (h : Answering s) (c : Slot) (e : ReadEnv) :
    Answering (handleMessageUser c e s).2 := by
  unfold AsyncServer.handleMessageUser
  dsimp only
  split_ifs
  · exact h.emit rfl
  · exact h.emit rfl
  · have hdecode : Answering (s.emit (.decode c ((inputBytes s c).drop headerSize) e.decode)) :=
      h.emit rfl
    have hcurrent : Answering ((s.emit (.decode c ((inputBytes s c).drop headerSize)
        e.decode)).setCurrentClientP (some c)) := ⟨hdecode.answers, hdecode.up⟩
    have hback := hcurrent.callback e.callback
    exact ⟨hback.answers, hback.up⟩

theorem Answering.handleMessage (h : Answering s) (hc : s.connected c = true) (e : ReadEnv) :
    Answering (handleMessage c e s).2 := by
  unfold AsyncServer.handleMessage
  dsimp only
  generalize (inputBytes s c).drop headerSize = payload
  split_ifs with huser hping
  · rw [huser]
    exact (h.message c rfl).handleMessageUser c e
  · rw [hping]
    exact h.ping hc payload
  · exact h.message c (decide_eq_false hping)

theorem Answering.inputTurn (h : Answering s) (hc : s.connected c = true) (e : ReadEnv) :
    Answering (inputTurn c e s).2 := by
  have hread : ∀ bs, Answering (readBytes s c bs) := fun bs => by
    have hemit : Answering (s.emit (.read c (s.input c).size (s.input c).left bs)) := h.emit rfl
    exact ⟨hemit.answers, hemit.up⟩
  unfold AsyncServer.inputTurn
  split
  · exact hread []
  · rename_i b bs _
    have hbytes := hread (b :: bs)
    have hcon : (readBytes s c (b :: bs)).connected = s.connected := rfl
    dsimp only
    generalize readBytes s c (b :: bs) = t at hbytes hcon
    split_ifs
    · exact hbytes
    · have hlog := loadHeader_log t c
      have hcon' := loadHeader_connected t c
      generalize loadHeader t c = r at hlog hcon'
      obtain ⟨fit, u⟩ := r
      have hload : Answering u := ⟨hlog ▸ hbytes.answers, fun d hd =>
        hlog ▸ hbytes.up d (hcon' ▸ hd)⟩
      cases fit with
      | false => exact hload
      | true =>
        dsimp only
        split_ifs
        · have hmsg := hload.handleMessage (c := c) (by rw [hcon', hcon, hc]) e
          generalize AsyncServer.handleMessage c e u = r at hmsg
          obtain ⟨res, w⟩ := r
          cases res with
          | true => exact ⟨hmsg.answers, hmsg.up⟩
          | false => exact hmsg
        · exact hload

theorem Answering.onStcpClientInput (h : Answering s) (hc : s.connected c = true)
    (es : List ReadEnv) : Answering (onStcpClientInput c es s) := by
  induction es generalizing s with
  | nil =>
    have hemit : Answering (s.emit (.read c (s.input c).size (s.input c).left [])) := h.emit rfl
    exact ⟨hemit.answers, hemit.up⟩
  | cons e es ih =>
    have hturn := h.inputTurn hc e
    have hcon := (inputTurn_received c e s).2
    rw [onStcpClientInput_cons]
    generalize AsyncServer.inputTurn c e s = r at hturn hcon
    obtain ⟨again, t⟩ := r
    cases again with
    | true => exact ih hturn (by rw [hcon, hc])
    | false => exact hturn

/-! ## Runs -/

theorem Answering.connect (h : Answering s) (c : Slot) :
    Answering ((clientResetInput (s.setConnected c true) c).emit (.onClientConnected c)) := by
  refine ⟨fun d => ?_, fun d hd => ?_⟩
  · show Answers d (.onClientConnected c :: s.log)
    by_cases hdc : c = d
    · subst hdc
      constructor
      · rw [written, if_pos rfl]
        intro m hm
        exact absurd hm List.not_mem_nil
      · rw [written, if_pos rfl, handled, if_pos rfl]
        rfl
    · have hw : written d (.onClientConnected c :: s.log) = written d s.log := if_neg hdc
      have hh : handled d (.onClientConnected c :: s.log) = handled d s.log := if_neg hdc
      exact ⟨hw ▸ (h.answers d).written, by rw [hw, hh, (h.answers d).pongs]⟩
  · show (c == d || AsyncServer.up d s.log) = true
    by_cases hdc : c = d
    · simp [hdc]
    · have hold : s.connected d = true := by
        have hne : ((s.setConnected c true).connected) d = s.connected d :=
          Function.update_of_ne (Ne.symm hdc) _ _
        exact hne ▸ hd
      simp [h.up d hold]

theorem Answering.disconnect (h : Answering s) (c : Slot) :
    Answering ((s.setConnected c false).emit (.onClientDisconnected c)) := by
  refine ⟨fun d => ⟨(h.answers d).written, (h.answers d).pongs⟩, fun d hd => ?_⟩
  show (c != d && AsyncServer.up d s.log) = true
  by_cases hdc : c = d
  · subst hdc
    have hnone : (s.setConnected c false).connected c = false := Function.update_self _ _ _
    exact absurd (hnone.symm.trans hd) Bool.false_ne_true
  · have hne : (s.setConnected c false).connected d = s.connected d :=
      Function.update_of_ne (Ne.symm hdc) _ _
    simp [hdc, h.up d (hne ▸ hd)]

theorem Answering.step (h : Answering s) (x : Step) : Answering (step s x) := by
  unfold AsyncServer.step
  cases x with
  | call x => exact h.call x
  | connected c calls =>
    dsimp only
    split_ifs
    · exact (h.connect c).callback calls
    · exact h
  | disconnected c calls =>
    dsimp only
    split_ifs
    · exact (h.disconnect c).callback calls
    · exact h
  | input c es =>
    dsimp only
    split_ifs with hc
    · exact h.onStcpClientInput hc es
    · exact h

theorem run_answering (m : Server) (n sz k : ℕ) (steps : List Step) :
    Answering (run steps (serverInit m n sz k)) := by
  have hinit : Answering (serverInit m n sz k) :=
    ⟨fun c => ⟨fun m hm => absurd hm List.not_mem_nil, rfl⟩,
      fun c hc => absurd hc Bool.false_ne_true⟩
  unfold run
  generalize serverInit m n sz k = s at hinit
  induction steps generalizing s with
  | nil => exact hinit
  | cons x steps ih => exact ih _ (hinit.step x)

/-- In every run of a server whose slots are wired, on every connection the server has written one
pong for each ping that it has handled there, and nothing else but messages of its user. -/
theorem async_answers (m : Server) (n sz k : ℕ) (steps : List Step) (c : Slot) :
    Answers c (run steps (serverInit m n sz k)).log :=
  (run_answering m n sz k steps).answers c

end

end Messi.AsyncServer
