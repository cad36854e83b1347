import Messi.AsyncServer.InputBuffer

/-!
# Serving one connection in the async server

A connection of the async server from the time it is accepted (`Served`), as for the Linux server.
Its frames up to now have been handled, or one has been rejected; but it is connected either way
(`Served.outcome`).
-/

namespace Messi.AsyncServer

/-- The messages handled between the two states. -/
def newlyHandled (c : Slot) (s t : Server) : List Message :=
  (handled c t.log).drop (handled c s.log).length

/-- Every message is answered as `ok` says. -/
def AnswersAs (ok : Message → Bool) (c : Slot) : List ReadEnv → Server → Prop
  | [], _ => True
  | e :: es, s =>
    (∀ m ∈ newlyHandled c s (inputTurn c e s).2, accepts e m = ok m) ∧
      ((inputTurn c e s).1 = true → AnswersAs ok c es (inputTurn c e s).2)

/-- The connection has been accepted, and nothing has been read from it. -/
structure Fresh (sz : ℕ) (s : Server) (c : Slot) : Prop where
  connected : s.connected c = true
  dataSize : (s.input c).dataSize = sz
  receiver : receiver s c = ⟨[], false, headerSize⟩
  received : received c s.log = []
  handled : handled c s.log = []

/-- What is read from a client is as it was, and so is its connection. -/
structure Stays (c : Slot) (s t : Server) : Prop where
  input : SameInput c s t
  connected : t.connected c = s.connected c

/-- A connection from the time it is accepted. -/
inductive Served (sz : ℕ) (ok : Message → Bool) (c : Slot) : Server → Prop
  | accepted {s : Server} (h : Fresh sz s c) : Served sz ok c s
  | other {s t : Server} (h : Served sz ok c s) (hs : Stays c s t) : Served sz ok c t
  | input {s : Server} {es : List ReadEnv} (h : Served sz ok c s) (hans : AnswersAs ok c es s) :
    Served sz ok c (onStcpClientInput c es s)

/-- The frames of the connection up to now have been handled and accepted. -/
structure Serves (sz : ℕ) (ok : Message → Bool) (s : Server) (c : Slot) : Prop where
  dataSize : (s.input c).dataSize = sz
  waiting : Waiting sz s c
  accepted : ∀ m ∈ handled c s.log, ok m = true

section

variable {sz : ℕ} {ok : Message → Bool} {s t u : Server} {c : Slot}

theorem Serves.progress (h : Serves sz ok s c) :
    (receiver s c).Progress sz ok (received c s.log) (handled c s.log) :=
  ⟨h.waiting.holds, h.waiting.waits, h.accepted⟩

theorem Serves.stays (h : Serves sz ok s c) (hs : Stays c s t) : Serves sz ok t c := by
  refine ⟨hs.input.input ▸ h.dataSize, ?_, hs.input.handled ▸ h.accepted⟩
  unfold Waiting
  rw [hs.input.receiver, hs.input.received, hs.input.handled]
  exact h.waiting

/-! ## After a rejected frame -/

theorem handleMessage_received (c : Slot) (e : ReadEnv) (s : Server) :
    received c (handleMessage c e s).2.log = received c s.log ∧
      (handleMessage c e s).2.connected = s.connected := by
  have hcallback : ∀ t : Server,
      received c ((callback e.callback (t.setCurrentClientP (some c))).setCurrentClientP none).log =
        received c t.log ∧
      ((callback e.callback (t.setCurrentClientP (some c))).setCurrentClientP none).connected =
        t.connected := fun t =>
    ⟨((callback_kept e.callback (t.setCurrentClientP (some c))).same c).received,
      (callback_kept e.callback (t.setCurrentClientP (some c))).connected⟩
  unfold handleMessage handleMessageUser
  dsimp only
  split_ifs
  · exact ⟨rfl, rfl⟩
  · exact ⟨rfl, rfl⟩
  · exact hcallback _
  · exact ⟨rfl, rfl⟩
  · exact ⟨rfl, rfl⟩

theorem loadHeader_connected (s : Server) (c : Slot) :
    (loadHeader s c).2.connected = s.connected := by
  unfold loadHeader
  dsimp only
  split_ifs <;> rfl

/-- Whatever a turn does, it only adds to what has been received. -/
theorem inputTurn_received (c : Slot) (e : ReadEnv) (s : Server) :
    received c s.log <+: received c (inputTurn c e s).2.log ∧
      (inputTurn c e s).2.connected = s.connected := by
  have hread : ∀ bs, received c s.log <+: received c (readBytes s c bs).log := fun bs =>
    (received_readBytes s c bs).1 ▸ List.prefix_append _ _
  unfold inputTurn
  split
  · exact ⟨hread [], rfl⟩
  · rename_i b bs _
    have hcon : (readBytes s c (b :: bs)).connected = s.connected := rfl
    have hpre := hread (b :: bs)
    dsimp only
    generalize readBytes s c (b :: bs) = t at hcon hpre
    split_ifs
    · exact ⟨hpre, hcon⟩
    · have hlog := loadHeader_log t c
      have hcon' := loadHeader_connected t c
      generalize loadHeader t c = r at hlog hcon'
      obtain ⟨fit, u⟩ := r
      have hpre' : received c s.log <+: received c u.log := hlog ▸ hpre
      cases fit with
      | false => exact ⟨hpre', hcon'.trans hcon⟩
      | true =>
        dsimp only
        split_ifs
        · obtain ⟨hrec, hcon''⟩ := handleMessage_received c e u
          generalize handleMessage c e u = r at hrec hcon''
          obtain ⟨res, w⟩ := r
          have hpre'' : received c s.log <+: received c w.log := hrec ▸ hpre'
          have hall := hcon''.trans (hcon'.trans hcon)
          cases res with
          | true => exact ⟨hpre'', hall⟩
          | false => exact ⟨hpre'', hall⟩
        · exact ⟨hpre', hcon'.trans hcon⟩

theorem onStcpClientInput_received (c : Slot) (es : List ReadEnv) (s : Server) :
    received c s.log <+: received c (onStcpClientInput c es s).log ∧
      (onStcpClientInput c es s).connected = s.connected := by
  induction es generalizing s with
  | nil => exact ⟨(received_readBytes s c []).1 ▸ List.prefix_append _ _, rfl⟩
  | cons e es ih =>
    rw [onStcpClientInput_cons]
    have hturn := inputTurn_received c e s
    generalize inputTurn c e s = r at hturn
    obtain ⟨again, t⟩ := r
    cases again with
    | false => exact hturn
    | true => exact ⟨hturn.1.trans (ih t).1, (ih t).2.trans hturn.2⟩

/-! ## A whole connection -/

theorem inputTurn_serves {e : ReadEnv} (h : Serves sz ok s c)
    (hans : ∀ m ∈ newlyHandled c s (inputTurn c e s).2, accepts e m = ok m) :
    Serves sz ok (inputTurn c e s).2 c ∨
      (inputTurn c e s).1 = false ∧ Rejects sz ok (received c (inputTurn c e s).2.log) := by
  cases hturn : inputTurn c e s with
  | mk again t =>
    rw [hturn] at hans
    obtain ⟨hturned, hends⟩ := inputTurn_spec h.waiting h.dataSize hturn
    have hdata := hturned.dataSize.trans h.dataSize
    have hnew : ∀ m, handled c t.log = handled c s.log ++ [m] → accepts e m = ok m := by
      intro m hm
      apply hans
      unfold newlyHandled
      rw [hm, List.drop_left]
      exact List.mem_cons_self
    cases hends with
    | blocked ht =>
      subst ht
      exact Or.inl ⟨hdata, readBytes_waiting h.waiting, h.accepted⟩
    | waits hw hhan => exact Or.inl ⟨hdata, hw, hhan ▸ h.accepted⟩
    | tooBig hbig => exact Or.inr ⟨rfl, Or.inr hbig⟩
    | accepted m hw hhan _ hok =>
      refine Or.inl ⟨hdata, hw, ?_⟩
      intro m' hm'
      rw [hhan] at hm'
      rcases List.mem_append.1 hm' with hm' | hm'
      · exact h.accepted m' hm'
      · rw [List.mem_singleton.1 hm', ← hnew m hhan]
        exact hok
    | refused m hholds hhan _ hbad =>
      refine Or.inr ⟨rfl, Or.inl ⟨m, ?_, (hnew m hhan).symm.trans hbad⟩⟩
      rw [← hholds.handled_eq Framing.parse_nil]
      exact List.mem_append_right _ List.mem_cons_self

theorem onStcpClientInput_serves {es : List ReadEnv} (h : Serves sz ok s c)
    (hans : AnswersAs ok c es s) :
    Serves sz ok (onStcpClientInput c es s) c ∨
      Rejects sz ok (received c (onStcpClientInput c es s).log) := by
  induction es generalizing s with
  | nil =>
    have hturned : Turned c s (readBytes s c []) := Turned.readBytes (Nat.zero_le _)
    exact Or.inl ⟨hturned.dataSize.trans h.dataSize, readBytes_waiting h.waiting, h.accepted⟩
  | cons e es ih =>
    obtain ⟨hm, hrest⟩ := hans
    have hturn := inputTurn_serves h hm
    rw [onStcpClientInput_cons]
    generalize inputTurn c e s = r at hturn hrest
    obtain ⟨again, t⟩ := r
    cases again with
    | false => exact hturn.imp_right And.right
    | true =>
      rcases hturn with hserves | hrej
      · exact ih hserves (hrest rfl)
      · exact absurd hrej.1 Bool.noConfusion

theorem Fresh.serves (h : Fresh sz s c) : Serves sz ok s c := by
  refine ⟨h.dataSize, ?_, ?_⟩
  · unfold Waiting
    rw [h.receiver, h.received, h.handled]
    exact Receiver.progress_fresh
  · rw [h.handled]
    nofun

/-- The frames of the connection have been handled, or one has been rejected; it is still
connected. -/
theorem Served.outcome (h : Served sz ok c s) :
    s.connected c = true ∧ (Serves sz ok s c ∨ Rejects sz ok (received c s.log)) := by
  induction h with
  | accepted h => exact ⟨h.connected, Or.inl h.serves⟩
  | other h hs ih =>
    refine ⟨hs.connected.trans ih.1, ih.2.imp (fun h => h.stays hs) fun h => ?_⟩
    rw [hs.input.received]
    exact h
  | @input s es h hans ih =>
    obtain ⟨hpre, hcon⟩ := onStcpClientInput_received c es s
    refine ⟨by rw [hcon, ih.1], ?_⟩
    rcases ih.2 with hserves | hrej
    · exact onStcpClientInput_serves hserves hans
    · exact Or.inr (hrej.mono hpre)

/-- A client that has just connected is a fresh one. -/
theorem connect_fresh (hd : (s.input c).dataSize = sz) (calls : List Call) :
    Fresh sz (onStcpClientConnected c calls (s.setConnected c true)) c := by
  have hkept := callback_kept calls
    ((clientResetInput (s.setConnected c true) c).emit (.onClientConnected c))
  have hsame := hkept.same c
  have hrecv := receiver_reset (s.setConnected c true) c
  have hin : ((clientResetInput (s.setConnected c true) c).input c).dataSize =
      (s.input c).dataSize := by
    rw [show (clientResetInput (s.setConnected c true) c).input c = { s.input c with
      state := .header, size := 0, left := headerSize } from Function.update_self _ _ _]
  constructor
  case connected =>
    refine (congrFun hkept.connected c).trans ?_
    exact Function.update_self c true s.connected
  case dataSize =>
    refine (congrArg Input.dataSize hsame.input).trans (Eq.trans ?_ (hin.trans hd))
    rfl
  case receiver =>
    refine hsame.receiver.trans (Eq.trans ?_ hrecv)
    rfl
  case received =>
    refine hsame.received.trans ?_
    simp [AsyncServer.received]
  case handled =>
    refine hsame.handled.trans ?_
    simp [AsyncServer.handled]

end

end Messi.AsyncServer
