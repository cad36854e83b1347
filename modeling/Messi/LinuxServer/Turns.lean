import Messi.LinuxServer.Api

/-!
# The turns of the read loop

One turn of the loop of `process_client_socket_in()`: a `read()`, and what is done about it. The
result is true if the loop goes on. What is done to the input of a client is quiet: it changes
neither the lists nor the sockets, the queues and what is registered.
-/

namespace Messi.LinuxServer

variable {α : Type*}

def socketInTurn (cb : Callbacks α) (c : Slot) (e : ReadEnv α) (s : Server) : Exec Server Bool :=
  match sysRead (s.clientFd c) (s.input c).left e.res with
  | .eagain => .done false (readBytes s c [])
  | .error => .done false (clientPendingDisconnect (readBytes s c []) c)
  | .data [] => .done false (clientPendingDisconnect (readBytes s c []) c)
  | .data (b :: bs) =>
    let s := readBytes s c (b :: bs)
    if 0 < (s.input c).left then .done true s
    else
      match loadHeader s c with
      | (false, s) => .done false (clientPendingDisconnect s c)
      | (true, s) =>
        if (s.input c).left = 0 then
          (handleMessage cb c e s).bind fun res s =>
            if res then .done true (clientResetInput s c)
            else .done false ((clientPendingDisconnect s c).emit (.handleFailed c))
        else .done true s

/-- The loop is a turn, and then the loop again if the turn says so. -/
theorem processClientSocketIn_cons (cb : Callbacks α) (c : Slot) (e : ReadEnv α)
    (es : List (ReadEnv α)) (s : Server) :
    processClientSocketIn cb c (e :: es) s = (socketInTurn cb c e s).bind fun again s =>
      if again then processClientSocketIn cb c es s else .done () s := by
  rw [processClientSocketIn, socketInTurn]
  cases sysRead (s.clientFd c) (s.input c).left e.res with
  | eagain => rfl
  | error => rfl
  | data bs =>
    cases bs with
    | nil => rfl
    | cons b bs =>
      dsimp only
      by_cases hmore : 0 < ((readBytes s c (b :: bs)).input c).left
      · rw [if_pos hmore, if_pos hmore]
        rfl
      rw [if_neg hmore, if_neg hmore]
      generalize loadHeader (readBytes s c (b :: bs)) c = r
      obtain ⟨fit, t⟩ := r
      cases fit with
      | false => rfl
      | true =>
        dsimp only
        by_cases hzero : (t.input c).left = 0
        · rw [if_pos hzero, if_pos hzero]
          cases handleMessage cb c e t with
          | inside u => rfl
          | done res u => cases res <;> rfl
        · rw [if_neg hzero, if_neg hzero]
          rfl

/-! ## Quiet steps -/

/-- The event is not about which descriptors are open or registered. -/
def Event.quiet : Event → Bool
  | .opened _ | .closed _ | .epollCtl .. => false
  | _ => true

/-- Nothing happens to the lists, the sockets, the heads of the queues and the registrations. -/
structure Quiet (s t : Server) : Prop where
  clients : t.clients = s.clients
  clientsMax : t.clientsMax = s.clientsMax
  clientFd : t.clientFd = s.clientFd
  headP : ∀ c, (t.output c).headP = (s.output c).headP
  log : ∃ evs, t.log = evs ++ s.log ∧ ∀ e ∈ evs, e.quiet = true

section

variable {s t u : Server}

theorem Quiet.emit (s : Server) {e : Event} (he : e.quiet = true) : Quiet s (s.emit e) :=
  ⟨rfl, rfl, rfl, fun _ => rfl, [e], rfl, by simpa using he⟩

theorem Quiet.same (hc : t.clients = s.clients) (hm : t.clientsMax = s.clientsMax)
    (hf : t.clientFd = s.clientFd) (ho : t.output = s.output) (hl : t.log = s.log) : Quiet s t :=
  ⟨hc, hm, hf, fun c => by rw [ho], [], hl, nofun⟩

theorem Quiet.trans (h : Quiet s t) (h' : Quiet t u) : Quiet s u := by
  obtain ⟨evs, hl, he⟩ := h.log
  obtain ⟨evs', hl', he'⟩ := h'.log
  refine ⟨h'.clients.trans h.clients, h'.clientsMax.trans h.clientsMax,
    h'.clientFd.trans h.clientFd, fun c => (h'.headP c).trans (h.headP c), evs' ++ evs, ?_, ?_⟩
  · rw [hl', hl, List.append_assoc]
  · intro e hmem
    rcases List.mem_append.1 hmem with hmem | hmem
    · exact he' e hmem
    · exact he e hmem

/-! ## Calm steps -/

/-- The server has read something, or is about to handle it. -/
def Event.calm : Event → Bool
  | .read .. | .handleMessage .. | .settime .. | .handleFailed _ => true
  | _ => false

/-- Nothing happens to the lists, the sockets and the queues, and nothing is issued. -/
structure Calm (s t : Server) : Prop where
  clients : t.clients = s.clients
  clientsMax : t.clientsMax = s.clientsMax
  clientFd : t.clientFd = s.clientFd
  output : t.output = s.output
  log : ∃ evs, t.log = evs ++ s.log ∧ ∀ e ∈ evs, e.calm = true

theorem Calm.quiet (h : Calm s t) : Quiet s t := by
  obtain ⟨evs, hl, he⟩ := h.log
  refine ⟨h.clients, h.clientsMax, h.clientFd, fun c => by rw [h.output], evs, hl, fun e hmem => ?_⟩
  have hcalm := he e hmem
  cases e <;> first | rfl | cases hcalm

theorem Calm.emit (s : Server) {e : Event} (he : e.calm = true) : Calm s (s.emit e) :=
  ⟨rfl, rfl, rfl, rfl, [e], rfl, by simpa using he⟩

theorem Calm.same (hc : t.clients = s.clients) (hm : t.clientsMax = s.clientsMax)
    (hf : t.clientFd = s.clientFd) (ho : t.output = s.output) (hl : t.log = s.log) : Calm s t :=
  ⟨hc, hm, hf, ho, [], hl, fun _ he => absurd he List.not_mem_nil⟩

theorem Calm.trans (h : Calm s t) (h' : Calm t u) : Calm s u := by
  obtain ⟨evs, hl, he⟩ := h.log
  obtain ⟨evs', hl', he'⟩ := h'.log
  refine ⟨h'.clients.trans h.clients, h'.clientsMax.trans h.clientsMax,
    h'.clientFd.trans h.clientFd, h'.output.trans h.output, evs' ++ evs, ?_, ?_⟩
  · rw [hl', hl, List.append_assoc]
  · intro e hmem
    exact (List.mem_append.1 hmem).elim (he' e) (he e)

theorem Calm.setCurrentClientP (s : Server) (p : Option Slot) : Calm s (s.setCurrentClientP p) :=
  Calm.same rfl rfl rfl rfl rfl

theorem Calm.clientResetInput (s : Server) (c : Slot) : Calm s (clientResetInput s c) :=
  Calm.same rfl rfl rfl rfl rfl

theorem Calm.readBytes (s : Server) (c : Slot) (bs : List UInt8) : Calm s (readBytes s c bs) :=
  ⟨rfl, rfl, rfl, rfl, [.read c _ _ _ bs], rfl, by simp [Event.calm]⟩

theorem Calm.loadHeader (s : Server) (c : Slot) : Calm s (loadHeader s c).2 := by
  unfold LinuxServer.loadHeader
  dsimp only
  split_ifs <;> exact Calm.same rfl rfl rfl rfl rfl

end

end Messi.LinuxServer
