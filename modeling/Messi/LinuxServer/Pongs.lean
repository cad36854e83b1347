import Messi.LinuxServer.Growth

/-!
# Pings and pongs

The server issues user messages, and a pong for a ping that it handles, and nothing else.
-/

namespace Messi.LinuxServer

/-- Every message that has been issued to the last connection of `c` is a user message or a pong,
and there are not more pongs than pings that have been handled. -/
structure Answers (c : Slot) (l : List Event) : Prop where
  issued : ∀ m ∈ issued c l, m.1 = messageTypeServerToClientUser ∨ m = (messageTypePong, [])
  pongs : (LinuxServer.issued c l).countP isPong ≤ (handled c l).countP isPing

section

variable {c d : Slot} {l : List Event} {e : Event} {m : Message}

/-- What an event says of the slot `c`, if it says anything of messages. -/
theorem Answers.cons (h : Answers c l) (hi : LinuxServer.issued c (e :: l) = LinuxServer.issued c l)
    (hh : handled c (e :: l) = handled c l) : Answers c (e :: l) := by
  constructor
  · rw [hi]
    exact h.issued
  · rw [hi, hh]
    exact h.pongs

theorem Answers.plain (h : Answers c l) (he : e.plain = true) : Answers c (e :: l) := by
  cases e <;> first | exact h.cons rfl rfl | cases he

theorem Answers.connected (h : Answers c l) (d : Slot) : Answers c (.onClientConnected d :: l) := by
  by_cases hd : d = c
  · subst hd
    constructor
    · rw [LinuxServer.issued, if_pos rfl]
      exact nofun
    · rw [LinuxServer.issued, if_pos rfl]
      exact Nat.zero_le _
  · exact h.cons (if_neg hd) (if_neg hd)

theorem Answers.handle (h : Answers c l) (d : Slot) (m : Message) :
    Answers c (.handleMessage d m :: l) := by
  refine ⟨h.issued, h.pongs.trans ?_⟩
  show (handled c l).countP isPing ≤
    (if d = c then handled c l ++ [m] else handled c l).countP isPing
  split_ifs
  · rw [List.countP_append]
    exact Nat.le_add_right _ _
  · exact Nat.le_refl _

theorem Answers.user (h : Answers c l) (d : Slot) (payload : List UInt8) :
    Answers c (.frame d (messageTypeServerToClientUser, payload) :: l) := by
  by_cases hd : d = c
  · have hi : LinuxServer.issued c (.frame d (messageTypeServerToClientUser, payload) :: l) =
        LinuxServer.issued c l ++ [(messageTypeServerToClientUser, payload)] := if_pos hd
    constructor
    · rw [hi]
      intro m hm
      rcases List.mem_append.1 hm with hm | hm
      · exact h.issued m hm
      · exact Or.inl (by rw [List.mem_singleton.1 hm])
    · rw [hi, List.countP_append]
      exact h.pongs
  · exact h.cons (if_neg hd) rfl

/-- A ping is answered. -/
theorem Answers.pong (h : Answers c l) (d : Slot) (fd : ℤ) (payload : List UInt8) :
    Answers c (.frame d (messageTypePong, []) :: .settime fd true ::
      .handleMessage d (messageTypePing, payload) :: l) := by
  by_cases hd : d = c
  · have hi : LinuxServer.issued c (.frame d (messageTypePong, []) :: .settime fd true ::
        .handleMessage d (messageTypePing, payload) :: l) =
        LinuxServer.issued c l ++ [(messageTypePong, [])] := if_pos hd
    have hh : handled c (.frame d (messageTypePong, []) :: .settime fd true ::
        .handleMessage d (messageTypePing, payload) :: l) =
        handled c l ++ [(messageTypePing, payload)] := if_pos hd
    constructor
    · rw [hi]
      intro m hm
      rcases List.mem_append.1 hm with hm | hm
      · exact h.issued m hm
      · exact Or.inr (List.mem_singleton.1 hm)
    · rw [hi, hh, List.countP_append, List.countP_append]
      exact Nat.add_le_add_right h.pongs 1
  · exact Answers.cons (Answers.cons (Answers.cons h rfl (if_neg hd)) rfl rfl) (if_neg hd) rfl

/-! ## Runs -/

/-- The server goes on answering. -/
def KeepsAnswers (c : Slot) (s t : Server) : Prop := Answers c s.log → Answers c t.log

theorem KeepsAnswers.rules (c : Slot) : Rules (KeepsAnswers c) where
  trans h h' hs := h' (h hs)
  same s t hl _ hs := hl ▸ hs
  emit s t e he hl _ hs := hl ▸ hs.plain he
  close s t fd hl _ hs := by
    rw [hl]
    exact Answers.cons (Answers.cons hs rfl rfl) rfl rfl
  user s d payload hs := hs.user d payload
  handle s d m hs := hs.handle d m
  pong s d fd payload hs := hs.pong d fd payload

theorem KeepsAnswers.logs (c : Slot) : OwnRules.Logs (KeepsAnswers c) where
  opened _ _ hs := hs.cons rfl rfl
  closed _ _ hs := hs.cons rfl rfl
  epollCtl _ _ _ _ _ hs := hs.cons rfl rfl
  connected _ d hs := hs.connected d

theorem serverStart_answers (s : Server) (e : StartEnv) :
    KeepsAnswers c s (serverStart s e).2 := by
  intro hs
  unfold serverStart
  dsimp only
  split_ifs
  · exact hs
  · exact Answers.cons (Answers.cons hs rfl rfl) rfl rfl
  · exact Answers.cons (Answers.cons (Answers.cons hs rfl rfl) rfl rfl) rfl rfl
  · exact Answers.cons (Answers.cons hs rfl rfl) rfl rfl

/-- In every run from the start, also inside callbacks. -/
theorem run_answers {w s : Server} {n sz messageSize : ℕ} {e : StartEnv}
    (hs : started w n sz messageSize e = (0, s)) (d : Discipline) (depth : ℕ) (calls : List Call)
    (c : Slot) : Answers c (run d depth calls s).state.log := by
  have hstart : Answers c s.log := by
    have hinit : Answers c (serverInit w n sz messageSize).log := ⟨nofun, Nat.le_refl _⟩
    have hkept := serverStart_answers (serverInit w n sz messageSize) e hinit
    rwa [show serverStart (serverInit w n sz messageSize) e = (0, s) from hs] at hkept
  have hrules := KeepsAnswers.rules c
  have hrun := (hrules.run (hrules.accepts (KeepsAnswers.logs c)) d depth calls s).state
    fun _ _ h => h
  exact hrun hstart

end

end Messi.LinuxServer
