import Messi.LinuxServer.Rules

/-!
# The log only grows

Whatever the server does, the log of what it has done before stays, and so do the slots.
-/

namespace Messi.LinuxServer

/-- `NAME_server_stop()` frees a slot. -/
def Event.isStop : Event → Bool
  | .slotStopped _ => true
  | _ => false

/-- The log of `s` is the oldest part of the log of `s'`, which has the same slots, and none of them
has been stopped in between. -/
def Grows (s s' : Server) : Prop :=
  s.log <:+ s'.log ∧ s'.clientsMax = s.clientsMax ∧
    ∀ c, Event.slotStopped c ∈ s'.log → Event.slotStopped c ∈ s.log

section

variable {s s' s'' : Server} {c : Slot} {e : Event}

theorem Grows.refl (s : Server) : Grows s s := ⟨List.suffix_rfl, rfl, fun _ hc => hc⟩

theorem Grows.trans (h : Grows s s') (h' : Grows s' s'') : Grows s s'' :=
  ⟨h.1.trans h'.1, h'.2.1.trans h.2.1, fun c hc => h.2.2 c (h'.2.2 c hc)⟩

theorem Grows.emit (h : Grows s s') (e : Event) (he : e.isStop = false) : Grows s (s'.emit e) := by
  refine ⟨h.1.trans (List.suffix_cons e s'.log), h.2.1, fun c hc => h.2.2 c ?_⟩
  refine (List.mem_cons.1 hc).resolve_left ?_
  rintro rfl
  cases he

/-- The log grows by what happens. -/
theorem Grows.of_log (h : Grows s s') (hl : s''.log = s'.log)
    (hm : s''.clientsMax = s'.clientsMax) : Grows s s'' := by
  refine ⟨?_, hm.trans h.2.1, ?_⟩
  · rw [hl]
    exact h.1
  · rw [hl]
    exact h.2.2

theorem Grows.rules : Rules Grows where
  trans := Grows.trans
  same s t hl hm := (Grows.refl s).of_log hl hm
  emit s t e he hl hm := by
    have hstop : e.isStop = false := by
      cases e <;> first | rfl | cases he
    exact ((Grows.refl s).emit e hstop).of_log hl hm
  close s t fd hl hm := by
    have hclose : Grows s (closeFd s fd) := ((Grows.refl s).emit _ rfl).emit _ rfl
    exact hclose.of_log hl hm
  user s c payload := (Grows.refl s).emit _ rfl
  handle s c m := (Grows.refl s).emit _ rfl
  pong s c fd payload := (((Grows.refl s).emit _ rfl).emit _ rfl).emit _ rfl

theorem closeFd_grows (s : Server) (fd : ℤ) : Grows s (closeFd s fd) :=
  Grows.rules.close s _ fd rfl rfl

theorem serverSend_grows (s : Server) (c : Slot) (enc : Encoder) (e : WriteEnv) :
    Grows s (serverSend s c enc e) :=
  Grows.rules.serverSend s c enc e

theorem apiCall_grows (call : Call) (s : Server) :
    Exec.Sat (Grows s) (fun _ => Grows s) (apiCall call s) :=
  Grows.rules.apiCall call s

theorem Grows.logs : OwnRules.Logs Grows where
  opened s _ := (Grows.refl s).emit _ rfl
  closed s _ := (Grows.refl s).emit _ rfl
  epollCtl s _ _ _ _ := (Grows.refl s).emit _ rfl
  connected s _ := (Grows.refl s).emit _ rfl

variable {α : Type*} {cb : Callbacks α}

theorem destroyClients_grows (hcb : CallbacksIn Grows cb) (e : Slot → List α) (n : ℕ)
    (p : Option Slot) (s : Server) :
    Exec.Sat (Grows s) (fun _ => Grows s) (destroyClients cb e n p s) :=
  Grows.rules.destroyClients hcb e n p s

theorem serverProcess_grows (hcb : CallbacksIn Grows cb) (fd : ℤ) (events : Events)
    (e : ProcessEnv α) (s : Server) :
    Exec.Sat (Grows s) (fun _ => Grows s) (serverProcess cb fd events e s) :=
  Grows.rules.serverProcess hcb (Grows.rules.processListener Grows.logs hcb) fd events e s

end

section

theorem serverStart_grows (s : Server) (e : StartEnv) : Grows s (serverStart s e).2 := by
  unfold serverStart
  dsimp only
  split_ifs
  · exact Grows.refl s
  · exact ((Grows.refl s).emit (.opened _) rfl).emit _ rfl
  · exact (((Grows.refl s).emit (.opened _) rfl).emit _ rfl).emit _ rfl
  · exact ((Grows.refl s).emit (.opened _) rfl).emit (.epollCtl .add _ _ _) rfl

theorem callbacks_grow (d : Discipline) (n : ℕ) : CallbacksIn Grows (callbacks d n) :=
  Grows.rules.callbacks (Grows.rules.accepts Grows.logs) d n

theorem run_grows (d : Discipline) (n : ℕ) (calls : List Call) (s : Server) :
    Exec.Sat (Grows s) (fun _ => Grows s) (run d n calls s) :=
  Grows.rules.run (Grows.rules.accepts Grows.logs) d n calls s

end

end Messi.LinuxServer
