import Messi.AsyncServer.InputBuffer

/-!
# The streams of a connection of the async server

The messages handled on a connection are those of its own bytes, up to one that is too big, if there
is no input on a connection after a frame that is rejected (`run_handledAll`). What the server
writes goes out as long as there is a connection.
-/

namespace Messi.AsyncServer

open Framing Trace

/-- The slot has a connection. -/
def up (c : Slot) : List Event → Bool
  | [] => false
  | .onClientConnected d :: l => d == c || up c l
  | .onClientDisconnected d :: l => d != c && up c l
  | _ :: l => up c l

/-- The messages written to the last connection of `c` while there was one. -/
def written (c : Slot) : List Event → List Message
  | [] => []
  | .onClientConnected d :: l => if d = c then [] else written c l
  | .write d m :: l => if d = c ∧ up c l then written c l ++ [m] else written c l
  | _ :: l => written c l

/-- On every connection the messages of its own stream have been handled, up to one that is too
big. -/
def HandledAll (sz : ℕ) (s : Server) : Prop := ∀ c, handled c s.log = framed sz (received c s.log)

/-- A connection of `c` begins. -/
def Event.begins (c : Slot) : Event → Bool
  | .onClientConnected d => d = c
  | _ => false

section

variable {sz : ℕ} {s t : Server} {c d : Slot} {l l' : List Event}

/-! ## What is handled -/

theorem HandledAll.same (h : HandledAll sz s) (hr : received d t.log = received d s.log)
    (hh : handled d t.log = handled d s.log) : handled d t.log = framed sz (received d t.log) := by
  rw [hr, hh]
  exact h d

theorem Kept.handledAll (h : Kept s t) (hs : HandledAll sz s) : HandledAll sz t := fun d =>
  hs.same (h.same d).received (h.same d).handled

theorem readBytes_handledAll (h : HandledAll sz s) : HandledAll sz (readBytes s c []) := by
  intro d
  refine h.same ?_ rfl
  by_cases hdc : c = d
  · subst hdc
    rw [(received_readBytes s c []).1, List.append_nil]
  · simp [received, readBytes, hdc]

/-- What a turn has read. -/
theorem Turned.received (h : Turned c s t) : ∃ bs : List UInt8, bs.length ≤ (s.input c).left ∧
    AsyncServer.received c t.log = AsyncServer.received c s.log ++ bs := by
  obtain ⟨bs, evs, hlen, -, hlog, hevs⟩ := h.read
  refine ⟨bs, hlen, ?_⟩
  rw [hlog]
  clear hlog
  induction evs with
  | nil => simp [AsyncServer.received]
  | cons e evs ih =>
    have hrest := ih fun e' he' => hevs e' (List.mem_cons_of_mem e he')
    have he := hevs e List.mem_cons_self
    cases e <;> first | exact hrest | cases he

/-- A turn of the loop, on a connection that waits for the rest of a message. -/
theorem inputTurn_handledAll (e : ReadEnv) (h : HandledAll sz s) (hw : Waiting sz s c)
    (hd : (s.input c).dataSize = sz) : HandledAll sz (inputTurn c e s).2 := by
  cases hturn : inputTurn c e s with
  | mk again t =>
    obtain ⟨hturned, hends⟩ := inputTurn_spec hw hd hturn
    intro d
    by_cases hdc : d = c
    · subst hdc
      cases hends with
      | blocked ht => exact ht ▸ readBytes_handledAll h d
      | waits hw' => exact hw'.handled_eq
      | tooBig hbig hhan =>
        obtain ⟨bs, hlen, hr⟩ := hturned.received
        unfold pendingBytes at hbig
        rw [hr] at hbig
        rw [hhan, hr]
        exact hw.handled_of_tooBig hlen hbig
      | accepted m hw' => exact hw'.handled_eq
      | refused m hholds hhan => exact hhan ▸ hholds.handled_eq parse_nil
    · obtain ⟨hr, hh, -⟩ := hturned.others_log hdc
      exact h.same hr hh

theorem onStcpClientInput_handledAll (es : List ReadEnv) (h : HandledAll sz s)
    (hw : Waiting sz s c) (hdata : (s.input c).dataSize = sz) :
    HandledAll sz (onStcpClientInput c es s) := by
  induction es generalizing s with
  | nil => exact readBytes_handledAll h
  | cons e es ih =>
    have hturn := inputTurn_handledAll e h hw hdata
    rw [onStcpClientInput_cons]
    cases hres : inputTurn c e s with
    | mk again t =>
      rw [hres] at hturn
      obtain ⟨hturned, hends⟩ := inputTurn_spec hw hdata hres
      cases hends with
      | blocked => exact hturn
      | tooBig => exact hturn
      | refused => exact hturn
      | waits hw' => exact ih hturn hw' (hturned.dataSize.trans hdata)
      | accepted m hw' => exact ih hturn hw' (hturned.dataSize.trans hdata)

/-- One step, if there is no input after a frame that is rejected. -/
theorem step_handledAll (x : Step) (hs : Sound sz s) (h : HandledAll sz s)
    (hclean : NoInputAfterReject sz (step s x).log) : HandledAll sz (step s x) := by
  unfold step at hclean ⊢
  cases x with
  | call x => exact (call_kept s x).handledAll h
  | connected c calls =>
    dsimp only at hclean ⊢
    split_ifs
    · refine (callback_kept calls _).handledAll fun d => ?_
      by_cases hdc : c = d
      · subst hdc
        simp [handled, received, framed, parse_nil]
      · have hother : (Event.onClientConnected c).input? ≠ some d := by simp [Event.input?, hdc]
        obtain ⟨hr, hh, -⟩ := log_cons (l := s.log) hother
        exact h.same (t := (clientResetInput (s.setConnected c true) c).emit _) hr hh
    · exact h
  | disconnected c calls =>
    dsimp only at hclean ⊢
    split_ifs
    · have hdown : HandledAll sz (s.setConnected c false) := h
      exact (callback_kept calls _).handledAll
        (((Kept.refl _).emit (.onClientDisconnected c) rfl).handledAll hdown)
    · exact h
  | input c es =>
    dsimp only at hclean ⊢
    split_ifs at hclean ⊢ with hc
    · cases hs.inputs c hc with
      | waiting hw => exact onStcpClientInput_handledAll es h hw (hs.buffers c (hs.slots c hc)).2
      | stuck hbad hnext => exact absurd hclean (input_broken es hbad hnext).2
    · exact h

/-- Every run without input after a frame that is rejected. -/
theorem run_handledAll (hsz : headerSize ≤ sz) (m : Server) (n k : ℕ) (steps : List Step)
    (hclean : NoInputAfterReject sz (run steps (serverInit m n sz k)).log) :
    HandledAll sz (run steps (serverInit m n sz k)) := by
  induction steps using List.reverseRecOn with
  | nil => exact fun c => rfl
  | append_singleton steps x ih =>
    have hrun :
        run (steps ++ [x]) (serverInit m n sz k) = step (run steps (serverInit m n sz k)) x :=
      List.foldl_concat _ _ _ _
    rw [hrun] at hclean ⊢
    have hbefore := hclean.suffix (step_suffix _ x)
    have hsound := (run_sound hsz steps (Or.inl (serverInit_sound m n sz k))).resolve_right
      fun hbroken => hbroken.2 hbefore
    exact step_handledAll x hsound (ih hbefore) hclean

/-! ## A connection goes on -/

theorem handled_collects (c : Slot) : Collects (Event.begins c) (fun _ e => match e with
    | .handleMessage d m => if d = c then [m] else []
    | _ => []) (handled c) where
  nil := rfl
  cons l e := by
    cases e <;> simp [handled, Event.begins]
    split_ifs <;> simp

theorem written_collects (c : Slot) : Collects (Event.begins c) (fun l e => match e with
    | .write d m => if d = c ∧ up c l then [m] else []
    | _ => []) (written c) where
  nil := rfl
  cons l e := by
    cases e <;> simp [written, Event.begins]
    split_ifs <;> simp

end

end Messi.AsyncServer
