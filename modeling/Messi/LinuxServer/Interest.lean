import Messi.LinuxServer.Descriptors

/-!
# What the server waits for

The events for which a descriptor is registered in the epoll instance, read off the log.
-/

namespace Messi.LinuxServer

/-- The events for which the descriptor is registered, or `none`. -/
def interest (fd : ℤ) : List Event → Option Events
  | [] => none
  | .epollCtl .add fd' events ok :: l => if fd' = fd ∧ ok = true then some events else interest fd l
  | .epollCtl .mod fd' events ok :: l =>
    if fd' = fd ∧ ok = true then (interest fd l).map fun _ => events else interest fd l
  | .epollCtl .del fd' _ _ :: l => if fd' = fd then none else interest fd l
  | .closed fd' :: l => if fd' = fd then none else interest fd l
  | _ :: l => interest fd l

/-- The descriptor that an event is about, if it is about what is registered. -/
def Event.registers? : Event → Option ℤ
  | .epollCtl _ fd _ _ | .closed fd => some fd
  | _ => none

section

variable {sz : ℕ} {s : Server} {v : View} {c d : Slot} {e : Event} {l evs : List Event} {fd : ℤ}

theorem interest_cons (h : e.registers? ≠ some fd) : interest fd (e :: l) = interest fd l := by
  cases e with
  | epollCtl op fd' events ok =>
    have hne : fd' ≠ fd := fun he => h (congrArg some he)
    cases op <;> simp [interest, hne]
  | closed fd' => exact if_neg fun he => h (congrArg some he)
  | _ => rfl

theorem Event.registers?_of_quiet (h : e.quiet = true) : e.registers? = none := by
  cases e <;> first | rfl | cases h

theorem interest_append (h : ∀ e ∈ evs, e.registers? ≠ some fd) :
    interest fd (evs ++ l) = interest fd l := by
  induction evs with
  | nil => rfl
  | cons e evs ih =>
    rw [List.cons_append, interest_cons (h e List.mem_cons_self)]
    exact ih fun e' he' => h e' (List.mem_cons_of_mem e he')

theorem interest_quiet (h : ∀ e ∈ evs, e.quiet = true) (fd : ℤ) :
    interest fd (evs ++ l) = interest fd l := by
  refine interest_append fun e he hr => ?_
  rw [Event.registers?_of_quiet (h e he)] at hr
  cases hr

/-! ## Open descriptors -/

theorem LogOk.openFds_nodup (h : LogOk sz l) : (openFds l).Nodup := by
  induction l with
  | nil => exact List.nodup_nil
  | cons e l ih =>
    have hl := ih h.2
    cases e with
    | opened fd => exact List.nodup_cons.2 ⟨h.1, hl⟩
    | closed fd => exact hl.erase fd
    | _ => exact hl

/-- Only what is open is registered. -/
theorem LogOk.interest_eq_none (h : LogOk sz l) (hfd : fd ≠ -1) (ho : fd ∉ openFds l) :
    interest fd l = none := by
  induction l with
  | nil => rfl
  | cons e l ih =>
    cases e with
    | opened fd' => exact ih h.2 fun hm => ho (List.mem_cons_of_mem _ hm)
    | closed fd' =>
      rw [interest]
      split_ifs with he
      · rfl
      · exact ih h.2 fun hm => ho ((List.mem_erase_of_ne (Ne.symm he)).2 hm)
    | epollCtl op fd' events ok =>
      have hne : fd' ≠ fd := by
        rintro rfl
        exact ho (h.1.resolve_left hfd)
      have hother : (Event.epollCtl op fd' events ok).registers? ≠ some fd := fun he =>
        hne (Option.some.inj he)
      rw [interest_cons hother]
      exact ih h.2 ho
    | _ => exact ih h.2 ho

/-- What the clients own is owned once. -/
theorem Good.owned_nodup (h : Good sz s v) : (v.owned s).Nodup :=
  h.fds.nodup_iff.1 h.log.openFds_nodup

/-- Two connected clients have different sockets. -/
theorem Good.clientFd_ne (h : Good sz s v) (hc : c ∈ v.connected) (hd : d ∈ v.connected)
    (hcd : d ≠ c) : s.clientFd d ≠ s.clientFd c := by
  intro heq
  have hn := h.owned_nodup
  unfold View.owned at hn
  simp only [List.nodup_append, List.nodup_flatMap] at hn
  obtain ⟨-, ⟨-, ⟨⟨-, hpair⟩, -⟩, -⟩, -⟩ := hn
  have hsymm : Std.Symm (Function.onFun List.Disjoint (connectedFds s)) := ⟨fun _ _ h => h.symm⟩
  have hdis : (connectedFds s d).Disjoint (connectedFds s c) := hpair.forall hd hc hcd
  exact hdis (a := s.clientFd d) List.mem_cons_self (heq ▸ List.mem_cons_self)

/-- The timer of a pending client is no connected client's socket. -/
theorem Good.clientFd_ne_timer (h : Good sz s v) (hp : v.place ≠ .disconnected c)
    (hc : c ∈ v.pending) (hd : d ∈ v.connected) : s.clientFd d ≠ s.keepAliveTimerFd c := by
  intro heq
  have hn := h.owned_nodup
  unfold View.owned at hn
  simp only [List.nodup_append] at hn
  obtain ⟨-, ⟨-, ⟨-, -, hdis⟩, -⟩, -⟩ := hn
  refine hdis _ (List.mem_flatMap.2 ⟨d, hd, List.mem_cons_self⟩) _
    (List.mem_flatMap.2 ⟨c, hc, ?_⟩) heq
  rw [pendingFds, if_neg hp]
  exact List.mem_singleton_self _

end

end Messi.LinuxServer
