import Messi.LinuxServer.AllOrNothing
import Messi.LinuxServer.Alongside

/-!
# Write wake-ups

Between calls the socket of a connected client is registered for `EPOLLOUT` just if something is
queued for it, and always for `EPOLLIN` (`wake_ups_kept`), as long as `EPOLL_CTL_MOD` succeeds.

`Works c s t` says what it takes of a function that works on one client: the other clients and
their registrations are left alone, and its own registration follows its queue.
-/

namespace Messi.LinuxServer

open PointerList Sample

/-- No `EPOLL_CTL_MOD` has failed. -/
def ModsOk (l : List Event) : Prop := ∀ fd events, Event.epollCtl .mod fd events false ∉ l

/-- The server waits for what a connected client's queue needs. -/
def Watched (s : Server) (c : Slot) : Prop :=
  interest (s.clientFd c) s.log = some ⟨true, (s.output c).headP.isSome⟩

/-- Every connected client is watched, if `EPOLL_CTL_MOD` succeeds. -/
def WakeUps (s : Server) : Prop := ModsOk s.log → ∀ c ∈ connectedSlots s, Watched s c

section

variable {sz : ℕ} {s t u : Server} {v v' : View} {c d : Slot} {l evs : List Event} {e : Event}

theorem ModsOk.append (h : ModsOk (evs ++ l)) : ModsOk l :=
  fun fd events hm => h fd events (List.mem_append_right evs hm)

theorem ModsOk.cons (h : ModsOk (e :: l)) : ModsOk l :=
  fun fd events hm => h fd events (List.mem_cons_of_mem e hm)

theorem ModsOk.mod {fd : ℤ} {events : Events} {ok : Bool}
    (h : ModsOk (.epollCtl .mod fd events ok :: l)) : ok = true := by
  cases ok with
  | true => rfl
  | false => exact absurd List.mem_cons_self (h fd events)

/-! ## Working on one client -/

/-- The client `c` is worked on: what others are registered for stays, and what the client is
registered for follows its queue, unless it is disconnected. -/
structure Works (c : Slot) (s t : Server) : Prop where
  others : ∀ d, d ≠ c → t.clientFd d = s.clientFd d ∧ (t.output d).headP = (s.output d).headP
  fd : t.clientFd c = s.clientFd c ∨ t.clientFd c = -1
  mods : ModsOk t.log → ModsOk s.log
  interests : ∀ fd, fd ≠ s.clientFd c → interest fd t.log = interest fd s.log
  own : ModsOk t.log → t.clientFd c ≠ -1 → Watched s c → Watched t c

theorem Works.refl (c : Slot) (s : Server) : Works c s s :=
  ⟨fun _ _ => ⟨rfl, rfl⟩, Or.inl rfl, id, fun _ _ => rfl, fun _ _ => id⟩

theorem Works.trans (h : Works c s t) (h' : Works c t u) (hfd : t.clientFd c = s.clientFd c) :
    Works c s u where
  others d hd := ⟨((h'.others d hd).1).trans (h.others d hd).1,
    ((h'.others d hd).2).trans (h.others d hd).2⟩
  fd := hfd ▸ h'.fd
  mods hm := h.mods (h'.mods hm)
  interests fd hne := (h'.interests fd (hfd ▸ hne)).trans (h.interests fd hne)
  own hm hup hw := by
    refine h'.own hm hup (h.own (h'.mods hm) ?_ hw)
    rcases h'.fd with he | he
    · exact he ▸ hup
    · exact absurd he hup

theorem Quiet.interest (h : Quiet s t) (fd : ℤ) : interest fd t.log = interest fd s.log := by
  obtain ⟨evs, hl, he⟩ := h.log
  rw [hl]
  exact interest_quiet he fd

theorem Quiet.mods (h : Quiet s t) (hm : ModsOk t.log) : ModsOk s.log := by
  obtain ⟨evs, hl, -⟩ := h.log
  rw [hl] at hm
  exact hm.append

theorem Quiet.watched (h : Quiet s t) (hw : Watched s c) : Watched t c := by
  unfold Watched at hw ⊢
  rw [h.clientFd, h.headP, h.interest]
  exact hw

theorem Quiet.works (h : Quiet s t) (c : Slot) : Works c s t :=
  ⟨fun d _ => ⟨by rw [h.clientFd], h.headP d⟩, Or.inl (by rw [h.clientFd]), h.mods,
    fun fd _ => h.interest fd, fun _ _ => h.watched⟩

/-- The queue of a client becomes empty or stops being so, and what it is registered for follows. -/
theorem Works.mod {p : Option ℕ} {ok : Bool} (hc : t.clientFd = s.clientFd)
    (ho : ∀ d, d ≠ c → (t.output d).headP = (s.output d).headP) (hp : (t.output c).headP = p)
    (hl : ∃ evs, t.log = .epollCtl .mod (s.clientFd c) ⟨true, p.isSome⟩ ok :: (evs ++ s.log) ∧
      ∀ e ∈ evs, e.quiet = true) : Works c s t := by
  obtain ⟨evs, hl, he⟩ := hl
  have hi : ∀ fd, interest fd (evs ++ s.log) = interest fd s.log := interest_quiet he
  refine ⟨fun d hd => ⟨by rw [hc], ho d hd⟩, Or.inl (by rw [hc]), fun hm => ?_, fun fd hne => ?_,
    fun hm _ hw => ?_⟩
  · rw [hl] at hm
    exact hm.cons.append
  · have hother : (Event.epollCtl .mod (s.clientFd c) ⟨true, p.isSome⟩ ok).registers? ≠ some fd :=
      fun heq => hne (Option.some.inj heq).symm
    rw [hl, interest_cons hother, hi]
  · rw [hl] at hm
    have hok := hm.mod
    unfold Watched at hw ⊢
    rw [hc, hl, hp, interest, if_pos ⟨rfl, hok⟩, hi, hw]
    rfl

theorem Event.quiet_of_ofItem (h : e.ofItem = true) : e.quiet = true := by
  cases e <;> first | rfl | cases h

theorem clientPendingDisconnect_works (he : QueueEnds (s.output c)) :
    Works c s (clientPendingDisconnect s c) := by
  by_cases hfd : s.clientFd c = -1
  · rw [clientPendingDisconnect_of_pending hfd]
    exact Works.refl c s
  obtain ⟨evs, hevs, heq⟩ := clientPendingDisconnect_eq hfd he
  have hlog : (clientPendingDisconnect s c).log = (.pendingDisconnect c ::
      .unlinked c (unlinkable s.clientsMax s.clients s.clients.connectedListP c) ::
        (evs ++ [.closed (s.clientFd c), .epollCtl .del (s.clientFd c) ⟨false, false⟩ true])) ++
          s.log := by
    rw [heq]
    simp
  have hdown : (clientPendingDisconnect s c).clientFd c = -1 := by
    rw [heq]
    exact Function.update_self _ _ _
  refine ⟨fun d hd => ?_, Or.inr hdown, fun hm => ?_, fun fd hne => ?_, fun _ hup =>
    absurd hdown hup⟩
  · rw [heq]
    exact ⟨Function.update_of_ne hd _ _, congrArg Output.headP (Function.update_of_ne hd _ _)⟩
  · rw [hlog] at hm
    exact hm.append
  · rw [hlog]
    refine interest_append fun e hmem hr => ?_
    simp only [List.mem_cons, List.mem_append, List.not_mem_nil, or_false] at hmem
    rcases hmem with rfl | rfl | hmem | rfl | rfl
    · cases hr
    · cases hr
    · rw [Event.registers?_of_quiet (Event.quiet_of_ofItem (hevs e hmem))] at hr
      cases hr
    · exact hne (Option.some.inj hr).symm
    · exact hne (Option.some.inj hr).symm

/-- Appending to a queue, or not being able to. -/
theorem clientOutputAppend_works (s : Server) (c : Slot) (buf : List UInt8) (e : WriteEnv) :
    Works c s (clientOutputAppend s c buf e) := by
  unfold clientOutputAppend
  dsimp only
  cases hm : e.malloc with
  | false => exact (Quiet.emit s rfl).works c
  | true =>
    simp only [Bool.not_true, Bool.false_eq_true, if_false, Output.setItem_headP,
      Output.setItem_tailP]
    cases hh : (s.output c).headP with
    | none =>
      refine Works.mod (p := some (s.output c).brk) rfl (fun d hd => ?_) ?_
        ⟨[.malloc c (some (s.output c).brk)], rfl, by simp [Event.quiet]⟩
      · simp [epollCtlMod, Function.update_of_ne hd]
      · simp [epollCtlMod]
    | some p =>
      have hhead : ∀ (o : Output) (u : Server), u.output = s.output → o.headP = some p →
          ∀ d, ((u.setOutput c o).output d).headP = (s.output d).headP := fun o u hu ho d => by
        by_cases hd : d = c
        · subst hd
          simp [ho, hh]
        · simp [Function.update_of_ne hd, hu]
      cases ht : (s.output c).tailP with
      | none =>
        refine Quiet.works ?_ c
        exact ⟨rfl, rfl, rfl, hhead _ (s.emit (.malloc c (some (s.output c).brk))) rfl rfl,
          [.malloc c (some (s.output c).brk)], rfl, by simp [Event.quiet]⟩
      | some i =>
        refine Quiet.works ?_ c
        exact ⟨rfl, rfl, rfl, hhead _
          ((s.emit (.malloc c (some (s.output c).brk))).emit (.itemUse c i)) rfl rfl,
          [.itemUse c i, .malloc c (some (s.output c).brk)], rfl, by simp [Event.quiet]⟩

theorem Quiet.wrote (s : Server) (c : Slot) (chunks : List (List UInt8)) :
    Quiet s (s.wrote c chunks) := by
  induction chunks generalizing s with
  | nil => exact Quiet.same rfl rfl rfl rfl rfl
  | cons bs chunks ih => exact (Quiet.emit s rfl).trans (ih _)

theorem issueMessage_works (m : Message) (e : WriteEnv) (hg : Good sz s v)
    (hc : c ∈ v.connected ∨ c ∈ v.pending) : Works c s (issueMessage s c m e) := by
  have hframe : Quiet s (s.emit (.frame c m)) := Quiet.emit s rfl
  unfold issueMessage clientWrite
  by_cases hhead : ((s.emit (.frame c m)).output c).headP ≠ none
  · rw [if_pos hhead]
    exact (hframe.works c).trans (clientOutputAppend_works _ _ _ _) rfl
  rw [if_neg hhead]
  rcases hc with hc | hc
  · have hfd : (s.emit (.frame c m)).clientFd c ≠ -1 := hg.slots.connectedFd c hc
    rw [writeLoop_eq hfd (by simp), List.drop_zero]
    have hwrote := hframe.trans (Quiet.wrote _ c (drain e.writes (frameBytes m)).1)
    have hout := (wrote_spec (s.emit (.frame c m)) c (drain e.writes (frameBytes m)).1).2.2.2.1
    have hsame : ((s.emit (.frame c m)).wrote c (drain e.writes (frameBytes m)).1).clientFd c =
        s.clientFd c := by rw [hwrote.clientFd]
    cases (drain e.writes (frameBytes m)).2 with
    | done => exact hwrote.works c
    | blocked rest =>
      exact (hwrote.works c).trans (clientOutputAppend_works _ _ _ _) hsame
    | failed =>
      exact (hwrote.works c).trans (clientPendingDisconnect_works (hout ▸ hg.ends c hc)) hsame
  · rw [writeLoop_of_pending (s := s.emit (.frame c m)) (hg.slots.pendingFd c hc)
      (frameBytes_ne_nil m)]
    exact (hframe.trans (Quiet.emit _ rfl)).works c

/-! ## Draining a queue -/

/-- The loop of `process_client_socket_out()` comes to an item of the queue or to its end, or it
disconnects the client. -/
theorem socketOutLoop_quiet (ws : List WriteRes) (p : Option ℕ) (he : QueueEnds (s.output c)) :
    ∃ t, Quiet s t ∧ QueueEnds (t.output c) ∧
      ((∃ r, socketOutLoop c ws p s = (r, t) ∧ (r.isSome → p.isSome)) ∨
        ∃ i, socketOutLoop c ws p s = (some i, clientPendingDisconnect t c)) := by
  induction ws generalizing p s with
  | nil =>
    cases p with
    | none => exact ⟨s, Quiet.same rfl rfl rfl rfl rfl, he, Or.inl ⟨none, rfl, id⟩⟩
    | some i => exact ⟨_, (Quiet.emit s rfl).trans (Quiet.emit _ rfl), he, Or.inl ⟨some i, rfl, id⟩⟩
  | cons w ws ih =>
    cases p with
    | none => exact ⟨s, Quiet.same rfl rfl rfl rfl rfl, he, Or.inl ⟨none, rfl, id⟩⟩
    | some i =>
      have hw : ∀ bs, Quiet s ((s.emit (.itemUse c i)).emit (.write c (s.clientFd c) bs)) :=
        fun bs => (Quiet.emit s rfl).trans (Quiet.emit _ rfl)
      -- what the loop goes on with
      have hnext : ∀ t q, Quiet s t → QueueEnds (t.output c) →
          ∃ u, Quiet s u ∧ QueueEnds (u.output c) ∧
            ((∃ r, socketOutLoop c ws q t = (r, u) ∧ (r.isSome → (some i).isSome)) ∨
              ∃ i, socketOutLoop c ws q t = (some i, clientPendingDisconnect u c)) := by
        intro t q ht he'
        obtain ⟨u, hu, hends, hr⟩ := ih q he'
        refine ⟨u, ht.trans hu, hends, ?_⟩
        rcases hr with ⟨r, hr, -⟩ | hr
        · exact Or.inl ⟨r, hr, fun _ => rfl⟩
        · exact Or.inr hr
      rw [socketOutLoop]
      dsimp only
      split
      · split_ifs
        · exact hnext _ _ ((hw _).trans (Quiet.emit _ rfl)) he
        · rename_i k _ _ _
          have hwrite :=
            hw ((((s.output c).items i).data.drop ((s.output c).items i).offset).take k)
          refine hnext _ _ (hwrite.trans ?_) ?_
          · refine ⟨rfl, rfl, rfl, fun d => ?_, [], rfl, fun _ he => absurd he List.not_mem_nil⟩
            by_cases hd : d = c
            · subst hd
              simp
            · simp [Function.update_of_ne hd]
          · rw [Server.setOutput_output, Function.update_self]
            exact he.setItem rfl
        · exact ⟨_, hw _, he, Or.inr ⟨i, rfl⟩⟩
      · exact ⟨_, hw _, he, Or.inl ⟨some i, rfl, id⟩⟩
      · exact ⟨_, hw _, he, Or.inr ⟨i, rfl⟩⟩

theorem processClientSocketOut_works (ws : List WriteRes) (mod : Bool)
    (he : QueueEnds (s.output c)) : Works c s (processClientSocketOut s c ws mod) := by
  obtain ⟨t, ht, hends, ⟨r, hr, hsome⟩ | ⟨i, hr⟩⟩ := socketOutLoop_quiet ws (s.output c).headP he
  · unfold processClientSocketOut
    rw [hr]
    refine (ht.works c).trans ?_ (by rw [ht.clientFd])
    have hother : ∀ d, d ≠ c →
        ((t.setOutput c { t.output c with headP := r }).output d).headP = (t.output d).headP :=
      fun d hd => by rw [Server.setOutput_output, Function.update_of_ne hd]
    have hown : ((t.setOutput c { t.output c with headP := r }).output c).headP = r := by simp
    cases r with
    | none =>
      have hlog : ∃ evs, (epollCtlMod (t.setOutput c { t.output c with headP := none })
          (t.clientFd c) ⟨true, false⟩ mod).log =
            .epollCtl .mod (t.clientFd c) ⟨true, (none : Option ℕ).isSome⟩ mod :: (evs ++ t.log) ∧
          ∀ e ∈ evs, e.quiet = true := ⟨[], rfl, nofun⟩
      exact Works.mod rfl hother hown hlog
    | some i =>
      -- something was queued before, and still is
      have hbefore : (t.output c).headP.isSome = true := by
        rw [ht.headP]
        exact hsome rfl
      show Works c t (t.setOutput c { t.output c with headP := some i })
      refine ⟨fun d hd => ⟨rfl, hother d hd⟩, Or.inl rfl, id, fun _ _ => rfl, fun _ _ hw => ?_⟩
      unfold Watched at hw ⊢
      rw [hbefore] at hw
      rw [hown]
      exact hw
  · have hdown := clientPendingDisconnect_clientFd hends
    have hw := (ht.works c).trans (clientPendingDisconnect_works hends) (by rw [ht.clientFd])
    unfold processClientSocketOut
    rw [hr]
    generalize clientPendingDisconnect t c = u at hdown hw
    refine ⟨fun d hd => ⟨(hw.others d hd).1, ?_⟩, Or.inr hdown, hw.mods, hw.interests,
      fun _ hup => absurd hdown hup⟩
    rw [← (hw.others d hd).2]
    exact congrArg Output.headP (Function.update_of_ne hd _ _)

/-! ## Every step -/

/-- Working on one client keeps those watched that stay connected. -/
theorem Works.wakeUps (h : Works c s t) (hg : Good sz s v)
    (hc : c ∈ v.connected ∨ s.clientFd c = -1)
    (hsub : ∀ d ∈ connectedSlots t, d ∈ v.connected ∧ t.clientFd d ≠ -1) (hk : WakeUps s) :
    WakeUps t := by
  intro hm d hd
  obtain ⟨hcon, hup⟩ := hsub d hd
  have hw : Watched s d := hk (h.mods hm) d (hg.connectedSlots_eq ▸ hcon)
  by_cases hdc : d = c
  · subst hdc
    exact h.own hm hup hw
  · have hne : s.clientFd d ≠ s.clientFd c := by
      rcases hc with hc | hc
      · exact hg.clientFd_ne hc hcon hdc
      · exact hc ▸ hg.slots.connectedFd d hcon
    unfold Watched at hw ⊢
    rw [(h.others d hdc).1, (h.others d hdc).2, h.interests _ hne]
    exact hw

theorem Moved.connected_subset (h : Moved c v v') : ∀ d ∈ v'.connected, d ∈ v.connected := by
  cases h with
  | same => exact fun _ hd => hd
  | moved l₁ l₂ hl =>
    intro d hd
    rw [hl]
    simp only [List.mem_append, List.mem_cons] at hd ⊢
    tauto

theorem Moved.subset (h : Moved c v v') (hg : Good sz t v') :
    ∀ d ∈ connectedSlots t, d ∈ v.connected ∧ t.clientFd d ≠ -1 := by
  intro d hd
  rw [hg.connectedSlots_eq] at hd
  exact ⟨h.connected_subset d hd, hg.slots.connectedFd d hd⟩

theorem WakeUps.issueMessage {sz : ℕ} {s : Server} {v : View} {c : Slot} (m : Message)
    (e : WriteEnv)
    (hg : Good sz s v) (hb : v.busy = none) (hc : c ∈ v.connected ∨ c ∈ v.pending)
    (hk : WakeUps s) : WakeUps (issueMessage s c m e) := by
  obtain ⟨v', hmoved, hg'⟩ := issueMessage_good (m := m) (e := e) hg hb hc
  exact (issueMessage_works m e hg hc).wakeUps hg (hc.imp_right (hg.slots.pendingFd c))
    (hmoved.subset hg') hk

theorem WakeUps.carried (sz : ℕ) : Carried sz WakeUps where
  calm h hk := by
    intro hm c hc
    refine h.quiet.watched (hk (h.quiet.mods hm) c ?_)
    unfold connectedSlots at hc ⊢
    rwa [h.clients, h.clientsMax] at hc
  issue m e hg hb hc hk := hk.issueMessage m e hg hb hc
  pong e hg hb hc hk := hk.issueMessage _ e hg hb (Or.inl hc)
  disconnect {s v c} hg hc hk := by
    refine (clientPendingDisconnect_works (hg.ends c hc)).wakeUps hg (Or.inl hc) ?_ hk
    obtain ⟨l₁, l₂, hv⟩ := List.append_of_mem hc
    obtain ⟨evs, -, heq⟩ := clientPendingDisconnect_eq (hg.slots.connectedFd c hc) (hg.ends c hc)
    have hlists := hg.slots.lists
    rw [hv] at hlists
    have hlen := hg.length_le.1
    rw [hv, List.length_append, List.length_cons] at hlen
    have hslots : connectedSlots (clientPendingDisconnect s c) = l₁ ++ l₂ := by
      rw [heq]
      refine hlists.moveClientToPendingDisconnectList.connected.walk_eq ?_
      rw [List.length_append]
      show _ ≤ s.clientsMax
      omega
    intro d hd
    rw [hslots] at hd
    have hcon : d ∈ v.connected := by
      rw [hv]
      simp only [List.mem_append, List.mem_cons] at hd ⊢
      tauto
    refine ⟨hcon, ?_⟩
    have hne : d ≠ c := ne_of_mem_of_not_mem hd hlists.notMem_of_connected.1
    rw [heq]
    show Function.update s.clientFd c (-1) d ≠ -1
    rw [Function.update_of_ne hne]
    exact hg.slots.connectedFd d hcon
  drain {s v c} ws mod hg hb hc hk := by
    obtain ⟨v', hmoved, hg'⟩ := processClientSocketOut_good ws mod hg hb hc
    exact (processClientSocketOut_works ws mod (hg.ends c hc)).wakeUps hg (Or.inl hc)
      (hmoved.subset hg') hk
  accept {s v} e hg hk := by
    have hgood := acceptClient_good e hg
    have hlog := acceptClient_log (s := s) e fun fd hn hne => hg.log.interest_eq_none hne hn
    generalize acceptClient e s = r at hgood hlog
    obtain ⟨p, t⟩ := r
    cases p with
    | none =>
      obtain ⟨hg', hsame⟩ := hgood
      obtain ⟨evs, ht, hun⟩ := hlog
      intro hm d hd
      rw [hg'.connectedSlots_eq] at hd
      rw [ht] at hm
      have hw : Watched s d := hk hm.append d (hg.connectedSlots_eq ▸ hd)
      unfold Watched at hw ⊢
      rw [(hsame d hd).1, (hsame d hd).2, ht, hun.registrations]
      exact hw
    | some c =>
      obtain ⟨fl, hfree, hslot, hg'⟩ := hgood
      obtain ⟨hfd, htimer, ht⟩ := hlog
      intro hm d hd
      rw [hg'.connectedSlots_eq] at hd
      rw [ht] at hm
      rcases List.mem_cons.1 hd with rfl | hd
      · have hhead : (t.output d).headP = none := hslot.fresh.headP
        unfold Watched
        rw [ht, hhead]
        simp [interest]
      · have hw : Watched s d := hk hm.append d (hg.connectedSlots_eq ▸ hd)
        have hdc : d ≠ c := ne_of_mem_of_not_mem hd (hfree ▸ hg.slots.lists).notMem_of_free.1
        have hopen : s.clientFd d ∈ openFds s.log :=
          (hg.clientFd_open (Or.inl hd)).resolve_left (hg.slots.connectedFd d hd)
        have hne₁ : t.clientFd c ≠ s.clientFd d := fun he => hfd (he ▸ hopen)
        have hne₂ : t.keepAliveTimerFd c ≠ s.clientFd d := fun he =>
          htimer (List.mem_cons_of_mem _ (he ▸ hopen))
        unfold Watched at hw ⊢
        rw [hslot.others.clientFd d hdc, hslot.others.output d hdc, ht]
        simpa [interest, hne₁, hne₂] using hw
  notify {s v c} hg hp hc hk := by
    intro hm d hd
    have hcon : d ∈ v.connected := hg.connectedSlots_eq ▸ hd
    have hw : Watched s d := hk hm.cons.cons.cons d hd
    have hne : s.keepAliveTimerFd c ≠ s.clientFd d :=
      (hg.clientFd_ne_timer (by simp [hp]) hc hcon).symm
    unfold Watched at hw ⊢
    show interest (s.clientFd d) (.onClientDisconnected c :: .closed _ :: .epollCtl .del _ _ _ ::
      s.log) = some ⟨true, (s.output d).headP.isSome⟩
    rw [← hw]
    simp [interest, hne]
  free {s v c} hg hp hc hu hk := by
    obtain ⟨l₁, l₂, hv⟩ := List.append_of_mem hc
    have hg' := hg.freePendingDisconnectClient hp hv hu
    intro hm d hd
    rw [hg'.connectedSlots_eq] at hd
    exact hk hm.cons.cons d (hg.connectedSlots_eq ▸ hd)

/-! ## Every run -/

theorem serverStart_clients (s : Server) (e : StartEnv) :
    (serverStart s e).2.clients = s.clients := by
  unfold serverStart
  dsimp only
  split_ifs <;> rfl

/-- Between calls, and inside callbacks, every connected client is registered for `EPOLLIN`, and for
`EPOLLOUT` just if its queue is not empty, if no `EPOLL_CTL_MOD` has failed. -/
theorem wake_ups_kept {w : Server} {n messageSize : ℕ} {r : StartEnv} {b : Bool} (hn : 0 < n)
    (hs : started w n sz messageSize r = (0, t)) (depth : ℕ) (calls : List Call)
    (hu : b = true → ¬ BadUnlink (run ⟨false, b⟩ depth calls t).state.log) :
    WakeUps (run ⟨false, b⟩ depth calls t).state := by
  obtain ⟨hfine, -⟩ := started_fine (b := b) hn hs
  have hnone : connectedSlots t = [] := by
    have hclients := serverStart_clients (serverInit w n sz messageSize) r
    unfold started at hs
    rw [hs] at hclients
    unfold connectedSlots
    rw [hclients]
    exact (show Links _ _ [] from rfl).walk_eq (Nat.zero_le _)
  have hstart : Sound b WakeUps t := Or.inr fun _ c hc => by
    rw [hnone] at hc
    cases hc
  have hrun := ((WakeUps.carried sz).run ⟨false, b⟩ rfl depth calls hfine hstart).state
    fun _ _ h => h
  exact hrun.resolve_left fun hbad => hu hbad.1 hbad.2

/-- A message is written in part and queued, and then all of it is drained. -/
def drainedCalls : List Call :=
  [connect 5 6, .send 0 (fun _ => some [20, 21, 22]) (writes [.accepted 2, .eagain]),
    .process 5 ⟨false, true⟩ { nothing with writes := [.accepted 5] }]

theorem wake_ups_kept_drainedCalls :
    WakeUps (run ⟨false, false⟩ 0 drainedCalls (server 1 16)).state :=
  wake_ups_kept (n := 1) (w := memory) (r := start) (b := false)
    (by decide) rfl 0 drainedCalls nofun

end

end Messi.LinuxServer
