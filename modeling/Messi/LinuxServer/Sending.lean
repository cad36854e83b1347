import Messi.LinuxServer.Api
import Messi.LinuxServer.Connections

/-!
# Sending

The two writers of a connection's stream. The direct one, `client_write()`, is taken apart by
`drain`, which says of the answers of `write()` alone how much of a buffer they accept and why the
loop ends (`writeLoop_eq`). The other one, `process_client_socket_out()`, drains the queue
(`socketOutLoop_good`). Both keep the invariant, and disconnect the client at most.
-/

namespace Messi.LinuxServer

open Framing PointerList

/-! ## The output queue -/

/-- The queue with a new last item. -/
def Output.append (o : Output) (buf : List UInt8) : Output :=
  let item := o.brk
  let o := { o with brk := o.brk + 1 }
  let o := o.setItem item { offset := 0, size := buf.length, nextP := none, data := buf }
  match o.headP with
  | none => { o with headP := some item, tailP := some item }
  | some _ =>
    match o.tailP with
    | some t => { o.setItem t { o.items t with nextP := some item } with tailP := some item }
    | none => { o with tailP := some item }

/-- The bytes of the output queue, from `head_p` on. -/
def queued (o : Output) : List UInt8 :=
  itemsBytes o (walk (fun i => (o.items i).nextP) o.brk o.headP)

section

variable {o : Output} {q : List ℕ} {i : ℕ}

theorem Queue.nodup (h : Queue o q) : q.Nodup := h.links.nodup

theorem Queue.length_le (h : Queue o q) : q.length ≤ o.brk := by
  have hsub : q.Subset (List.range o.brk) := fun i hi => List.mem_range.2 (h.bound i hi)
  simpa using (h.nodup.subperm hsub).length_le

theorem Queue.ends (h : Queue o q) : QueueEnds o := ⟨q, h.links, h.length_le⟩

theorem Queue.queued_eq (h : Queue o q) : queued o = itemsBytes o q := by
  unfold queued
  rw [h.links.walk_eq h.length_le]

theorem Queue.eq_nil (h : Queue o q) (ho : o.headP = none) : q = [] :=
  h.links.unique (show Links _ _ [] from ho)

theorem QueueEnds.setItem (h : QueueEnds o) {item : OutputItem}
    (hn : item.nextP = (o.items i).nextP) : QueueEnds (o.setItem i item) := by
  obtain ⟨q, hq, hlen⟩ := h
  refine ⟨q, hq.congr fun j _ => ?_, hlen⟩
  by_cases hj : j = i
  · subst hj
    simp [hn]
  · simp [Function.update_of_ne hj]

theorem Queue.append (h : Queue o q) (buf : List UInt8) :
    Queue (o.append buf) (q ++ [o.brk]) ∧
      itemsBytes (o.append buf) (q ++ [o.brk]) = itemsBytes o q ++ buf := by
  have hnew : o.brk ∉ q := fun hm => Nat.lt_irrefl _ (h.bound _ hm)
  have hne : ∀ i ∈ q, i ≠ o.brk := fun i hi => ne_of_mem_of_not_mem hi hnew
  unfold Output.append
  rcases List.eq_nil_or_concat q with rfl | ⟨q, t, rfl⟩
  · have hhead : o.headP = none := h.links
    simp only [Output.setItem_headP, hhead, List.nil_append]
    refine ⟨⟨?_, ?_, ?_⟩, ?_⟩
    · simp
    · simp
    · simp
    · simp [itemsBytes, OutputItem.bytes]
  · rw [List.concat_eq_append] at h hnew hne ⊢
    have htail : o.tailP = some t := by simpa using h.tail (by simp)
    have htb : t ≠ o.brk := hne t (by simp)
    have hhead : ∃ i, o.headP = some i := by
      have := h.links.head
      cases q <;> exact ⟨_, this⟩
    obtain ⟨p, hhead⟩ := hhead
    simp only [Output.setItem_headP, Output.setItem_tailP, hhead, htail]
    have hkeep : ∀ i ∈ q ++ [t], Function.update o.items o.brk
        { offset := 0, size := buf.length, nextP := none, data := buf } i = o.items i :=
      fun i hi => Function.update_of_ne (hne i hi) _ _
    refine ⟨⟨?_, ?_, ?_⟩, ?_⟩
    · -- the new item becomes the successor of the tail
      have h₁ : Links (fun i => (Function.update o.items o.brk
          { offset := 0, size := buf.length, nextP := none, data := buf } i).nextP)
          (some p) (q ++ [t]) :=
        (hhead ▸ h.links).congr fun i hi => by rw [hkeep i hi]
      have h₂ := h₁.snoc (a := o.brk) hnew (by rw [Function.update_self])
      rw [List.append_assoc]
      refine h₂.congr fun i _ => ?_
      by_cases hit : i = t
      · subst hit
        simp
      · simp [Function.update_of_ne hit]
    · intro i hi
      simp only [List.append_assoc, List.mem_append, List.mem_singleton] at hi
      rcases hi with hi | rfl | rfl
      · exact Nat.lt_succ_of_lt (h.bound i (by simp [hi]))
      · exact Nat.lt_succ_of_lt (h.bound i (by simp))
      · exact Nat.lt_succ_self _
    · simp
    · unfold itemsBytes
      rw [List.flatMap_append, List.flatMap_singleton]
      congr 1
      · refine List.flatMap_congr fun i hi => ?_
        by_cases hit : i = t
        · subst hit
          simp [OutputItem.bytes, hkeep i hi]
        · simp [Function.update_of_ne hit, hkeep i hi]
      · simp [Function.update_of_ne htb.symm, OutputItem.bytes]

end

section

variable {sz : ℕ} {s s' : Server} {v : View} {c d : Slot} {buf : List UInt8} {e : WriteEnv}

theorem clientOutputAppend_of_malloc (hm : e.malloc = true)
    (hfd : s.clientFd c = -1 ∨ s.clientFd c ∈ openFds s.log) (hok : LogOk sz s.log) :
    ∃ l, SameLog s.log l ∧ LogOk sz l ∧ clientOutputAppend s c buf e =
      { s with output := Function.update s.output c ((s.output c).append buf), log := l } := by
  have hmalloc : SameLog s.log (.malloc c (some (s.output c).brk) :: s.log) :=
    (SameLog.refl _).cons ⟨rfl, rfl, rfl, rfl⟩
  have hokm : LogOk sz (.malloc c (some (s.output c).brk) :: s.log) := ⟨trivial, hok⟩
  unfold clientOutputAppend Output.append
  simp only [hm, Bool.not_true, Bool.false_eq_true, if_false, Output.setItem_headP,
    Output.setItem_tailP]
  cases hh : (s.output c).headP with
  | none =>
    refine ⟨.epollCtl .mod (s.clientFd c) ⟨true, true⟩ e.mod ::
      .malloc c (some (s.output c).brk) :: s.log, hmalloc.cons ⟨rfl, rfl, rfl, rfl⟩, ⟨hfd, hokm⟩,
        ?_⟩
    rfl
  | some p =>
    cases ht : (s.output c).tailP with
    | none => exact ⟨_, hmalloc, hokm, rfl⟩
    | some t =>
      exact ⟨.itemUse c t :: .malloc c (some (s.output c).brk) :: s.log,
        hmalloc.cons ⟨rfl, rfl, rfl, rfl⟩, ⟨trivial, hokm⟩, rfl⟩

theorem clientOutputAppend_spec (buf : List UInt8) (hm : e.malloc = true)
    (hfd : s.clientFd c = -1 ∨ s.clientFd c ∈ openFds s.log) (hok : LogOk sz s.log) :
    SameSlots s (clientOutputAppend s c buf e) ∧
      (∀ d, SameInput d s (clientOutputAppend s c buf e)) ∧
      (∀ d, d ≠ c → SameOutput d s (clientOutputAppend s c buf e)) ∧
      (clientOutputAppend s c buf e).output c = (s.output c).append buf ∧
      SameLog s.log (clientOutputAppend s c buf e).log ∧
      LogOk sz (clientOutputAppend s c buf e).log := by
  obtain ⟨l, hl, hok, he⟩ := clientOutputAppend_of_malloc hm hfd hok
  rw [he]
  exact ⟨⟨rfl, rfl, rfl, rfl, rfl, rfl, hl.phase⟩,
    fun d => ⟨rfl, rfl, hl.received d, hl.handled d, hl.ended d⟩,
    fun d hd => ⟨Function.update_of_ne hd _ _, hl.accepted d, hl.issued d, hl.mallocOk d⟩,
    Function.update_self _ _ _, hl, hok⟩

/-! ## The direct writer -/

/-- Why the loop of `client_write()` ends. -/
inductive WriteEnd where
  | done
  | blocked (rest : List UInt8)
  | failed

/-- What a sequence of `write()` calls accepts of a buffer, call by call, and why it ends. -/
def drain : List WriteRes → List UInt8 → List (List UInt8) × WriteEnd
  | [], bs => if 0 < bs.length then ([[]], .blocked bs) else ([], .done)
  | w :: ws, bs =>
    if 0 < bs.length then
      match w with
      | .accepted n =>
        let k := min n bs.length
        if k = bs.length then ([bs.take k], .done)
        else if 0 < k then
          let r := drain ws (bs.drop k)
          (bs.take k :: r.1, r.2)
        else ([bs.take k], .failed)
      | .eagain => ([[]], .blocked bs)
      | .error => ([[]], .failed)
    else ([], .done)

/-- The buffer is accepted but for what is left. -/
theorem drain_spec (ws : List WriteRes) (bs : List UInt8) :
    match (drain ws bs).2 with
    | .done => (drain ws bs).1.flatten = bs
    | .blocked rest => (drain ws bs).1.flatten ++ rest = bs ∧ rest ≠ []
    | .failed => (drain ws bs).1.flatten <+: bs := by
  induction ws generalizing bs with
  | nil =>
    unfold drain
    by_cases hb : 0 < bs.length
    · rw [if_pos hb]
      exact ⟨rfl, List.ne_nil_of_length_pos hb⟩
    · rw [if_neg hb]
      exact (List.eq_nil_of_length_eq_zero (by omega)).symm
  | cons w ws ih =>
    unfold drain
    by_cases hb : 0 < bs.length
    · rw [if_pos hb]
      cases w with
      | accepted n =>
        dsimp only
        by_cases hk : min n bs.length = bs.length
        · rw [if_pos hk]
          simp [hk]
        · rw [if_neg hk]
          by_cases hpos : 0 < min n bs.length
          · rw [if_pos hpos]
            have h := ih (bs.drop (min n bs.length))
            dsimp only
            cases hr : (drain ws (bs.drop (min n bs.length))).2 with
            | done =>
              rw [hr] at h
              show (_ :: _).flatten = bs
              rw [List.flatten_cons, show (drain ws _).1.flatten = _ from h, List.take_append_drop]
            | blocked rest =>
              rw [hr] at h
              refine ⟨?_, h.2⟩
              rw [List.flatten_cons, List.append_assoc, h.1, List.take_append_drop]
            | failed =>
              rw [hr] at h
              show (_ :: _).flatten <+: bs
              rw [List.flatten_cons]
              conv_rhs => rw [← List.take_append_drop (min n bs.length) bs]
              exact (List.prefix_append_right_inj _).2 h
          · rw [if_neg hpos]
            show (_ :: _).flatten <+: bs
            simpa using List.take_prefix _ bs
      | eagain => exact ⟨rfl, List.ne_nil_of_length_pos hb⟩
      | error => exact List.nil_prefix
    · rw [if_neg hb]
      exact (List.eq_nil_of_length_eq_zero (by omega)).symm

/-- The state after the `write()` calls that accepted these bytes. -/
def Server.wrote (s : Server) (c : Slot) (chunks : List (List UInt8)) : Server :=
  chunks.foldl (fun s bs => s.emit (.write c (s.clientFd c) bs)) s

theorem Server.wrote_cons (bs : List UInt8) (chunks : List (List UInt8)) :
    s.wrote c (bs :: chunks) = (s.emit (.write c (s.clientFd c) bs)).wrote c chunks := rfl

theorem writeLoop_eq (hfd : s.clientFd c ≠ -1) {ws : List WriteRes} {offset size : ℕ}
    (hsize : size = (buf.drop offset).length) :
    writeLoop c buf e ws offset size s =
      match (drain ws (buf.drop offset)).2 with
      | .done => s.wrote c (drain ws (buf.drop offset)).1
      | .blocked rest => clientOutputAppend (s.wrote c (drain ws (buf.drop offset)).1) c rest e
      | .failed => clientPendingDisconnect (s.wrote c (drain ws (buf.drop offset)).1) c := by
  induction ws generalizing offset size s with
  | nil =>
    unfold writeLoop drain
    rw [← hsize]
    by_cases hs : 0 < size
    · rw [if_pos hs, if_pos hs]
      unfold sysWrite
      rw [if_neg hfd]
      rfl
    · rw [if_neg hs, if_neg hs]
      rfl
  | cons w ws ih =>
    unfold writeLoop drain
    rw [← hsize]
    by_cases hs : 0 < size
    · rw [if_pos hs, if_pos hs]
      unfold sysWrite
      rw [if_neg hfd]
      cases w with
      | accepted n =>
        dsimp only
        by_cases hk : min n size = size
        · rw [if_pos hk, if_pos hk]
          rfl
        · rw [if_neg hk, if_neg hk]
          by_cases hpos : 0 < min n size
          · rw [if_pos hpos, if_pos hpos]
            have hdrop : (buf.drop offset).drop (min n size) = buf.drop (offset + min n size) :=
              List.drop_drop
            have hlen : size - min n size = (buf.drop (offset + min n size)).length := by
              rw [List.length_drop] at hsize ⊢
              omega
            rw [ih (s := s.emit (.write c (s.clientFd c) ((buf.drop offset).take (min n size))))
              hfd hlen, hdrop]
            rfl
          · rw [if_neg hpos, if_neg hpos]
            rfl
      | eagain => rfl
      | error => rfl
    · rw [if_neg hs, if_neg hs]
      rfl

/-- The state after the `write()` calls differs in the log, and there in what was accepted. -/
theorem wrote_spec (s : Server) (c : Slot) (chunks : List (List UInt8)) :
    SameSlots s (s.wrote c chunks) ∧ (∀ d, SameInput d s (s.wrote c chunks)) ∧
      (∀ d, d ≠ c → SameOutput d s (s.wrote c chunks)) ∧
      (s.wrote c chunks).output = s.output ∧
      openFds (s.wrote c chunks).log = openFds s.log ∧
      accepted c (s.wrote c chunks).log = accepted c s.log ++ chunks.flatten ∧
      issued c (s.wrote c chunks).log = issued c s.log ∧
      mallocOk c (s.wrote c chunks).log = mallocOk c s.log := by
  induction chunks generalizing s with
  | nil =>
    exact ⟨SameSlots.refl s, fun d => SameInput.refl d s, fun d _ => SameOutput.refl d s, rfl, rfl,
      (List.append_nil _).symm, rfl, rfl⟩
  | cons bs chunks ih =>
    rw [Server.wrote_cons]
    obtain ⟨hs, hin, hout, ho, hf, ha, hi, hm⟩ := ih (s.emit (.write c (s.clientFd c) bs))
    refine ⟨(SameSlots.emit s rfl).trans hs,
      fun d => (SameInput.emit s (by simp [Event.input?])).trans (hin d),
      fun d hd => (SameOutput.emit s ?_).trans (hout d hd), ho, hf, ?_, hi, hm⟩
    · simp [Event.output?, Ne.symm hd]
    · rw [ha]
      simp [accepted]

theorem LogOk.wrote (h : LogOk sz s.log) (hfd : s.clientFd c = -1 ∨ s.clientFd c ∈ openFds s.log)
    (chunks : List (List UInt8)) : LogOk sz (s.wrote c chunks).log := by
  induction chunks generalizing s with
  | nil => exact h
  | cons bs chunks ih => exact ih ⟨hfd, h⟩ hfd

/-! ## Working on one client -/

/-- What may happen to the lists while `c` is worked on. -/
inductive Moved (c : Slot) (v : View) : View → Prop
  | same : Moved c v v
  | moved (l₁ l₂ : List Slot) (h : v.connected = l₁ ++ c :: l₂) :
    Moved c v { v with connected := l₁ ++ l₂, pending := c :: v.pending, busy := none }

/-- To work on a client. -/
theorem Good.work (h : Good sz s v) (hb : v.busy = none) (c : Slot) :
    Good sz s { v with busy := some c } where
  slots := ⟨h.slots.lists, h.slots.all, h.slots.connectedFd, h.slots.pendingFd,
    h.slots.connectedPhase, h.slots.pendingPhase, h.slots.freePhase, h.slots.current,
    h.slots.currentPlace, h.slots.message, h.slots.disconnected⟩
  fds := h.fds
  log := h.log
  buffers := h.buffers
  ends := h.ends
  notEnded := h.notEnded
  sent := h.sent
  output d hd _ := h.output d hd (by simp [hb])
  reception hsz :=
    have hr := h.reception hsz
    ⟨fun d hd _ => hr.waiting d hd (by simp [hb]), fun d _ => hr.received d (by simp [hb]),
      hr.message⟩

/-- To have worked on a client, whose streams are in order again. -/
theorem Good.finish (h : Good sz s { v with busy := some c })
    (hout : c ∈ v.connected → OutputOk s c)
    (hw : headerSize ≤ sz → c ∈ v.connected → v.place ≠ .message c → Waiting sz s c)
    (hrec : headerSize ≤ sz → Received sz s c) : Good sz s v where
  slots := ⟨h.slots.lists, h.slots.all, h.slots.connectedFd, h.slots.pendingFd,
    h.slots.connectedPhase, h.slots.pendingPhase, h.slots.freePhase, h.slots.current,
    h.slots.currentPlace, h.slots.message, h.slots.disconnected⟩
  fds := h.fds
  log := h.log
  buffers := h.buffers
  ends := h.ends
  notEnded := h.notEnded
  sent := h.sent
  output d hd _ := by
    by_cases hdc : c = d
    · exact hdc ▸ hout (hdc ▸ hd)
    · exact h.output d hd (by simp [hdc])
  reception hsz := by
    have hr := h.reception hsz
    refine ⟨fun d hd _ hp => ?_, fun d _ => ?_, hr.message⟩
    · by_cases hdc : c = d
      · exact hdc ▸ hw hsz (hdc ▸ hd) (hdc ▸ hp)
      · exact hr.waiting d hd (by simp [hdc]) hp
    · by_cases hdc : c = d
      · exact hdc ▸ hrec hsz
      · exact hr.received d (by simp [hdc])

/-- To have worked on a client, whose input has been left alone. -/
theorem Good.worked (h₀ : Good sz s v) (hb : v.busy = none)
    (h : Good sz s' { v with busy := some c }) (hin : SameInput c s s')
    (hout : c ∈ v.connected → OutputOk s' c) : Good sz s' v :=
  h.finish hout
    (fun hsz hc hp => ((h₀.reception hsz).waiting c hc (by simp [hb]) hp).congr hin)
    fun hsz => ((h₀.reception hsz).received c (by simp [hb])).congr hin.handled hin.received

theorem Good.mem_range (h : Good sz s v) (hc : c ∈ v.connected ∨ c ∈ v.pending) :
    c < s.clientsMax := by
  refine List.mem_range.1 (h.slots.all.mem_iff.1 ?_)
  simp only [List.mem_append]
  tauto

/-- The client's descriptor is open, or there is none. -/
theorem Good.clientFd_open (h : Good sz s v) (hc : c ∈ v.connected ∨ c ∈ v.pending) :
    s.clientFd c = -1 ∨ s.clientFd c ∈ openFds s.log := by
  rcases hc with hc | hc
  · refine Or.inr (h.fds.mem_iff.2 ?_)
    have : s.clientFd c ∈ v.connected.flatMap (connectedFds s) :=
      List.mem_flatMap.2 ⟨c, hc, List.mem_cons_self⟩
    unfold View.owned
    simp [this]
  · exact Or.inl (h.slots.pendingFd c hc)

theorem Good.timer_open (h : Good sz s v) (hc : c ∈ v.connected) :
    s.keepAliveTimerFd c ∈ openFds s.log := by
  refine h.fds.mem_iff.2 ?_
  have : s.keepAliveTimerFd c ∈ v.connected.flatMap (connectedFds s) :=
    List.mem_flatMap.2 ⟨c, hc, by simp [connectedFds]⟩
  unfold View.owned
  simp [this]

/-- Only the output of the client that is worked on changes, and the log. -/
theorem Good.workOutput (h : Good sz s v) (hb : v.busy = some c) (hs : SameSlots s s')
    (hopen : openFds s'.log = openFds s.log) (hin : ∀ d, SameInput d s s')
    (hout : ∀ d, d ≠ c → SameOutput d s s') (hends : c ∈ v.connected → QueueEnds (s'.output c))
    (hsent : Sent s' c) (hok : LogOk sz s'.log) : Good sz s' v := by
  refine h.of_same hs hopen (fun _ d _ _ => hin d) (fun d _ => (hin d).ended)
    (fun d _ => (hin d).handled) (fun d _ => (hin d).received)
    (fun d => by rw [(hin d).input]; exact ⟨rfl, rfl⟩)
    (fun d hd => hout d fun he => hd (he ▸ hb)) (fun d hd hbd => ?_) (fun d hbd => ?_) hok
  · obtain rfl : c = d := Option.some.inj (hb.symm.trans hbd)
    exact hends hd
  · obtain rfl : c = d := Option.some.inj (hb.symm.trans hbd)
    exact hsent

/-- Appending what is owed to the queue, or not being able to. -/
theorem Good.clientOutputAppend (h : Good sz s v) (hb : v.busy = some c)
    (hc : c ∈ v.connected ∨ c ∈ v.pending)
    (hq : c ∈ v.connected → ∃ q, Queue (s.output c) q ∧ Owes s c q buf) :
    Good sz (clientOutputAppend s c buf e) v ∧
      (∀ d, SameInput d s (clientOutputAppend s c buf e)) ∧
      (c ∈ v.connected → OutputOk (clientOutputAppend s c buf e) c) := by
  have hfd := h.clientFd_open hc
  cases hm : e.malloc with
  | false =>
    have he : LinuxServer.clientOutputAppend s c buf e = s.emit (.malloc c none) := by
      unfold LinuxServer.clientOutputAppend
      simp [hm]
    have hfalse : ¬ mallocOk c (s.emit (.malloc c none)).log := fun hok => hok.1 rfl
    rw [he]
    have hin : ∀ d, SameInput d s (s.emit (.malloc c none)) := fun d =>
      SameInput.emit s (by simp [Event.input?])
    refine ⟨h.workOutput hb (SameSlots.emit s rfl) rfl hin (fun d hd => SameOutput.emit s ?_)
      (h.ends c) (fun hok => absurd hok hfalse) ⟨trivial, h.log⟩, hin, fun hmem => ?_⟩
    · simp [Event.output?, Ne.symm hd]
    · obtain ⟨q, hq, -⟩ := hq hmem
      exact ⟨q, hq, fun hok => absurd hok hfalse⟩
  | true =>
    obtain ⟨hs, hin, hout, ho, hl, hok⟩ :=
      clientOutputAppend_spec (c := c) (e := e) buf hm hfd h.log
    refine ⟨h.workOutput hb hs hl.openFds hin hout (fun hmem => ?_)
      ((h.sent c).congr (hl.accepted c) (hl.issued c) (hl.mallocOk c)) hok, hin, fun hmem => ?_⟩
    · obtain ⟨q, hq, -⟩ := hq hmem
      rw [ho]
      exact (hq.append _).1.ends
    · obtain ⟨q, hq, howes⟩ := hq hmem
      refine ⟨q ++ [(s.output c).brk], ?_, fun hmalloc => ?_⟩
      · rw [ho]
        exact (hq.append _).1
      · rw [ho, (hq.append _).2, List.append_nil, hl.accepted, hl.issued]
        exact howes (hl.mallocOk c ▸ hmalloc)

/-- After some `write()` calls on an empty queue, less is owed. -/
theorem Good.wrote (h : Good sz s v) (hb : v.busy = some c) (hc : c ∈ v.connected)
    (hq : Queue (s.output c) []) (howes : Owes s c [] buf) {chunks : List (List UInt8)}
    {rest : List UInt8} (hchunks : chunks.flatten ++ rest = buf) :
    Good sz (s.wrote c chunks) v ∧ Queue ((s.wrote c chunks).output c) [] ∧
      Owes (s.wrote c chunks) c [] rest := by
  obtain ⟨hs, hin, hout, ho, hf, ha, hi, hm⟩ := wrote_spec s c chunks
  have howes' : Owes (s.wrote c chunks) c [] rest := fun hok => by
    rw [ha, hi, ← howes (hm ▸ hok), ← hchunks]
    simp [itemsBytes]
  refine ⟨h.workOutput hb hs hf hin hout (fun _ => ho ▸ h.ends c hc) (fun hok => ?_)
    (h.log.wrote (h.clientFd_open (Or.inl hc)) chunks), ho ▸ hq, howes'⟩
  rw [← howes' hok]
  exact List.prefix_append _ _

/-- A write to a pending client fails. -/
theorem writeLoop_of_pending (hfd : s.clientFd c = -1) (hbuf : buf ≠ []) (ws : List WriteRes) :
    writeLoop c buf e ws 0 buf.length s = s.emit (.write c (s.clientFd c) []) := by
  have hpos : 0 < buf.length := List.length_pos_iff.2 hbuf
  have hstop : clientPendingDisconnect (s.emit (.write c (s.clientFd c) [])) c =
      s.emit (.write c (s.clientFd c) []) := clientPendingDisconnect_of_pending hfd
  cases ws <;>
  · unfold writeLoop sysWrite
    rw [if_pos hpos, if_pos hfd]
    exact hstop

/-- A message is written to a client, or queued, or the client is disconnected. -/
theorem issueMessage_good {m : Message} (h : Good sz s v) (hb : v.busy = none)
    (hc : c ∈ v.connected ∨ c ∈ v.pending) :
    ∃ v', Moved c v v' ∧ Good sz (issueMessage s c m e) v' := by
  let vb : View := { v with busy := some c }
  have hframe : Good sz (s.emit (.frame c m)) vb := by
    refine (h.work hb c).workOutput rfl (SameSlots.emit s rfl) rfl
      (fun d => SameInput.emit s (by simp [Event.input?]))
      (fun d hd => SameOutput.emit s (by simp [Event.output?, Ne.symm hd])) (h.ends c)
      (fun hok => ?_) ⟨trivial, h.log⟩
    have hissued : issued c (s.emit (.frame c m)).log = issued c s.log ++ [m] := by simp [issued]
    rw [hissued, List.flatMap_append]
    exact (h.sent c hok).trans (List.prefix_append _ _)
  have hin₁ : SameInput c s (s.emit (.frame c m)) := SameInput.emit s (by simp [Event.input?])
  have howes : c ∈ v.connected → ∃ q, Queue ((s.emit (.frame c m)).output c) q ∧
      Owes (s.emit (.frame c m)) c q (frameBytes m) := fun hmem => by
    obtain ⟨q, hq, ho⟩ := h.output c hmem (by simp [hb])
    refine ⟨q, hq, fun hok => ?_⟩
    have hissued : issued c (s.emit (.frame c m)).log = issued c s.log ++ [m] := by simp [issued]
    rw [hissued, List.flatMap_append, ← ho hok]
    simp [accepted]
  have hrec : ∀ t, SameInput c s t → headerSize ≤ sz → Received sz t c := fun t hin hsz =>
    ((h.reception hsz).received c (by simp [hb])).congr hin.handled hin.received
  unfold issueMessage clientWrite
  generalize s.emit (.frame c m) = s₁ at hframe hin₁ howes
  by_cases hhead : (s₁.output c).headP ≠ none
  · rw [if_pos hhead]
    obtain ⟨hg, hin, hout⟩ := hframe.clientOutputAppend (e := e) rfl hc howes
    exact ⟨v, .same, h.worked hb hg (hin₁.trans (hin c)) hout⟩
  rw [if_neg hhead]
  rw [ne_eq, not_not] at hhead
  rcases hc with hc | hc
  · obtain ⟨q, hq, ho⟩ := howes hc
    obtain rfl := hq.eq_nil hhead
    have hspec := drain_spec e.writes (frameBytes m)
    rw [writeLoop_eq (hframe.slots.connectedFd c hc) (by simp), List.drop_zero]
    cases hend : (drain e.writes (frameBytes m)).2 with
    | done =>
      rw [hend] at hspec
      obtain ⟨hg, hq', ho'⟩ := hframe.wrote rfl hc hq ho ((List.append_nil _).trans hspec)
      exact ⟨v, .same, h.worked hb hg (hin₁.trans ((wrote_spec s₁ c _).2.1 c))
        fun _ => ⟨[], hq', ho'⟩⟩
    | blocked rest =>
      rw [hend] at hspec
      obtain ⟨hg, hq', ho'⟩ := hframe.wrote rfl hc hq ho hspec.1
      obtain ⟨hg', hin, hout⟩ := hg.clientOutputAppend (e := e) rfl (Or.inl hc)
        fun _ => ⟨[], hq', ho'⟩
      exact ⟨v, .same, h.worked hb hg'
        ((hin₁.trans ((wrote_spec s₁ c _).2.1 c)).trans (hin c)) hout⟩
    | failed =>
      rw [hend] at hspec
      obtain ⟨rest, hrest⟩ := hspec
      obtain ⟨hg, -, -⟩ := hframe.wrote rfl hc hq ho hrest
      obtain ⟨l₁, l₂, hl⟩ := List.append_of_mem hc
      exact ⟨_, .moved l₁ l₂ hl, hg.clientPendingDisconnect hl (Or.inr rfl)
        (hrec _ (hin₁.trans ((wrote_spec s₁ c _).2.1 c)))⟩
  · rw [writeLoop_of_pending (hframe.slots.pendingFd c hc) (frameBytes_ne_nil m)]
    have hnot : c ∉ v.connected := fun hm => h.slots.connectedFd c hm (h.slots.pendingFd c hc)
    have hin₂ : ∀ d, SameInput d s₁ (s₁.emit (.write c (s₁.clientFd c) [])) := fun d =>
      SameInput.emit s₁ (by simp [Event.input?])
    have hg := hframe.workOutput rfl (SameSlots.emit s₁ rfl) rfl hin₂
      (fun d hd => SameOutput.emit s₁ (by simp [Event.output?, Ne.symm hd]))
      (fun hm => absurd hm hnot) (fun hok => by simpa [accepted, issued] using hframe.sent c hok)
      ⟨hframe.clientFd_open (Or.inr hc), hframe.log⟩
    exact ⟨v, .same, h.worked hb hg (hin₁.trans (hin₂ c)) fun hm => absurd hm hnot⟩

/-! ## The queue's writer -/

/-- The part of the queue from `p` on is left, and owed. -/
structure Left (s : Server) (c : Slot) (p : Option ℕ) (q : List ℕ) : Prop where
  queue : Queue { s.output c with headP := p } q
  owes : Owes s c q []

theorem bytes_advance (item : OutputItem) {n : ℕ} (hn : n ≤ item.size) :
    item.bytes = (item.data.drop item.offset).take n ++
      OutputItem.bytes { item with offset := item.offset + n, size := item.size - n } := by
  unfold OutputItem.bytes
  rw [← List.drop_drop, ← List.take_append_drop n ((item.data.drop item.offset).take item.size),
    List.take_take, Nat.min_eq_left hn, List.drop_take]

/-- A `write()` from the first item that is left. -/
theorem Left.write {i : ℕ} {q : List ℕ} (h : Left s c (some i) (i :: q)) (hg : Good sz s v)
    (hb : v.busy = some c) (hc : c ∈ v.connected) {n : ℕ}
    (hn : n ≤ ((s.output c).items i).size) :
    let item := (s.output c).items i
    let s' := (s.emit (.itemUse c i)).emit
      (.write c (s.clientFd c) ((item.data.drop item.offset).take n))
    Good sz s' v ∧ (mallocOk c s'.log → accepted c s'.log ++
      (OutputItem.bytes { item with offset := item.offset + n, size := item.size - n } ++
        itemsBytes (s.output c) q) = (issued c s'.log).flatMap frameBytes) := by
  intro item s'
  have howes : mallocOk c s'.log → accepted c s'.log ++
      (OutputItem.bytes { item with offset := item.offset + n, size := item.size - n } ++
        itemsBytes (s.output c) q) = (issued c s'.log).flatMap frameBytes := fun hok => by
    have := h.owes hok
    unfold itemsBytes at this
    rw [List.flatMap_cons, bytes_advance _ hn] at this
    show _ = (issued c s.log).flatMap frameBytes
    rw [← this]
    simp [s', accepted, item, itemsBytes]
  refine ⟨?_, howes⟩
  have huse : Good sz (s.emit (.itemUse c i)) v := hg.emit ⟨rfl, rfl, rfl, rfl⟩ trivial
  refine huse.workOutput hb (SameSlots.emit _ rfl) rfl
    (fun d => SameInput.emit _ (by simp [Event.input?]))
    (fun d hd => SameOutput.emit _ (by simp [Event.output?, Ne.symm hd])) (huse.ends c)
    (fun hok => ?_) ⟨hg.clientFd_open (Or.inl hc), huse.log⟩
  rw [← howes hok]
  exact List.prefix_append _ _

/-- The first item that is left has been written. -/
theorem Left.next {i : ℕ} {q : List ℕ} (h : Left s c (some i) (i :: q)) {l : List Event}
    (ho : s'.output = s.output) (hl : s'.log = l)
    (howes : mallocOk c l → accepted c l ++ itemsBytes (s.output c) q =
      (issued c l).flatMap frameBytes) :
    Left s' c ((s.output c).items i).nextP q where
  queue := by
    rw [ho]
    refine ⟨h.queue.links.2, fun j hj => h.queue.bound j (List.mem_cons_of_mem i hj), fun hq => ?_⟩
    have := h.queue.tail (List.cons_ne_nil i q)
    rwa [List.getLast?_cons_of_ne_nil hq] at this
  owes := fun hok => by
    rw [hl, List.append_nil, ho]
    exact howes (hl ▸ hok)

/-- The first item that is left has been written in part. -/
theorem Left.advance {i k : ℕ} {q : List ℕ} (h : Left s c (some i) (i :: q))
    (ho : s'.output = s.output) {item : OutputItem} (hitem : item = { (s.output c).items i with
      offset := ((s.output c).items i).offset + k, size := ((s.output c).items i).size - k })
    (howes : mallocOk c s'.log → accepted c s'.log ++
      (item.bytes ++ itemsBytes (s.output c) q) = (issued c s'.log).flatMap frameBytes) :
    Left (s'.setOutput c ((s'.output c).setItem i item)) c (some i) (i :: q) := by
  have hi : i ∉ q := (List.nodup_cons.1 h.queue.nodup).1
  have hout : (s'.setOutput c ((s'.output c).setItem i item)).output c =
      (s.output c).setItem i item := by
    rw [← ho]
    exact Function.update_self _ _ _
  refine ⟨?_, fun hok => ?_⟩
  · rw [hout]
    refine ⟨h.queue.links.congr fun j _ => ?_, h.queue.bound, h.queue.tail⟩
    by_cases hj : j = i
    · subst hj
      simp [hitem]
    · simp [Function.update_of_ne hj]
  · rw [hout, List.append_nil]
    refine Eq.trans ?_ (howes hok)
    unfold itemsBytes
    rw [List.flatMap_cons]
    congr 2
    · simp
    · refine List.flatMap_congr fun j hj => ?_
      simp [Function.update_of_ne (ne_of_mem_of_not_mem hj hi)]

/-- The loop writes what is left of the queue as far as it can, or disconnects the client. -/
theorem socketOutLoop_good (ws : List WriteRes) {p : Option ℕ} {q : List ℕ} (h : Left s c p q)
    (hg : Good sz s v) (hb : v.busy = some c) (hc : c ∈ v.connected) :
    ∃ s₁, Good sz s₁ v ∧ SameInput c s s₁ ∧
      ((∃ r q', socketOutLoop c ws p s = (r, s₁) ∧ Left s₁ c r q') ∨
        ∃ i, socketOutLoop c ws p s = (some i, clientPendingDisconnect s₁ c)) := by
  induction ws generalizing s p q with
  | nil =>
    cases q with
    | nil =>
      obtain rfl : p = none := h.queue.links
      exact ⟨s, hg, SameInput.refl c s, Or.inl ⟨none, [], by rw [socketOutLoop], h⟩⟩
    | cons i q =>
      obtain rfl : p = some i := h.queue.links.1
      obtain ⟨hg', -⟩ := h.write hg hb hc (Nat.zero_le _)
      refine ⟨_, hg', (SameInput.emit s (by simp [Event.input?])).trans
        (SameInput.emit _ (by simp [Event.input?])), Or.inl ⟨some i, i :: q, rfl, h.queue, ?_⟩⟩
      intro hok
      have := h.owes hok
      simpa [accepted, issued] using this
  | cons w ws ih =>
    cases q with
    | nil =>
      obtain rfl : p = none := h.queue.links
      exact ⟨s, hg, SameInput.refl c s, Or.inl ⟨none, [], by rw [socketOutLoop], h⟩⟩
    | cons i q =>
      obtain rfl : p = some i := h.queue.links.1
      have hfd := hg.slots.connectedFd c hc
      have hin : ∀ bs, SameInput c s ((s.emit (.itemUse c i)).emit (.write c (s.clientFd c) bs)) :=
        fun bs => (SameInput.emit s (by simp [Event.input?])).trans
          (SameInput.emit _ (by simp [Event.input?]))
      have hnone := h.write hg hb hc (Nat.zero_le _)
      simp only [List.take_zero] at hnone
      rw [socketOutLoop]
      unfold sysWrite
      rw [show (s.emit (.itemUse c i)).clientFd c = s.clientFd c from rfl, if_neg hfd]
      cases w with
      | accepted n =>
        dsimp only
        have hsome := h.write hg hb hc (Nat.min_le_right n ((s.output c).items i).size)
        dsimp only at hsome
        generalize hk : min n ((s.output c).items i).size = k at hsome
        generalize ht : (s.emit (.itemUse c i)).emit (.write c (s.clientFd c)
          ((((s.output c).items i).data.drop ((s.output c).items i).offset).take k)) = t at hsome
        have hint : SameInput c s t := ht ▸ hin _
        have hot : t.output = s.output := ht ▸ rfl
        obtain ⟨hgt, howes⟩ := hsome
        by_cases hall : k = ((s.output c).items i).size
        · rw [if_pos hall]
          have hfree : Good sz (t.emit (.itemFree c i)) v := hgt.emit ⟨rfl, rfl, rfl, rfl⟩ trivial
          have hleft : Left (t.emit (.itemFree c i)) c ((s.output c).items i).nextP q := by
            refine h.next hot rfl fun hok => ?_
            have := howes hok
            rwa [hall, Nat.sub_self, show OutputItem.bytes { (s.output c).items i with
              offset := _, size := 0 } = [] from List.take_zero .., List.nil_append] at this
          obtain ⟨s₁, hg₁, hin₁, hr⟩ := ih hleft hfree
          exact ⟨s₁, hg₁, (hint.trans (SameInput.emit t (by simp [Event.input?]))).trans hin₁, hr⟩
        · rw [if_neg hall]
          by_cases hpos : 0 < k
          · rw [if_pos hpos]
            have hleft := h.advance hot rfl howes
            have hgood : Good sz (t.setOutput c ((t.output c).setItem i { (s.output c).items i with
                offset := ((s.output c).items i).offset + k
                size := ((s.output c).items i).size - k })) v := by
              refine hgt.workOutput hb (SameSlots.setOutput t c _) rfl
                (fun d => SameInput.setOutput t d c _) (fun d hd => SameOutput.setOutput t _ hd)
                (fun _ => ?_) (hgt.sent c) hgt.log
              rw [show (t.setOutput c _).output c = _ from Function.update_self _ _ _]
              exact (hgt.ends c hc).setItem (by rw [hot])
            obtain ⟨s₁, hg₁, hin₁, hr⟩ := ih hleft hgood
            exact ⟨s₁, hg₁, (hint.trans (SameInput.setOutput t c c _)).trans hin₁, hr⟩
          · rw [if_neg hpos]
            exact ⟨t, hgt, hint, Or.inr ⟨i, rfl⟩⟩
      | eagain =>
        refine ⟨_, hnone.1, hin [], Or.inl ⟨some i, i :: q, rfl, h.queue, fun hok => ?_⟩⟩
        have := h.owes hok
        simpa [accepted, issued] using this
      | error => exact ⟨_, hnone.1, hin [], Or.inr ⟨i, rfl⟩⟩

theorem processClientSocketOut_good (ws : List WriteRes) (mod : Bool) (h : Good sz s v)
    (hb : v.busy = none) (hc : c ∈ v.connected) :
    ∃ v', Moved c v v' ∧ Good sz (processClientSocketOut s c ws mod) v' := by
  obtain ⟨q, hq, howes⟩ := h.output c hc (by simp [hb])
  obtain ⟨s₁, hg, hin, hr⟩ := socketOutLoop_good ws ⟨hq, howes⟩ (h.work hb c) rfl hc
  unfold processClientSocketOut
  rcases hr with ⟨r, q', he, hleft⟩ | ⟨i, he⟩
  · rw [he]
    have hout : (s₁.setOutput c { s₁.output c with headP := r }).output c =
        { s₁.output c with headP := r } := Function.update_self _ _ _
    have hgood : Good sz (s₁.setOutput c { s₁.output c with headP := r }) v := by
      refine h.worked hb (hg.workOutput rfl (SameSlots.setOutput s₁ c _) rfl
        (fun d => SameInput.setOutput s₁ d c _) (fun d hd => SameOutput.setOutput s₁ _ hd)
        (fun _ => ?_) (hg.sent c) hg.log) (hin.trans (SameInput.setOutput s₁ c c _)) fun _ => ?_
      · rw [hout]
        exact hleft.queue.ends
      · refine ⟨q', ?_, ?_⟩
        · rw [hout]
          exact hleft.queue
        · unfold Owes
          rw [hout]
          exact hleft.owes
    cases r with
    | none =>
      exact ⟨v, .same, hgood.emit ⟨rfl, rfl, rfl, rfl⟩ (hgood.clientFd_open (Or.inl hc))⟩
    | some i => exact ⟨v, .same, hgood⟩
  · rw [he]
    obtain ⟨l₁, l₂, hl⟩ := List.append_of_mem hc
    have hgood := hg.clientPendingDisconnect hl (Or.inr rfl) fun hsz =>
      ((h.reception hsz).received c (by simp [hb])).congr hin.handled hin.received
    have hnot : c ∉ l₁ ++ l₂ := (hl ▸ h.slots.lists).notMem_of_connected.1
    generalize clientPendingDisconnect s₁ c = s₂ at hgood
    have hwork := (hgood.work rfl c).workOutput rfl (SameSlots.setOutput s₂ c
      { s₂.output c with headP := some i }) rfl (fun d => SameInput.setOutput s₂ d c _)
      (fun d hd => SameOutput.setOutput s₂ _ hd) (fun hm => absurd hm hnot) (hgood.sent c) hgood.log
    exact ⟨_, .moved l₁ l₂ hl, hgood.worked rfl hwork (SameInput.setOutput s₂ c c _)
      fun hm => absurd hm hnot⟩

/-! ## Calls of the user -/

/-- What a call may do to the lists: it disconnects some clients. -/
structure Shrunk (v v' : View) : Prop where
  free : v'.free = v.free
  place : v'.place = v.place
  current : v'.current = v.current
  busy : v'.busy = v.busy
  listening : v'.listening = v.listening
  fds : v'.fds = v.fds
  pending : ∃ new, v'.pending = new ++ v.pending

theorem Shrunk.refl (v : View) : Shrunk v v := ⟨rfl, rfl, rfl, rfl, rfl, rfl, [], rfl⟩

theorem Shrunk.trans {v₁ v₂ v₃ : View} (h : Shrunk v₁ v₂) (h' : Shrunk v₂ v₃) : Shrunk v₁ v₃ := by
  obtain ⟨new, hn⟩ := h.pending
  obtain ⟨new', hn'⟩ := h'.pending
  exact ⟨h'.free.trans h.free, h'.place.trans h.place, h'.current.trans h.current,
    h'.busy.trans h.busy, h'.listening.trans h.listening, h'.fds.trans h.fds, new' ++ new, by
      rw [hn', hn, List.append_assoc]⟩

theorem Moved.shrunk {v' : View} (h : Moved c v v') (hb : v.busy = none) : Shrunk v v' := by
  cases h with
  | same => exact Shrunk.refl v
  | moved l₁ l₂ h => exact ⟨rfl, rfl, rfl, hb.symm, rfl, rfl, [c], rfl⟩

/-- A slot is only once in the list, so its place there is known. -/
theorem Moved.eq_or {v' : View} {done rest : List Slot} (h : Moved c v v')
    (hv : v.connected = done ++ c :: rest) (hd : v.connected.Nodup) :
    v' = v ∨
      v' = { v with connected := done ++ rest, pending := c :: v.pending, busy := none } := by
  cases h with
  | same => exact Or.inl rfl
  | moved l₁ l₂ hl =>
    have he : done = l₁ ∧ c :: rest = c :: l₂ := by
      rw [hv] at hl hd
      have hc₁ : c ∉ done := fun hm => (List.nodup_append.1 hd).2.2 c hm c (by simp) rfl
      have hc₂ : c ∉ l₁ := fun hm => (List.nodup_append.1 (hl ▸ hd)).2.2 c hm c (by simp) rfl
      have hlen : done.length = l₁.length := by
        have hidx := congrArg (List.idxOf c) hl
        rwa [List.idxOf_append_of_notMem hc₁, List.idxOf_append_of_notMem hc₂,
          List.idxOf_cons_self, List.idxOf_cons_self] at hidx
      exact List.append_inj hl hlen
    refine Or.inr ?_
    rw [he.1, (List.cons.inj he.2).2]

/-- The clients behind the one that is worked on stay where they are. -/
theorem Moved.rest {v' : View} {done rest : List Slot} (h : Moved c v v')
    (hv : v.connected = done ++ c :: rest) (hd : v.connected.Nodup) :
    ∃ done', v'.connected = done' ++ rest := by
  rcases h.eq_or hv hd with rfl | rfl
  · exact ⟨done ++ [c], by rw [hv]; simp⟩
  · exact ⟨done, rfl⟩

/-- The state stands for what is left of the view. -/
def GoodAfter (sz : ℕ) (v : View) (s : Server) : Prop := ∃ v', Shrunk v v' ∧ Good sz s v'

theorem Good.goodAfter (h : Good sz s v) : GoodAfter sz v s := ⟨v, Shrunk.refl v, h⟩

theorem serverSend_good {enc : Encoder} (h : Good sz s v) (hb : v.busy = none)
    (hc : c ∈ v.connected ∨ c ∈ v.pending) : GoodAfter sz v (serverSend s c enc e) := by
  unfold serverSend
  cases encodeUserMessage s enc with
  | none => exact h.goodAfter
  | some m =>
    obtain ⟨v', hm, hg⟩ := issueMessage_good (m := m) (e := e) h hb hc
    exact ⟨v', hm.shrunk hb, hg⟩

theorem serverReply_good {enc : Encoder} (h : Good sz s v) (hb : v.busy = none) :
    GoodAfter sz v (serverReply s enc e) := by
  unfold serverReply
  cases hcur : s.currentClientP with
  | none => exact h.goodAfter
  | some c => exact serverSend_good h hb (h.slots.message c
      (h.slots.currentPlace c (h.slots.current ▸ hcur)))

theorem broadcastLoop_good {m : Message} {e : Slot → WriteEnv} {n : ℕ} {p : Option Slot}
    {done rest : List Slot} (h : Good sz s v) (hb : v.busy = none)
    (hv : v.connected = done ++ rest) (hp : p = rest.head?) (hn : rest.length < n) :
    GoodAfter sz v (broadcastLoop m e n p s) := by
  induction n generalizing s v p done rest with
  | zero => exact absurd hn (Nat.not_lt_zero _)
  | succ n ih =>
    cases rest with
    | nil =>
      subst hp
      exact h.goodAfter
    | cons c rest =>
      subst hp
      have hnext : s.clients.nextP c = rest.head? :=
        Links.next_eq (show Links _ _ (done ++ c :: rest) from hv ▸ h.slots.lists.connected)
      obtain ⟨v', hm, hg⟩ := issueMessage_good (c := c) (m := m) (e := e c) h hb
        (Or.inl (by rw [hv]; simp))
      obtain ⟨done', hdone'⟩ := hm.rest hv h.slots.lists.connected.nodup
      have hs := hm.shrunk hb
      obtain ⟨v'', hs', hg'⟩ := ih (p := s.clients.nextP c) hg (hs.busy.trans hb) hdone' hnext
        (by simp at hn; omega)
      exact ⟨v'', hs.trans hs', hg'⟩

theorem serverBroadcast_good {enc : Encoder} {e : Slot → WriteEnv} (h : Good sz s v)
    (hb : v.busy = none) : GoodAfter sz v (serverBroadcast s enc e) := by
  unfold serverBroadcast
  cases encodeUserMessage s enc with
  | none => exact h.goodAfter
  | some m =>
    have hlen : v.connected.length ≤ s.clientsMax := by
      have := h.slots.all.length_eq
      simp only [List.length_append, List.length_range] at this
      omega
    exact broadcastLoop_good h hb (show v.connected = [] ++ v.connected from rfl)
      h.slots.lists.connected.head (Nat.lt_succ_of_le hlen)

/-- A client that is connected or pending may be disconnected. -/
theorem clientPendingDisconnect_good (h : Good sz s v) (hb : v.busy = none)
    (hc : c ∈ v.connected ∨ c ∈ v.pending) :
    ∃ v', Moved c v v' ∧ Good sz (clientPendingDisconnect s c) v' := by
  rcases hc with hc | hc
  · obtain ⟨l₁, l₂, hl⟩ := List.append_of_mem hc
    exact ⟨_, .moved l₁ l₂ hl, h.clientPendingDisconnect hl (Or.inl hb) fun hsz =>
      (h.reception hsz).received c (by simp [hb])⟩
  · rw [clientPendingDisconnect_of_pending (h.slots.pendingFd c hc)]
    exact ⟨v, .same, h⟩

theorem mem_of_live (h : Good sz s v) (hl : live s c = true) :
    c ∈ v.connected ∨ c ∈ v.pending := by
  by_contra hn
  rw [not_or] at hn
  have := h.slots.freePhase c hn.1 hn.2
  simp [live, this] at hl

theorem serverDisconnect_good {p : Option Slot} (h : Good sz s v) (hb : v.busy = none)
    (hp : p.all (live s) = true) : GoodAfter sz v (serverDisconnect s p) := by
  unfold serverDisconnect
  cases p with
  | none =>
    rw [if_pos rfl]
    cases hcur : s.currentClientP with
    | none => exact h.goodAfter
    | some c =>
      obtain ⟨v', hm, hg⟩ :=
        clientPendingDisconnect_good h hb
          (h.slots.message c (h.slots.currentPlace c (h.slots.current ▸ hcur)))
      exact ⟨v', hm.shrunk hb, hg⟩
  | some c =>
    rw [if_neg (by simp)]
    obtain ⟨v', hm, hg⟩ := clientPendingDisconnect_good h hb (mem_of_live h hp)
    exact ⟨v', hm.shrunk hb, hg⟩

/-- What a call other than `NAME_server_process()` does. -/
theorem apiCall_good (h : Good sz s v) (hb : v.busy = none) (call : Call) :
    Exec.Sat (GoodAfter sz v) (fun _ => GoodAfter sz v) (apiCall call s) := by
  cases call with
  | send c enc e =>
    show GoodAfter sz v (if live s c then serverSend s c enc e else s)
    by_cases hl : live s c = true
    · rw [if_pos hl]
      exact serverSend_good h hb (mem_of_live h hl)
    · rw [if_neg hl]
      exact h.goodAfter
  | reply enc e => exact serverReply_good h hb
  | broadcast enc e => exact serverBroadcast_good h hb
  | disconnect p =>
    show GoodAfter sz v (if p.all (live s) then serverDisconnect s p else s)
    by_cases hl : p.all (live s) = true
    · rw [if_pos hl]
      exact serverDisconnect_good h hb hl
    · rw [if_neg hl]
      exact h.goodAfter
  | process fd events e => exact h.goodAfter
  | pause => exact h.goodAfter

/-- What the user's code does in a callback. -/
theorem apiCalls_good (h : Good sz s v) (hb : v.busy = none) (calls : List Call) :
    Exec.Sat (GoodAfter sz v) (fun _ => GoodAfter sz v) (Exec.runList apiCall calls s) := by
  refine Exec.Sat.runList (fun call s hs => ?_) calls h.goodAfter
  obtain ⟨v', hs', hg⟩ := hs
  have hmono : ∀ t, GoodAfter sz v' t → GoodAfter sz v t := fun t ht => by
    obtain ⟨v'', hs'', hg'⟩ := ht
    exact ⟨v'', hs'.trans hs'', hg'⟩
  exact (apiCall_good hg (hs'.busy.trans hb) call).mono hmono fun _ => hmono

end

end Messi.LinuxServer
