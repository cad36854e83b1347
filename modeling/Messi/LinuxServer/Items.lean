import Messi.LinuxServer.Sending

/-!
# Ownership of the output items

`process_client_socket_out()` drains the queue with a pointer of its own, while `head_p` still names
the old head. That is right as long as no `write()` of the event fails; when one does,
`client_pending_disconnect()` frees the queue from its old head on, and then `head_p` is set to an
item that has been freed (`items_owned_iff`).
-/

namespace Messi.LinuxServer

open PointerList Sample

/-- The items of a client that are freed, newest first. -/
def freed (c : Slot) : List Event → List ℕ
  | [] => []
  | .itemFree d i :: l => if d = c then i :: freed c l else freed c l
  | _ :: l => freed c l

/-- Between the two states the items `q` of a client's output queue are used as their owner may. -/
structure ItemsOwned (c : Slot) (q : List ℕ) (s t : Server) : Prop where
  once : (freed c (eventsSince s t)).Nodup
  reads : ∀ i l, Event.itemUse c i :: l <:+ eventsSince s t → i ∉ freed c l
  head : ∀ i, (t.output c).headP = some i → i ∉ freed c (eventsSince s t)
  all : t.clientFd c = -1 → ∀ i ∈ q, i ∈ freed c (eventsSince s t)

/-- The results of `write()` for items of the given sizes reach a hard error, or zero. -/
def meetsError : List WriteRes → List ℕ → Bool
  | [], _ => false
  | _ :: _, [] => false
  | .eagain :: _, _ :: _ => false
  | .error :: _, _ :: _ => true
  | .accepted n :: ws, size :: sizes =>
    if size ≤ n then meetsError ws sizes
    else n = 0 || meetsError ws ((size - n) :: sizes)

section

variable {s t : Server} {c : Slot} {q rest : List ℕ} {p : Option ℕ} {evs : List Event} {i : ℕ}

theorem freed_append (l l' : List Event) : freed c (l ++ l') = freed c l ++ freed c l' := by
  induction l with
  | nil => rfl
  | cons e l ih =>
    cases e with
    | itemFree d i =>
      simp only [List.cons_append, freed, ih]
      split_ifs <;> rfl
    | _ => exact ih

/-! ## Freeing a queue -/

theorem freeItems_freed {n : ℕ} (h : Links (fun i => ((s.output c).items i).nextP) p q)
    (hn : q.length < n) :
    ∃ evs, (freeItems c n p s).log = evs ++ s.log ∧ freed c evs = q.reverse := by
  induction q generalizing p n s with
  | nil =>
    obtain ⟨n, rfl⟩ := Nat.exists_eq_add_one.2 hn
    obtain rfl : p = none := h
    exact ⟨[], rfl, rfl⟩
  | cons i q ih =>
    obtain ⟨n, rfl⟩ := Nat.exists_eq_add_one.2 (Nat.zero_lt_of_lt hn)
    obtain ⟨rfl, h⟩ := h
    obtain ⟨evs, hevs, hfreed⟩ := ih (n := n) (s := (s.emit (.itemUse c i)).emit (.itemFree c i)) h
      (by simpa using hn)
    refine ⟨evs ++ [.itemFree c i, .itemUse c i], ?_, ?_⟩
    · rw [freeItems, hevs, List.append_assoc]
      rfl
    · rw [freed_append, hfreed, List.reverse_cons]
      simp [freed]

/-- Disconnecting a client frees its queue from `head_p` on. -/
theorem clientPendingDisconnect_freed (hfd : s.clientFd c ≠ -1)
    (h : Links (fun i => ((s.output c).items i).nextP) (s.output c).headP q)
    (hn : q.length ≤ (s.output c).brk) :
    ∃ evs, (clientPendingDisconnect s c).log = evs ++ s.log ∧ freed c evs = q.reverse := by
  unfold clientPendingDisconnect
  rw [if_neg hfd]
  dsimp only
  unfold freeClientOutput
  dsimp only
  have hout : (((closeFd s (s.clientFd c)).setClientFd c (-1)).setOutput c
      { s.output c with headP := none }).output c = { s.output c with headP := none } :=
    Function.update_self _ _ _
  obtain ⟨evs, hevs, hfreed⟩ := freeItems_freed (c := c) (n := (s.output c).brk + 1)
    (p := (s.output c).headP) (q := q)
    (s := ((closeFd s (s.clientFd c)).setClientFd c (-1)).setOutput c
      { s.output c with headP := none }) (by rw [hout]; exact h) (Nat.lt_succ_of_le hn)
  rw [show ((closeFd s (s.clientFd c)).setClientFd c (-1)).output = s.output from rfl, hout]
  generalize freeItems c ((s.output c).brk + 1) (s.output c).headP _ = u at hevs
  refine ⟨.pendingDisconnect c :: .unlinked c (unlinkable u.clientsMax u.clients
    u.clients.connectedListP c) :: (evs ++ [.closed (s.clientFd c),
      .epollCtl .del (s.clientFd c) ⟨false, false⟩ true]), ?_, ?_⟩
  · show _ :: _ :: u.log = _
    rw [hevs, List.cons_append, List.cons_append, List.append_assoc]
    rfl
  · show freed c (evs ++ _) = _
    rw [freed_append, hfreed]
    exact List.append_nil _

/-! ## Draining a queue -/

/-- An item is not used after it has been freed. -/
def UseOk (c : Slot) (l : List Event) : Event → Prop
  | .itemUse d i => d = c → i ∉ freed c l
  | _ => True

/-- The items `done` have been written and freed since the log was `l₀`, and `left` are still to be
written. `head_p` names the first of all of them. -/
structure Draining (l₀ : List Event) (c : Slot) (done left : List ℕ) (evs : List Event)
    (s : Server) : Prop where
  log : s.log = evs ++ l₀
  gone : freed c evs = done.reverse
  uses : Trace.Always (UseOk c) evs
  links : Links (fun i => ((s.output c).items i).nextP) (s.output c).headP (done ++ left)
  length : (done ++ left).length ≤ (s.output c).brk
  fd : s.clientFd c ≠ -1

section

variable {l₀ : List Event} {done left : List ℕ}

theorem Draining.notMem (h : Draining l₀ c done (i :: left) evs s) : i ∉ freed c evs := by
  rw [h.gone, List.mem_reverse]
  intro hi
  exact (List.nodup_append.1 h.links.nodup).2.2 i hi i List.mem_cons_self rfl

/-- The first item that is left is used for a `write()`. -/
theorem Draining.write (h : Draining l₀ c done (i :: left) evs s) (bs : List UInt8) :
    Draining l₀ c done (i :: left) (.write c (s.clientFd c) bs :: .itemUse c i :: evs)
      ((s.emit (.itemUse c i)).emit (.write c (s.clientFd c) bs)) where
  log := by
    rw [Server.emit_log, Server.emit_log, h.log]
    rfl
  gone := h.gone
  uses := ⟨trivial, fun _ => h.notMem, h.uses⟩
  links := h.links
  length := h.length
  fd := h.fd

/-- The first item that is left is freed. -/
theorem Draining.free (h : Draining l₀ c done (i :: left) evs s) :
    Draining l₀ c (done ++ [i]) left (.itemFree c i :: evs) (s.emit (.itemFree c i)) where
  log := by
    rw [Server.emit_log, h.log]
    rfl
  gone := by
    rw [freed, if_pos rfl, h.gone, List.reverse_append]
    rfl
  uses := ⟨trivial, h.uses⟩
  links := by
    rw [List.append_assoc]
    exact h.links
  length := by
    rw [List.append_assoc]
    exact h.length
  fd := h.fd

/-- Nothing but the size and the offset of an item is set. -/
theorem Draining.setItem (h : Draining l₀ c done left evs s) (i : ℕ) (item : OutputItem)
    (hn : item.nextP = ((s.output c).items i).nextP) :
    Draining l₀ c done left evs (s.setOutput c ((s.output c).setItem i item)) := by
  have hout : (s.setOutput c ((s.output c).setItem i item)).output c =
      (s.output c).setItem i item := Function.update_self _ _ _
  refine ⟨h.log, h.gone, h.uses, ?_, ?_, h.fd⟩
  · rw [hout]
    refine h.links.congr fun j _ => ?_
    by_cases hj : j = i
    · subst hj
      simp [hn]
    · simp [Function.update_of_ne hj]
  · rw [hout]
    exact h.length

/-- When a `write()` fails, the whole queue is freed, from its old head on. -/
theorem Draining.disconnect (h : Draining l₀ c done left evs s) (hi : i ∈ left) :
    ∃ evs, (clientPendingDisconnect s c).log = evs ++ l₀ ∧ i ∈ freed c evs := by
  obtain ⟨evs', hlog, hfreed⟩ := clientPendingDisconnect_freed h.fd h.links h.length
  refine ⟨evs' ++ evs, ?_, ?_⟩
  · rw [hlog, h.log, List.append_assoc]
  · rw [freed_append, hfreed]
    simp [hi]

/-- The sizes of the items of a queue. -/
def itemSizes (o : Output) (q : List ℕ) : List ℕ := q.map fun i => (o.items i).size

theorem itemSizes_setItem {o : Output} {item : OutputItem} (hi : i ∉ q) :
    itemSizes (o.setItem i item) (i :: q) = item.size :: itemSizes o q := by
  unfold itemSizes
  rw [List.map_cons, Output.setItem_items, Function.update_self]
  congr 1
  refine List.map_congr_left fun j hj => ?_
  rw [Output.setItem_items, Function.update_of_ne (ne_of_mem_of_not_mem hj hi)]

/-- How the loop ends: with an item that has been freed if a `write()` fails, and otherwise with the
items before its own freed, and no other. -/
def LoopEnd (l₀ : List Event) (c : Slot) (q : List ℕ) (failed : Bool)
    (r : Option ℕ × Server) : Prop :=
  if failed then ∃ evs i, r.2.log = evs ++ l₀ ∧ r.1 = some i ∧ i ∈ freed c evs
  else ∃ done left evs, q = done ++ left ∧ r.1 = left.head? ∧ Draining l₀ c done left evs r.2

theorem Draining.loopEnd (h : Draining l₀ c done left evs s) :
    LoopEnd l₀ c (done ++ left) false (left.head?, s) :=
  ⟨done, left, evs, rfl, rfl, h⟩

theorem Draining.loopEnd_failed (h : Draining l₀ c done (i :: left) evs s) :
    LoopEnd l₀ c q true (some i, clientPendingDisconnect s c) := by
  obtain ⟨evs', hlog, hi⟩ := h.disconnect List.mem_cons_self
  exact ⟨evs', i, hlog, rfl, hi⟩

theorem socketOutLoop_end (ws : List WriteRes) (h : Draining l₀ c done left evs s) :
    LoopEnd l₀ c (done ++ left) (meetsError ws (itemSizes (s.output c) left))
      (socketOutLoop c ws left.head? s) := by
  induction ws generalizing s done left evs with
  | nil =>
    cases left with
    | nil => exact h.loopEnd
    | cons i left => exact (h.write []).loopEnd
  | cons w ws ih =>
    cases left with
    | nil => exact h.loopEnd
    | cons i left =>
      have hi : i ∉ left := (List.nodup_cons.1 (List.nodup_append.1 h.links.nodup).2.1).1
      have hnext : ((s.output c).items i).nextP = left.head? := h.links.next_eq
      rw [List.head?_cons, socketOutLoop]
      dsimp only
      rw [show (s.emit (.itemUse c i)).clientFd = s.clientFd from rfl]
      unfold sysWrite
      rw [if_neg h.fd]
      unfold itemSizes
      rw [List.map_cons]
      cases w with
      | eagain => exact (h.write []).loopEnd
      | error => exact (h.write []).loopEnd_failed
      | accepted n =>
        dsimp only
        have hw := h.write ((((s.output c).items i).data.drop ((s.output c).items i).offset).take
          (min n ((s.output c).items i).size))
        rw [meetsError]
        by_cases hall : ((s.output c).items i).size ≤ n
        · rw [if_pos hall, if_pos (Nat.min_eq_right hall), hnext]
          have hrest := ih hw.free
          rw [List.append_assoc] at hrest
          exact hrest
        rw [if_neg hall, if_neg (by omega), Nat.min_eq_left (by omega)]
        rw [Nat.min_eq_left (by omega)] at hw
        cases n with
        | zero => exact hw.loopEnd_failed
        | succ n =>
          rw [if_pos (Nat.succ_pos n)]
          have hrest := ih (hw.setItem i { (s.output c).items i with
            offset := ((s.output c).items i).offset + (n + 1)
            size := ((s.output c).items i).size - (n + 1) } rfl)
          rw [Server.setOutput_output, Function.update_self, itemSizes_setItem hi] at hrest
          rw [decide_eq_false (Nat.succ_ne_zero n), Bool.false_or]
          exact hrest

end

/-! ## An event -/

/-- The items of the queue are used as they may be just if no `write()` of the event fails. -/
theorem items_owned_iff (hq : Queue (s.output c) q) (hfd : s.clientFd c ≠ -1)
    (ws : List WriteRes) (mod : Bool) :
    ItemsOwned c q s (processClientSocketOut s c ws mod) ↔
      meetsError ws (itemSizes (s.output c) q) = false := by
  have hdrain : Draining s.log c [] q [] s :=
    ⟨rfl, rfl, trivial, hq.links, hq.length_le, hfd⟩
  have hend := socketOutLoop_end ws hdrain
  rw [← hq.links.head] at hend
  unfold processClientSocketOut
  generalize socketOutLoop c ws (s.output c).headP s = r at hend
  obtain ⟨p, t⟩ := r
  dsimp only
  cases hm : meetsError ws (itemSizes (s.output c) q) with
  | true =>
    rw [hm] at hend
    obtain ⟨evs, i, hlog, hp, hi⟩ := hend
    replace hlog : t.log = evs ++ s.log := hlog
    obtain rfl : p = some i := hp
    rw [if_neg nofun]
    refine iff_of_false (fun h => ?_) nofun
    -- `head_p` names an item that has been freed
    have hi' : i ∉ freed c (eventsSince s t) := h.head i (by simp)
    rw [eventsSince_eq hlog] at hi'
    exact hi' hi
  | false =>
    rw [hm] at hend
    obtain ⟨done, left, evs, hsplit, hp, h⟩ := hend
    obtain rfl : p = left.head? := hp
    refine iff_of_true ?_ rfl
    have hnodup : (done ++ left).Nodup := h.links.nodup
    have howned : ∀ u : Server, ∀ evs', u.log = evs' ++ s.log → freed c evs' = freed c evs →
        Trace.Always (UseOk c) evs' → (u.output c).headP = left.head? → u.clientFd c ≠ -1 →
        ItemsOwned c q s u := by
      intro u evs' hlog hf huses hhead hup
      refine ⟨?_, ?_, ?_, fun hdown => absurd hdown hup⟩
      · rw [eventsSince_eq hlog, hf, h.gone]
        exact List.nodup_reverse.2 (List.nodup_append.1 hnodup).1
      · intro i l hl
        rw [eventsSince_eq hlog] at hl
        exact huses.event hl rfl
      · intro i hi
        rw [eventsSince_eq hlog, hf, h.gone, List.mem_reverse]
        intro hmem
        exact (List.nodup_append.1 hnodup).2.2 i hmem i
          (List.mem_of_mem_head? (hhead.symm.trans hi)) rfl
    split_ifs with hnone
    · exact howned _ (.epollCtl .mod (t.clientFd c) ⟨true, false⟩ mod :: evs)
        (congrArg (_ :: ·) h.log) rfl ⟨trivial, h.uses⟩ (by simp [epollCtlMod]) h.fd
    · exact howned _ evs h.log rfl h.uses (by simp) h.fd

/-- Two messages are queued for the only client. -/
def twoQueued : Server :=
  (run ⟨false, false⟩ 0 [connect 5 6, .send 0 (fun _ => some [20]) (writes [.eagain]),
    .send 0 (fun _ => some [21]) (writes [])] (server 1 16)).state

/-- The first item is written whole and the second one in part. -/
theorem items_owned_iff_twoQueued :
    ItemsOwned 0 [0, 1] twoQueued
        (processClientSocketOut twoQueued 0 [.accepted 5, .accepted 2, .eagain] true) ↔
      meetsError [.accepted 5, .accepted 2, .eagain]
        (itemSizes (twoQueued.output 0) [0, 1]) = false :=
  items_owned_iff (s := twoQueued) (c := 0) (q := [0, 1])
    ⟨⟨rfl, rfl, rfl⟩, by decide, fun _ => rfl⟩ (by decide) _ _

/-- The first item is written whole, and then `write()` fails: the first item is freed twice. -/
theorem not_itemsOwned_twoQueued :
    ¬ ItemsOwned 0 [0, 1] twoQueued
      (processClientSocketOut twoQueued 0 [.accepted 5, .error] true) := by
  intro h
  have honce := h.once
  revert honce
  decide

end

end Messi.LinuxServer
