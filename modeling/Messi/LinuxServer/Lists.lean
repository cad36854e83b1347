import Messi.LinuxServer.Model

/-!
# The three lists of client slots

`SlotLists l cl fl pl`: the connected, free and pending disconnect lists hold the slots `cl`, `fl`
and `pl`, and share none. Only the connected list is linked backwards, and only behind its head;
this is what unlinking from it needs. The pending disconnect list is unlinked at its head, or
where `unlinkable` says that `prev_p` happens to be right.
-/

namespace Messi.LinuxServer

open PointerList

/-- The slots in the connected, free and pending disconnect lists. -/
structure SlotLists (l : Clients) (cl fl pl : List Slot) : Prop where
  connected : Links l.nextP l.connectedListP cl
  free : Links l.nextP l.freeListP fl
  pending : Links l.nextP l.pendingDisconnectListP pl
  back : BackLinks l.prevP cl
  nodup : (cl ++ (fl ++ pl)).Nodup

/-- The list whose head is `listP`. -/
def dlist (l : Clients) (listP : Option Slot) : DList Slot := ⟨listP, l.nextP, l.prevP⟩

theorem removeClientFromList_eq (l : Clients) (listP : Option Slot) (c : Slot) :
    removeClientFromList l listP c =
      (((dlist l listP).unlink c).head,
        { l with
          nextP := ((dlist l listP).unlink c).next
          prevP := ((dlist l listP).unlink c).prev }) := by
  unfold removeClientFromList dlist DList.unlink
  by_cases hh : listP = some c
  · subst hh
    cases hn : l.nextP c <;> simp [hn]
  · rw [if_neg (Ne.symm hh)]
    cases hp : l.prevP c with
    | none => cases hn : l.nextP c <;> simp [hn, hh, hp]
    | some p =>
      -- the `next` field of `c` itself is written only if `c` is its own predecessor
      have hc : Function.update l.nextP p (l.nextP c) c = l.nextP c := by
        by_cases hpc : c = p
        · rw [hpc, Function.update_self]
        · rw [Function.update_of_ne hpc]
      cases hn : l.nextP c <;> simp [hn, hh, hp] <;> rw [hn] at hc <;> simp [hc]

section

variable {l : Clients} {cl fl pl l₁ l₂ : List Slot} {c : Slot}

theorem SlotLists.notMem_of_connected (h : SlotLists l (l₁ ++ c :: l₂) fl pl) :
    c ∉ l₁ ++ l₂ ∧ c ∉ fl ∧ c ∉ pl := by
  have hd := h.nodup
  simp only [List.append_assoc, List.cons_append, List.nodup_append, List.nodup_cons,
    List.mem_append, List.mem_cons] at hd
  grind

theorem SlotLists.notMem_of_pending (h : SlotLists l cl fl (l₁ ++ c :: l₂)) :
    c ∉ cl ∧ c ∉ fl ∧ c ∉ l₁ ++ l₂ := by
  have hd := h.nodup
  simp only [List.nodup_append, List.nodup_cons, List.mem_append, List.mem_cons] at hd
  grind

theorem SlotLists.notMem_of_free (h : SlotLists l cl (c :: fl) pl) :
    c ∉ cl ∧ c ∉ fl ∧ c ∉ pl := by
  have hd := h.nodup
  simp only [List.cons_append, List.nodup_append, List.nodup_cons, List.mem_append,
    List.mem_cons] at hd
  grind

/-- The slots keep their places in the other two lists when the connected list is unlinked. -/
theorem SlotLists.disjoint_connected (h : SlotLists l cl fl pl) :
    (∀ d ∈ fl, d ∉ cl) ∧ (∀ d ∈ pl, d ∉ cl) ∧ (∀ d ∈ pl, d ∉ fl) := by
  have hd := h.nodup
  simp only [List.nodup_append, List.mem_append] at hd
  grind

theorem unlinkable_iff {listP : Option Slot} {n : ℕ} {m : List Slot}
    (hm : Links l.nextP listP m) (hn : m.length ≤ n) :
    unlinkable n l listP c = true ↔ (dlist l listP).Unlinkable m c := by
  unfold unlinkable DList.Unlinkable dlist
  rw [hm.walk_eq hn]
  simp

theorem SlotLists.unlinkable_connected (h : SlotLists l (l₁ ++ c :: l₂) fl pl) {n : ℕ}
    (hn : (l₁ ++ c :: l₂).length ≤ n) : unlinkable n l l.connectedListP c = true :=
  (unlinkable_iff h.connected hn).2
    (DList.unlinkable_of_backLinks (d := dlist l l.connectedListP) h.connected h.back)

/-! ## The operations -/

theorem SlotLists.allocClient {s s' : Server} (h : SlotLists s.clients cl fl pl) {r : Option Slot}
    (he : allocClient s = (r, s')) :
    (r = none ∧ fl = [] ∧ s' = s) ∨
      ∃ c fl', r = some c ∧ fl = c :: fl' ∧ s' = s.setClients s'.clients ∧
        SlotLists s'.clients (c :: cl) fl' pl := by
  unfold LinuxServer.allocClient at he
  cases fl with
  | nil =>
    have hnil : s.clients.freeListP = none := h.free
    rw [hnil] at he
    cases he
    exact Or.inl ⟨rfl, rfl, rfl⟩
  | cons c fl =>
    have hc := h.notMem_of_free
    have hhead : s.clients.freeListP = some c := h.free.1
    have hpush := DList.pushFront_links (d := dlist s.clients s.clients.connectedListP)
      h.connected hc.1
    have hback := DList.pushFront_backLinks (d := dlist s.clients s.clients.connectedListP) (a := c)
      h.connected h.back
    have hfree : Links (Function.update s.clients.nextP c s.clients.connectedListP)
        (s.clients.nextP c) fl := h.free.2.update hc.2.1
    have hpending : Links (Function.update s.clients.nextP c s.clients.connectedListP)
        s.clients.pendingDisconnectListP pl := h.pending.update hc.2.2
    have hnodup : (c :: cl ++ (fl ++ pl)).Nodup := by
      have hd := h.nodup
      rw [List.cons_append] at hd ⊢
      exact (List.perm_middle.nodup_iff).1 hd
    rw [hhead] at he
    refine Or.inr ⟨c, fl, ?_⟩
    unfold dlist DList.pushFront at hback
    cases hcon : s.clients.connectedListP with
    | none =>
      simp only [hcon] at he hpush hback hfree hpending
      cases he
      exact ⟨rfl, rfl, rfl, hpush, hfree, hpending, hback, hnodup⟩
    | some d =>
      simp only [hcon] at he hpush hback hfree hpending
      cases he
      exact ⟨rfl, rfl, rfl, hpush, hfree, hpending, hback, hnodup⟩

theorem SlotLists.freeConnectedClient {s : Server}
    (h : SlotLists s.clients (l₁ ++ c :: l₂) fl pl) :
    SlotLists (freeConnectedClient s c).clients (l₁ ++ l₂) (c :: fl) pl := by
  have hu := DList.unlinkable_of_backLinks (d := dlist s.clients s.clients.connectedListP)
    h.connected h.back
  have hlinks := DList.unlink_links h.connected hu
  have hback := DList.unlink_backLinks (d := dlist s.clients s.clients.connectedListP)
    h.connected h.back
  have hc := h.notMem_of_connected
  have hdis := h.disjoint_connected
  have hnext : ∀ d, d ∉ l₁ ++ c :: l₂ →
      ((dlist s.clients s.clients.connectedListP).unlink c).next d = s.clients.nextP d :=
    fun d hd => DList.unlink_next_of_notMem hu hd
  unfold LinuxServer.freeConnectedClient
  simp only [Server.setClients_clients, Server.emit_clients, removeClientFromList_eq]
  refine ⟨hlinks.update hc.1, ?_, ?_, hback, ?_⟩
  · exact (h.free.congr fun d hd => hnext d (hdis.1 d hd)).push hc.2.1
  · exact (h.pending.congr fun d hd => hnext d (hdis.2.1 d hd)).update hc.2.2
  · have hd := h.nodup
    simp only [List.append_assoc, List.cons_append] at hd
    have hp : (l₁ ++ l₂ ++ (c :: fl ++ pl)).Perm (l₁ ++ c :: (l₂ ++ (fl ++ pl))) := by
      rw [List.append_assoc, List.cons_append]
      exact List.perm_middle.append_left l₁
    exact hp.nodup_iff.2 hd

theorem SlotLists.moveClientToPendingDisconnectList {s : Server}
    (h : SlotLists s.clients (l₁ ++ c :: l₂) fl pl) :
    SlotLists (moveClientToPendingDisconnectList s c).clients (l₁ ++ l₂) fl (c :: pl) := by
  have hu := DList.unlinkable_of_backLinks (d := dlist s.clients s.clients.connectedListP)
    h.connected h.back
  have hlinks := DList.unlink_links h.connected hu
  have hback := DList.unlink_backLinks (d := dlist s.clients s.clients.connectedListP)
    h.connected h.back
  have hc := h.notMem_of_connected
  have hdis := h.disjoint_connected
  have hnext : ∀ d, d ∉ l₁ ++ c :: l₂ →
      ((dlist s.clients s.clients.connectedListP).unlink c).next d = s.clients.nextP d :=
    fun d hd => DList.unlink_next_of_notMem hu hd
  unfold LinuxServer.moveClientToPendingDisconnectList
  simp only [Server.setClients_clients, Server.emit_clients, removeClientFromList_eq]
  refine ⟨hlinks.update hc.1, ?_, ?_, hback, ?_⟩
  · exact (h.free.congr fun d hd => hnext d (hdis.1 d hd)).update hc.2.1
  · exact (h.pending.congr fun d hd => hnext d (hdis.2.1 d hd)).push hc.2.2
  · have hd := h.nodup
    simp only [List.append_assoc, List.cons_append] at hd
    have hp : (l₁ ++ l₂ ++ (fl ++ c :: pl)).Perm (l₁ ++ c :: (l₂ ++ (fl ++ pl))) := by
      rw [List.append_assoc, ← List.append_assoc l₂]
      refine (List.perm_middle.trans ?_).append_left l₁
      rw [List.append_assoc]
    exact hp.nodup_iff.2 hd

/-- A pending slot can be freed where it is unlinkable. -/
theorem SlotLists.freePendingDisconnectClient {s : Server}
    (h : SlotLists s.clients cl fl (l₁ ++ c :: l₂))
    (hu : (dlist s.clients s.clients.pendingDisconnectListP).Unlinkable (l₁ ++ c :: l₂) c) :
    SlotLists (freePendingDisconnectClient s c).clients cl (c :: fl) (l₁ ++ l₂) := by
  have hlinks := DList.unlink_links h.pending hu
  have hc := h.notMem_of_pending
  have hdis := h.disjoint_connected
  have hnext : ∀ d, d ∉ l₁ ++ c :: l₂ →
      ((dlist s.clients s.clients.pendingDisconnectListP).unlink c).next d = s.clients.nextP d :=
    fun d hd => DList.unlink_next_of_notMem hu hd
  have hprev : ∀ d, d ∉ l₁ ++ c :: l₂ →
      ((dlist s.clients s.clients.pendingDisconnectListP).unlink c).prev d = s.clients.prevP d :=
    fun d hd => DList.unlink_prev_of_notMem
      (d := dlist s.clients s.clients.pendingDisconnectListP) h.pending hd
  unfold LinuxServer.freePendingDisconnectClient
  simp only [Server.setClients_clients, Server.emit_clients, removeClientFromList_eq]
  refine ⟨?_, ?_, hlinks.update hc.2.2, ?_, ?_⟩
  · exact (h.connected.congr fun d hd => hnext d fun hm => hdis.2.1 d hm hd).update hc.1
  · exact (h.free.congr fun d hd => hnext d fun hm => hdis.2.2 d hm hd).push hc.2.1
  · refine List.IsChain.imp_of_mem_tail_imp (fun a b _ hb hab => ?_) h.back
    exact (hprev b fun hm => hdis.2.1 b hm (List.mem_of_mem_tail hb)).trans hab
  · have hp : (cl ++ (c :: fl ++ (l₁ ++ l₂))).Perm (cl ++ (fl ++ (l₁ ++ c :: l₂))) := by
      refine List.Perm.append_left cl ?_
      rw [List.cons_append]
      refine List.perm_middle.symm.trans (List.Perm.append_left fl ?_)
      exact List.perm_middle.symm
    exact hp.nodup_iff.2 h.nodup

end

end Messi.LinuxServer
