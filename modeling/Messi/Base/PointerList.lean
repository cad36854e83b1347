import Mathlib.Data.List.Chain
import Mathlib.Data.List.Nodup
import Mathlib.Logic.Function.Basic

/-!
# Null-terminated pointer lists

Cells linked through a `next` field, as intrusive lists link them. `Links next p l` says that
following `next` from `p` visits exactly the cells `l` and then reaches null; such a list is
acyclic (`Links.nodup`) and determined by its head (`Links.unique`).

`BackLinks prev l` is what a list keeps whose head has a stale `prev` field. `pushFront` and
`unlink` are the two updates of such a partly doubly linked list.
-/

namespace PointerList

variable {α : Type*}

/-- Following `next` from `p` visits exactly the cells `l`, in order, and then reaches null. -/
def Links (next : α → Option α) : Option α → List α → Prop
  | p, [] => p = none
  | p, a :: l => p = some a ∧ Links next (next a) l

/-- Every cell but the first one points back to its predecessor. -/
def BackLinks (prev : α → Option α) (l : List α) : Prop :=
  l.IsChain fun a b => prev b = some a

/-- The first `n` cells reached from `p`. -/
def walk (next : α → Option α) : ℕ → Option α → List α
  | 0, _ => []
  | _ + 1, none => []
  | n + 1, some a => a :: walk next n (next a)

section Shape

variable {next next' : α → Option α} {p : Option α} {l l₁ l₂ : List α} {a b : α}

@[simp] theorem links_nil : Links next p [] ↔ p = none := Iff.rfl

@[simp] theorem links_cons : Links next p (a :: l) ↔ p = some a ∧ Links next (next a) l := Iff.rfl

theorem Links.head (h : Links next p l) : p = l.head? := by
  cases l with
  | nil => exact h
  | cons a l => exact h.1

theorem Links.unique (h₁ : Links next p l₁) (h₂ : Links next p l₂) : l₁ = l₂ := by
  induction l₁ generalizing p l₂ with
  | nil =>
    cases l₂ with
    | nil => rfl
    | cons b l₂ => cases h₁.symm.trans h₂.1
  | cons a l₁ ih =>
    cases l₂ with
    | nil => cases h₂.symm.trans h₁.1
    | cons b l₂ =>
      obtain rfl : a = b := Option.some.inj (h₁.1.symm.trans h₂.1)
      rw [ih h₁.2 h₂.2]

/-- The tail of a list is the list its first cell points to. -/
theorem Links.drop (h : Links next p (l₁ ++ l₂)) : Links next l₂.head? l₂ := by
  induction l₁ generalizing p with
  | nil => exact Links.head h ▸ h
  | cons a l₁ ih => exact ih h.2

theorem Links.next_eq (h : Links next p (l₁ ++ a :: l₂)) : next a = l₂.head? :=
  (Links.drop h).2.head

theorem Links.nodup (h : Links next p l) : l.Nodup := by
  induction l generalizing p with
  | nil => exact List.nodup_nil
  | cons a l ih =>
    refine List.nodup_cons.2 ⟨fun ha => ?_, ih h.2⟩
    -- a second visit of `a` would repeat the first one, so `l` would be its own proper tail
    obtain ⟨l₁, l₂, rfl⟩ := List.append_of_mem ha
    have hagain : Links next (some a) (a :: l₂) := Links.drop h.2
    have := congrArg List.length (hagain.2.unique h.2)
    simp only [List.length_append, List.length_cons] at this
    omega

theorem Links.congr (h : Links next p l) (he : ∀ a ∈ l, next' a = next a) : Links next' p l := by
  induction l generalizing p with
  | nil => exact h
  | cons a l ih =>
    refine ⟨h.1, ?_⟩
    rw [he a List.mem_cons_self]
    exact ih h.2 fun b hb => he b (List.mem_cons_of_mem a hb)

/-- A cell that points into a list from inside it is the predecessor there. -/
theorem Links.split_of_next (h : Links next p l) (hb : b ∈ l) (hn : next b = some a) :
    ∃ l₁ l₂, l = l₁ ++ b :: a :: l₂ := by
  obtain ⟨l₁, l₂, rfl⟩ := List.append_of_mem hb
  have hh := h.next_eq.symm.trans hn
  cases l₂ with
  | nil => cases hh
  | cons c l₂ =>
    obtain rfl : c = a := Option.some.inj hh
    exact ⟨l₁, l₂, rfl⟩

/-- The predecessor that a back-linked list gives every cell but the first. -/
theorem BackLinks.prev_eq {prev : α → Option α} (h : BackLinks prev (l₁ ++ b :: a :: l₂)) :
    prev a = some b :=
  (List.isChain_append_cons_cons.1 h).2.1

theorem Links.walk_eq (h : Links next p l) {n : ℕ} (hn : l.length ≤ n) : walk next n p = l := by
  induction l generalizing p n with
  | nil =>
    obtain rfl : p = none := h
    cases n <;> rfl
  | cons a l ih =>
    obtain ⟨rfl, h⟩ := h
    cases n with
    | zero => cases hn
    | succ n => rw [walk, ih h (Nat.le_of_succ_le_succ hn)]

/-- A walk that may take a step takes none from null only. -/
theorem walk_eq_nil_iff {n : ℕ} (hn : 0 < n) : walk next n p = [] ↔ p = none := by
  obtain ⟨n, rfl⟩ : ∃ k, n = k + 1 := ⟨n - 1, by omega⟩
  cases p <;> simp [walk]

end Shape

section Update

variable [DecidableEq α] {next : α → Option α} {p q : Option α} {l l₁ l₂ : List α} {a b : α}

theorem Links.update (h : Links next p l) (ha : a ∉ l) : Links (Function.update next a q) p l :=
  h.congr fun _ hb => Function.update_of_ne (ne_of_mem_of_not_mem hb ha) _ _

/-- Pushing a new cell in front. -/
theorem Links.push (h : Links next p l) (ha : a ∉ l) :
    Links (Function.update next a p) (some a) (a :: l) := by
  refine ⟨rfl, ?_⟩
  rw [Function.update_self]
  exact h.update ha

/-- Bypassing the cell after `b`. -/
theorem Links.bypass (h : Links next p (l₁ ++ b :: a :: l₂)) :
    Links (Function.update next b (next a)) p (l₁ ++ b :: l₂) := by
  have hd := h.nodup
  induction l₁ generalizing p with
  | nil =>
    refine ⟨h.1, ?_⟩
    rw [Function.update_self]
    exact h.2.2.update fun hb => by simp [hb] at hd
  | cons c l₁ ih =>
    refine ⟨h.1, ?_⟩
    rw [Function.update_of_ne]
    · exact ih h.2 (List.nodup_cons.1 hd).2
    · rintro rfl
      simp at hd

/-- Appending a new last cell after the last one. -/
theorem Links.snoc (h : Links next p (l ++ [b])) (ha : a ∉ l ++ [b]) (hn : next a = none) :
    Links (Function.update next b (some a)) p (l ++ [b, a]) := by
  have hd := h.nodup
  induction l generalizing p with
  | nil =>
    have hab : a ≠ b := by simpa using ha
    exact ⟨h.1, by rw [Function.update_self], by rw [Function.update_of_ne hab, hn]; rfl⟩
  | cons c l ih =>
    have hcb : c ≠ b := by
      rintro rfl
      simp at hd
    refine ⟨h.1, ?_⟩
    rw [Function.update_of_ne hcb]
    exact ih h.2 (fun hm => ha (List.mem_cons_of_mem c hm)) (List.nodup_cons.1 hd).2

theorem BackLinks.update {prev : α → Option α} (h : BackLinks prev l) (ha : a ∉ l.tail) :
    BackLinks (Function.update prev a q) l := by
  refine List.IsChain.imp_of_mem_tail_imp (fun b c _ hc hbc => ?_) h
  rw [Function.update_of_ne (ne_of_mem_of_not_mem hc ha)]
  exact hbc

end Update

/-! ## Partly doubly linked lists -/

/-- The fields of a doubly linked list: its head, and both links of every cell. -/
@[ext] structure DList (α : Type*) where
  head : Option α
  next : α → Option α
  prev : α → Option α

section DList

variable [DecidableEq α]

/-- Put `a` in front. The `prev` field of `a` itself is left as it was. -/
def DList.pushFront (d : DList α) (a : α) : DList α where
  head := some a
  next := Function.update d.next a d.head
  prev := match d.head with
    | none => d.prev
    | some b => Function.update d.prev b (some a)

/-- Take `a` out through its `prev` field, which is not looked at when `a` is the head. -/
def DList.unlink (d : DList α) (a : α) : DList α where
  head := if d.head = some a then d.next a else d.head
  next := if d.head = some a then d.next else
    match d.prev a with
    | none => d.next
    | some b => Function.update d.next b (d.next a)
  prev := match d.next a with
    | none => d.prev
    | some c => Function.update d.prev c (d.prev a)

/-- `unlink` takes `a` out of the list `l`: `a` is the head, or its `prev` field names its
predecessor in `l`. -/
def DList.Unlinkable (d : DList α) (l : List α) (a : α) : Prop :=
  d.head = some a ∨ ∃ b ∈ l, d.prev a = some b ∧ d.next b = some a

variable {d : DList α} {l l₁ l₂ : List α} {a b : α}

theorem DList.pushFront_links (h : Links d.next d.head l) (ha : a ∉ l) :
    Links (d.pushFront a).next (d.pushFront a).head (a :: l) :=
  h.push ha

theorem DList.pushFront_backLinks (h : Links d.next d.head l) (hb : BackLinks d.prev l) :
    BackLinks (d.pushFront a).prev (a :: l) := by
  have hd := h.nodup
  unfold pushFront
  rw [h.head]
  cases l with
  | nil => exact List.isChain_singleton a
  | cons c l =>
    refine List.isChain_cons_cons.2 ⟨Function.update_self _ _ _, ?_⟩
    exact hb.update (List.nodup_cons.1 hd).1

omit [DecidableEq α] in
/-- A back-linked list can be unlinked everywhere. -/
theorem DList.unlinkable_of_backLinks (h : Links d.next d.head (l₁ ++ a :: l₂))
    (hb : BackLinks d.prev (l₁ ++ a :: l₂)) : d.Unlinkable (l₁ ++ a :: l₂) a := by
  rcases List.eq_nil_or_concat l₁ with rfl | ⟨l₀, b, rfl⟩
  · exact Or.inl h.1
  · rw [List.concat_eq_append, List.append_assoc, List.singleton_append] at h hb ⊢
    exact Or.inr ⟨b, by simp, hb.prev_eq, h.next_eq⟩

omit [DecidableEq α] in
/-- Only the head of a list is pointed to by its head pointer. -/
theorem Links.eq_nil_of_head (h : Links d.next d.head (l₁ ++ a :: l₂)) (ha : d.head = some a) :
    l₁ = [] := by
  have hd := h.nodup
  rw [h.head] at ha
  cases l₁ with
  | nil => rfl
  | cons c l₁ =>
    cases ha
    simp at hd

/-- A list has one predecessor for each of its cells. -/
theorem Links.eq_concat_of_next (h : Links d.next d.head (l₁ ++ a :: l₂))
    (hb : b ∈ l₁ ++ a :: l₂) (hn : d.next b = some a) : ∃ l₀, l₁ = l₀ ++ [b] := by
  obtain ⟨m₁, m₂, he⟩ := h.split_of_next hb hn
  have hd := h.nodup
  have hlen : l₁.length = (m₁ ++ [b]).length := by
    have h1 : (l₁ ++ a :: l₂).idxOf a = l₁.length := by
      rw [List.idxOf_append_of_notMem fun hm => (List.nodup_append.1 hd).2.2 a hm a (by simp) rfl]
      simp
    have h2 : (l₁ ++ a :: l₂).idxOf a = (m₁ ++ [b]).length := by
      rw [he] at hd ⊢
      rw [show m₁ ++ b :: a :: m₂ = (m₁ ++ [b]) ++ a :: m₂ by simp] at hd ⊢
      rw [List.idxOf_append_of_notMem fun hm => (List.nodup_append.1 hd).2.2 a hm a (by simp) rfl]
      simp
    exact h1.symm.trans h2
  refine ⟨m₁, ?_⟩
  rw [show m₁ ++ b :: a :: m₂ = (m₁ ++ [b]) ++ a :: m₂ by simp] at he
  exact (List.append_inj he hlen).1

theorem DList.unlink_links (h : Links d.next d.head (l₁ ++ a :: l₂))
    (hu : d.Unlinkable (l₁ ++ a :: l₂) a) :
    Links (d.unlink a).next (d.unlink a).head (l₁ ++ l₂) := by
  unfold unlink
  by_cases ha : d.head = some a
  · obtain rfl := h.eq_nil_of_head ha
    rw [if_pos ha, if_pos ha]
    exact h.2
  · obtain ⟨b, hb, hp, hn⟩ := hu.resolve_left ha
    obtain ⟨l₀, rfl⟩ := h.eq_concat_of_next hb hn
    rw [if_neg ha, if_neg ha, hp]
    rw [List.append_assoc, List.singleton_append] at h ⊢
    exact h.bypass

/-- Lists that share no cell with `l` do not notice that a cell is taken out of it. -/
theorem DList.unlink_next_of_notMem {c : α} (hu : d.Unlinkable l a) (hc : c ∉ l) :
    (d.unlink a).next c = d.next c := by
  unfold unlink
  dsimp only
  split_ifs with ha
  · rfl
  · obtain ⟨b, hb, hp, -⟩ := hu.resolve_left ha
    rw [hp]
    exact Function.update_of_ne (ne_of_mem_of_not_mem hb hc).symm _ _

theorem DList.unlink_backLinks (h : Links d.next d.head (l₁ ++ a :: l₂))
    (hb : BackLinks d.prev (l₁ ++ a :: l₂)) :
    BackLinks (d.unlink a).prev (l₁ ++ l₂) := by
  have hd := h.nodup
  have hrest : BackLinks d.prev l₂ := (List.isChain_append.1 hb).2.1.tail
  unfold unlink
  rw [h.next_eq]
  cases l₂ with
  | nil =>
    rw [List.append_nil]
    exact (List.isChain_append.1 hb).1
  | cons c l₂ =>
    have hc : c ∉ l₂ := by
      have := (List.nodup_append.1 hd).2.1
      simp at this
      exact this.2.1
    have hright := hrest.update (q := d.prev a) hc
    rcases List.eq_nil_or_concat l₁ with rfl | ⟨l₀, b, rfl⟩
    · exact hright
    · rw [List.concat_eq_append, List.append_assoc, List.singleton_append] at hb hd ⊢
      have hleft : BackLinks d.prev (l₀ ++ [b]) := (List.isChain_append_cons_cons.1 hb).1
      have hcl : c ∉ (l₀ ++ [b]).tail := fun hm => by
        have := List.mem_of_mem_tail hm
        simp only [List.mem_append, List.mem_singleton] at this
        rcases this with hm | rfl
        · exact (List.nodup_append.1 hd).2.2 c hm c (by simp) rfl
        · simp [List.nodup_append] at hd
      refine List.isChain_append_cons_cons.2 ⟨hleft.update hcl, ?_, hright⟩
      exact (Function.update_self _ _ _).trans hb.prev_eq

/-- Cells outside a back-linked list keep their `prev` field when the list is unlinked. -/
theorem DList.unlink_prev_of_notMem {c : α} (h : Links d.next d.head (l₁ ++ a :: l₂))
    (hc : c ∉ l₁ ++ a :: l₂) : (d.unlink a).prev c = d.prev c := by
  unfold unlink
  rw [h.next_eq]
  cases l₂ with
  | nil => rfl
  | cons b l₂ => exact Function.update_of_ne (fun he => hc (by simp [he])) _ _

end DList

end PointerList
