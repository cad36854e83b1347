import Mathlib.Data.List.Infix
import Mathlib.Data.List.Basic

/-!
# Traces

A trace is the list of the events of a run, newest first, so that an observation of what has
happened is a recursive function of it. `Always P` says of a trace that every event of it satisfied
`P` when it happened, after the events before it.
-/

namespace Trace

variable {α β : Type*} {P Q : List α → α → Prop} {l l' evs : List α} {e : α}

/-- Every event satisfies `P` together with the events before it. -/
def Always (P : List α → α → Prop) : List α → Prop
  | [] => True
  | e :: l => P l e ∧ Always P l

@[simp] theorem always_nil : Always P [] := trivial

@[simp] theorem always_cons : Always P (e :: l) ↔ P l e ∧ Always P l := Iff.rfl

instance [∀ l, DecidablePred (P l)] : DecidablePred (Always P) := fun l => by
  induction l with
  | nil => exact inferInstanceAs (Decidable True)
  | cons e l ih => exact instDecidableAnd

theorem Always.suffix (h : Always P l') (hl : l <:+ l') : Always P l := by
  obtain ⟨evs, rfl⟩ := hl
  induction evs with
  | nil => exact h
  | cons e evs ih => exact ih h.2

theorem Always.event (h : Always P l') (hl : e :: l <:+ l') : P l e := (h.suffix hl).1

theorem Always.append (h : Always P l) (he : ∀ e ∈ evs, ∀ l, P l e) : Always P (evs ++ l) := by
  induction evs with
  | nil => exact h
  | cons e evs ih =>
    exact ⟨he e List.mem_cons_self _, ih fun e' he' => he e' (List.mem_cons_of_mem e he')⟩

/-- It is enough to look at what a longer trace adds. -/
theorem Always.extend (h : Always P l) (hl : l <:+ l')
    (he : ∀ e r, e :: r <:+ l' → l <:+ r → P r e) : Always P l' := by
  obtain ⟨evs, rfl⟩ := hl
  induction evs with
  | nil => exact h
  | cons e evs ih =>
    refine ⟨he e _ List.suffix_rfl (List.suffix_append _ _), ih fun e' r hr => ?_⟩
    exact he e' r (hr.trans (List.suffix_cons _ _))

/-! ## Since the last beginning -/

/-- `f` is what the events say since the last one that begins anew, oldest first. -/
structure Collects (begins : α → Bool) (tells : List α → α → List β) (f : List α → List β) :
    Prop where
  nil : f [] = []
  cons : ∀ l e, f (e :: l) = if begins e then [] else f l ++ tells l e

variable {begins : α → Bool} {tells : List α → α → List β} {f : List α → List β}

/-- Nothing has begun anew. -/
theorem none_of_countP (hn : (evs ++ l).countP begins = l.countP begins) :
    ∀ e ∈ evs, begins e = false := by
  rw [List.countP_append] at hn
  have hzero := List.countP_eq_zero.1 (Nat.add_eq_right.1 hn)
  exact fun e he => Bool.eq_false_iff.2 (hzero e he)

/-- What every event only adds to, unless it begins anew, grows until something does. -/
theorem prefix_of_suffix (h : ∀ l e, begins e = false → f l <+: f (e :: l)) (hl : l <:+ l')
    (hn : l'.countP begins = l.countP begins) : f l <+: f l' := by
  obtain ⟨evs, rfl⟩ := hl
  have hnone := none_of_countP hn
  clear hn
  induction evs with
  | nil => exact List.prefix_rfl
  | cons e evs ih =>
    have hrest := ih fun e' he' => hnone e' (List.mem_cons_of_mem e he')
    exact hrest.trans (h _ e (hnone e List.mem_cons_self))

theorem Collects.prefix_of_suffix (h : Collects begins tells f) (hl : l <:+ l')
    (hn : l'.countP begins = l.countP begins) : f l <+: f l' := by
  refine Trace.prefix_of_suffix (fun l e he => ?_) hl hn
  rw [h.cons, he]
  exact List.prefix_append _ _

end Trace
