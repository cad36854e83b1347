import Mathlib.Data.List.Basic

/-!
# Memory as a function of the address

`write` stores a list of cells from an address on, `slice` reads a region back.
-/

namespace ByteMemory

variable {β : Type*}

/-- Store `bs` from address `a` on. -/
def write (m : ℕ → β) (a : ℕ) (bs : List β) : ℕ → β := fun i =>
  if a ≤ i then (bs[i - a]?).getD (m i) else m i

/-- The `n` cells from address `a` on. -/
def slice (m : ℕ → β) (a n : ℕ) : List β :=
  (List.range n).map fun i => m (a + i)

@[simp] theorem length_slice (m : ℕ → β) (a n : ℕ) : (slice m a n).length = n := by
  simp [slice]

@[simp] theorem slice_zero (m : ℕ → β) (a : ℕ) : slice m a 0 = [] := rfl

theorem slice_add (m : ℕ → β) (a k n : ℕ) :
    slice m a (k + n) = slice m a k ++ slice m (a + k) n := by
  unfold slice
  rw [List.range_add, List.map_append, List.map_map]
  simp only [Function.comp_def, Nat.add_assoc]

theorem take_slice (m : ℕ → β) (a : ℕ) {k n : ℕ} (h : k ≤ n) :
    (slice m a n).take k = slice m a k := by
  obtain ⟨j, rfl⟩ := Nat.exists_eq_add_of_le h
  rw [slice_add, List.take_left' (length_slice m a k)]

theorem slice_congr {m m' : ℕ → β} {a n : ℕ} (h : ∀ i, a ≤ i → i < a + n → m i = m' i) :
    slice m a n = slice m' a n := by
  refine List.map_congr_left fun i hi => h _ (Nat.le_add_right a i) ?_
  have := List.mem_range.1 hi
  omega

/-- A write leaves the regions it does not meet as they were. -/
theorem slice_write_of_disjoint {m : ℕ → β} {a n b : ℕ} {bs : List β}
    (h : a + n ≤ b ∨ b + bs.length ≤ a) : slice (write m b bs) a n = slice m a n := by
  refine slice_congr fun i hi hn => ?_
  unfold write
  split_ifs with hb
  · rw [List.getElem?_eq_none (by omega), Option.getD_none]
  · rfl

theorem slice_write_self (m : ℕ → β) (a : ℕ) (bs : List β) :
    slice (write m a bs) a bs.length = bs := by
  refine List.ext_getElem (length_slice _ _ _) fun i hi hb => ?_
  simp [slice, write, hb]

/-- Writing just behind a region extends it. -/
theorem slice_write_append (m : ℕ → β) (a n : ℕ) (bs : List β) :
    slice (write m (a + n) bs) a (n + bs.length) = slice m a n ++ bs := by
  rw [slice_add, slice_write_of_disjoint (Or.inl (Nat.le_refl _)), slice_write_self]

end ByteMemory
