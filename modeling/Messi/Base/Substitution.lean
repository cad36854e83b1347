import Mathlib.Data.List.Basic

/-!
# Substitution of words

A text is scanned from left to right: where one of some words begins, the first one in their order
is found, and the scan goes on behind it. `sub` replaces the words found, as a substitution by a
regular expression does whose alternatives are these words.
-/

namespace Substitution

variable {α : Type*}

/-- A word that is found, or a character that begins none. -/
inductive Token (α : Type*) where
  | word (w : List α)
  | char (c : α)
  deriving DecidableEq

/-- What a token stands for in the text. -/
def Token.text : Token α → List α
  | .word w => w
  | .char c => [c]

/-- What a token becomes when words are replaced. -/
def Token.replace (f : List α → List α) : Token α → List α
  | .word w => f w
  | .char c => [c]

section

variable [BEq α]

/-- The first of the words that the text begins with. -/
def first? (words : List (List α)) (s : List α) : Option (List α) := words.find? (·.isPrefixOf s)

/-- The tokens of a text, of which a number of characters have been taken already. -/
def scan (words : List (List α)) : ℕ → List α → List (Token α)
  | _, [] => []
  | k + 1, _ :: s => scan words k s
  | 0, c :: s =>
    match first? words (c :: s) with
    | some w => .word w :: scan words (w.length - 1) s
    | none => .char c :: scan words 0 s

def tokens (words : List (List α)) (s : List α) : List (Token α) := scan words 0 s

def sub (words : List (List α)) (f : List α → List α) (s : List α) : List α :=
  (tokens words s).flatMap (Token.replace f)

/-- The words that are found in a text. -/
def found (words : List (List α)) (s : List α) : List (List α) :=
  (tokens words s).filterMap fun
    | .word w => some w
    | .char _ => none

end

section

variable [BEq α] [LawfulBEq α] {words : List (List α)} {w s : List α} {c : α} {k : ℕ}

theorem first?_some (h : first? words s = some w) : w ∈ words ∧ w <+: s := by
  unfold first? at h
  have hp : w.isPrefixOf s = true := List.find?_some (p := fun w : List α => w.isPrefixOf s) h
  exact ⟨List.mem_of_find?_eq_some h, List.isPrefixOf_iff_prefix.1 hp⟩

/-- A word that begins with another character is not found. -/
theorem first?_none (h : ∀ w ∈ words, w.head? ≠ some c) (hne : [] ∉ words) :
    first? words (c :: s) = none := by
  unfold first?
  rw [List.find?_eq_none]
  intro w hw hp
  obtain ⟨t, ht⟩ := List.isPrefixOf_iff_prefix.1 hp
  cases w with
  | nil => exact hne hw
  | cons d w =>
    have hdc : d = c := (List.cons.inj ht).1
    exact h (d :: w) hw (congrArg some hdc)

omit [LawfulBEq α] in
theorem mem_found : w ∈ found words s ↔ .word w ∈ tokens words s := by
  unfold found
  rw [List.mem_filterMap]
  constructor
  · rintro ⟨t, ht, hw⟩
    cases t with
    | word v =>
      cases hw
      exact ht
    | char c => cases hw
  · intro hw
    exact ⟨.word w, hw, rfl⟩

theorem scan_mem (h : .word w ∈ scan words k s) : w ∈ words := by
  induction s generalizing k with
  | nil => cases h
  | cons c s ih =>
    cases k with
    | succ k => exact ih h
    | zero =>
      rw [scan] at h
      cases hfirst : first? words (c :: s) with
      | none =>
        rw [hfirst] at h
        rcases List.mem_cons.1 h with h | h
        · cases h
        · exact ih h
      | some v =>
        rw [hfirst] at h
        rcases List.mem_cons.1 h with h | h
        · cases h
          exact (first?_some hfirst).1
        · exact ih h

theorem found_mem (h : w ∈ found words s) : w ∈ words := scan_mem (mem_found.1 h)

/-- The tokens spell what is left of the text. -/
theorem scan_text (hne : [] ∉ words) (s : List α) (hk : k ≤ s.length) :
    (scan words k s).flatMap Token.text = s.drop k := by
  induction s generalizing k with
  | nil => rw [List.drop_nil, scan]; rfl
  | cons c s ih =>
    cases k with
    | succ k => exact ih (Nat.le_of_succ_le_succ hk)
    | zero =>
      rw [scan, List.drop_zero]
      cases h : first? words (c :: s) with
      | none => exact congrArg (c :: ·) (ih (Nat.zero_le _))
      | some w =>
        obtain ⟨hw, t, ht⟩ := first?_some h
        cases w with
        | nil => exact absurd hw hne
        | cons d w =>
          obtain ⟨rfl, hs⟩ := List.cons.inj ht
          obtain rfl : s = w ++ t := hs.symm
          have hlen : (d :: w).length - 1 = w.length := rfl
          have hrest := ih (k := w.length) (by simp)
          dsimp only
          rw [hlen, List.flatMap_cons, hrest, List.drop_left]
          rfl

theorem tokens_text (hne : [] ∉ words) (s : List α) : (tokens words s).flatMap Token.text = s :=
  scan_text hne s (Nat.zero_le _)

end

end Substitution
