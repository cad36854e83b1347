import Mathlib.Data.List.TakeWhile
import Mathlib.Tactic.Common

/-!
# UTF-8 and single bytes

Characters of ASCII are encoded as themselves, and the others as bytes that no character of ASCII
is. So a search for characters of ASCII finds the same in a text and in its encoding
(`takeWhile_utf8`, `dropWhile_utf8`).
-/

namespace Utf8

def isAscii (c : Char) : Bool := c.toNat < 128

/-- A text as it is encoded. -/
def utf8 (cs : List Char) : List UInt8 := cs.flatMap String.utf8EncodeChar

variable {c : Char} {cs ds : List Char} {b : UInt8} {p : UInt8 → Bool}

@[simp] theorem utf8_nil : utf8 [] = [] := rfl

@[simp] theorem utf8_cons (c : Char) (cs : List Char) :
    utf8 (c :: cs) = String.utf8EncodeChar c ++ utf8 cs := rfl

@[simp] theorem utf8_append (cs ds : List Char) : utf8 (cs ++ ds) = utf8 cs ++ utf8 ds :=
  List.flatMap_append

theorem toNat_ofNat (h : isAscii c = true) : (UInt8.ofNat c.toNat).toNat = c.toNat := by
  have hlt : c.toNat < 128 := of_decide_eq_true h
  rw [UInt8.toNat_ofNat']
  omega

theorem ofNat_inj {d : Char} (hc : isAscii c = true) (hd : isAscii d = true)
    (h : UInt8.ofNat c.toNat = UInt8.ofNat d.toNat) : c = d := by
  refine Char.toNat_inj.1 ?_
  rw [← toNat_ofNat hc, ← toNat_ofNat hd, h]

theorem encode_ascii (h : isAscii c = true) : String.utf8EncodeChar c = [UInt8.ofNat c.toNat] := by
  have hle : c.val.toNat ≤ 0x7f := Nat.le_of_lt_succ (of_decide_eq_true h)
  unfold String.utf8EncodeChar
  exact if_pos hle

/-- The bytes of a character outside of ASCII. -/
theorem encode_large (h : isAscii c = false) (hb : b ∈ String.utf8EncodeChar c) :
    128 ≤ b.toNat := by
  have hlt : ¬ c.val.toNat ≤ 0x7f := fun hle =>
    absurd (Nat.lt_succ_of_le hle) (of_decide_eq_false h)
  have hval : ∀ n, (UInt8.ofNat (n % 64 + 128)).toNat = n % 64 + 128 := by
    intro n
    rw [UInt8.toNat_ofNat']
    omega
  unfold String.utf8EncodeChar at hb
  dsimp only at hb
  rw [if_neg hlt] at hb
  split_ifs at hb
  all_goals
    simp only [List.mem_cons, List.not_mem_nil, or_false] at hb
    rcases hb with rfl | hb
    · rw [UInt8.toNat_ofNat']
      omega
    · rcases hb with rfl | rfl | rfl
      all_goals
        rw [hval]
        omega

/-- The character is in ASCII, and the predicate holds of its byte. -/
def onAscii (p : UInt8 → Bool) (c : Char) : Bool := isAscii c && p (UInt8.ofNat c.toNat)

/-- A character of which the predicate does not hold begins with a byte of which it does not. -/
theorem encode_of_not (hp : ∀ b : UInt8, 128 ≤ b.toNat → p b = false) (h : onAscii p c = false) :
    ∃ b bs, String.utf8EncodeChar c = b :: bs ∧ p b = false := by
  cases ha : isAscii c with
  | true =>
    refine ⟨_, [], encode_ascii ha, ?_⟩
    rwa [onAscii, ha, Bool.true_and] at h
  | false =>
    obtain ⟨b, bs, hbs⟩ := List.exists_cons_of_ne_nil (String.utf8EncodeChar_ne_nil (c := c))
    exact ⟨b, bs, hbs, hp b (encode_large ha (hbs ▸ List.mem_cons_self))⟩

theorem encode_of_onAscii (h : onAscii p c = true) :
    ∃ b, String.utf8EncodeChar c = [b] ∧ p b = true := by
  obtain ⟨ha, hb⟩ := Bool.and_eq_true_iff.1 h
  exact ⟨_, encode_ascii ha, hb⟩

theorem takeWhile_utf8 (hp : ∀ b : UInt8, 128 ≤ b.toNat → p b = false) (cs : List Char) :
    (utf8 cs).takeWhile p = utf8 (cs.takeWhile (onAscii p)) := by
  induction cs with
  | nil => rfl
  | cons c cs ih =>
    cases h : onAscii p c with
    | true =>
      obtain ⟨b, hb, hpb⟩ := encode_of_onAscii h
      rw [List.takeWhile_cons_of_pos h, utf8_cons, utf8_cons, hb, List.singleton_append,
        List.takeWhile_cons_of_pos hpb, ih]
      rfl
    | false =>
      obtain ⟨b, bs, hb, hpb⟩ := encode_of_not hp h
      rw [List.takeWhile_cons_of_neg (by simp [h]), utf8_cons, hb, List.cons_append,
        List.takeWhile_cons_of_neg (by simp [hpb])]
      rfl

theorem dropWhile_utf8 (hp : ∀ b : UInt8, 128 ≤ b.toNat → p b = false) (cs : List Char) :
    (utf8 cs).dropWhile p = utf8 (cs.dropWhile (onAscii p)) := by
  induction cs with
  | nil => rfl
  | cons c cs ih =>
    cases h : onAscii p c with
    | true =>
      obtain ⟨b, hb, hpb⟩ := encode_of_onAscii h
      rw [List.dropWhile_cons_of_pos h, utf8_cons, hb, List.singleton_append,
        List.dropWhile_cons_of_pos hpb, ih]
    | false =>
      obtain ⟨b, bs, hb, hpb⟩ := encode_of_not hp h
      rw [List.dropWhile_cons_of_neg (by simp [h]), utf8_cons, hb, List.cons_append,
        List.dropWhile_cons_of_neg (by simp [hpb])]

/-- A text begins with characters of ASCII if its encoding begins with their bytes. -/
theorem utf8_prefix_iff (h : ∀ c ∈ cs, isAscii c = true) : utf8 cs <+: utf8 ds ↔ cs <+: ds := by
  induction cs generalizing ds with
  | nil => exact iff_of_true (List.nil_prefix) List.nil_prefix
  | cons c cs ih =>
    have hc := h c List.mem_cons_self
    have hcs := fun d hd => h d (List.mem_cons_of_mem _ hd)
    rw [utf8_cons, encode_ascii hc, List.singleton_append]
    cases ds with
    | nil =>
      exact iff_of_false (fun hp => List.cons_ne_nil _ _ (List.prefix_nil.1 hp)) fun hp =>
        List.cons_ne_nil _ _ (List.prefix_nil.1 hp)
    | cons d ds =>
      cases hd : isAscii d with
      | true =>
        rw [utf8_cons, encode_ascii hd, List.singleton_append, List.cons_prefix_cons,
          List.cons_prefix_cons, ih hcs]
        exact and_congr_left fun _ => ⟨ofNat_inj hc hd, fun he => he ▸ rfl⟩
      | false =>
        obtain ⟨b, bs, hb⟩ := List.exists_cons_of_ne_nil (String.utf8EncodeChar_ne_nil (c := d))
        have hlarge : 128 ≤ b.toNat := encode_large hd (hb ▸ List.mem_cons_self)
        have hsmall : c.toNat < 128 := of_decide_eq_true hc
        rw [utf8_cons, hb, List.cons_append, List.cons_prefix_cons, List.cons_prefix_cons]
        refine iff_of_false (fun hp => ?_) fun hp => ?_
        · rw [← hp.1, toNat_ofNat hc] at hlarge
          omega
        · rw [hp.1, hd] at hc
          cases hc

/-- A byte of ASCII in an encoded text is that of one of its characters. -/
theorem of_mem_utf8 (h : b ∈ utf8 cs) (hb : b.toNat < 128) :
    ∃ c ∈ cs, isAscii c = true ∧ b = UInt8.ofNat c.toNat := by
  obtain ⟨c, hc, hmem⟩ := List.mem_flatMap.1 h
  cases ha : isAscii c with
  | false => exact absurd (encode_large ha hmem) (by omega)
  | true =>
    rw [encode_ascii ha, List.mem_singleton] at hmem
    exact ⟨c, hc, ha, hmem⟩

end Utf8
