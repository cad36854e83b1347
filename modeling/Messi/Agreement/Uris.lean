import Messi.PyClient.Uri
import Messi.Uri

/-!
# The URI parsers of C and Python

`messi_parse_tcp_uri()` reads the port with `atoi()`, which stops at the first byte that is no
digit, and `parse_tcp_uri()` reads it with `int()`, which takes all of the text or fails. So the
parsers agree on an address whose host fits the buffer exactly if the port is an integer for Python
that C reads in full and an `int` holds, or one of zeros only (`uris_agree_iff`).
-/

namespace Messi.Agreement

open ByteMemory Utf8
open PyClient (Unicode Numeral numeral unsign asciiSpace digitOrSeparator separated digits isInteger
  ofSign toAscii)

/-- C accepts a URI for a host buffer of 16 bytes exactly if Python does with a host of at most 15
bytes, and both find the same host and the same port. -/
def UrisAgree (u : Unicode) (maxDigits : ℕ) (uri : List Char) : Prop :=
  ∀ (buf : ℕ → UInt8) (port : ℤ),
    let r := parseTcpUri (utf8 uri) buf 16 port
    let py := PyClient.parseTcpUri u maxDigits uri
    (r.res = 0 ↔ ∃ host n, py = .ok (host, n) ∧ (utf8 host).length ≤ 15) ∧
      ∀ host n, r.res = 0 → py = .ok (host, n) →
        slice r.host 0 ((utf8 host).length + 1) = utf8 host ++ [0] ∧ r.port = n

/-- An `int` holds the number. -/
def InInt (n : ℤ) : Prop := -2 ^ 31 ≤ n ∧ n < 2 ^ 31

/-- Whitespace and a sign of ASCII, digits of ASCII, and then nothing but whitespace; an `int` holds
the number. -/
def PlainPort (u : Unicode) (maxDigits : ℕ) (text : List Char) : Prop :=
  let n := numeral Char.isDigit text
  n.number ≠ [] ∧ (n.rest.map (toAscii u)).all asciiSpace = true ∧
    (maxDigits = 0 ∨ n.number.length ≤ maxDigits) ∧
    InInt (ofSign n.negative (Nat.ofDigitChars 10 n.number 0))

/-- An integer for Python, all of whose digits are zeros. -/
def ZeroPort (u : Unicode) (maxDigits : ℕ) (text : List Char) : Prop :=
  isInteger maxDigits (text.map (toAscii u)) = true ∧
    ∀ c ∈ text.map (toAscii u), c.isDigit = true → c = '0'

/-- The URI is no address, or its host does not fit the buffer, or the port is one that both read
alike. -/
def AlikeUri (u : Unicode) (maxDigits : ℕ) (uri : List Char) : Prop :=
  uri.take 6 ≠ PyClient.scheme ∨ ':' ∉ uri.drop 6 ∨
    ∃ host port, uri.drop 6 = host ++ ':' :: port ∧ ':' ∉ host ∧
      (16 ≤ (utf8 host).length ∨
        ':' ∉ port ∧ (PlainPort u maxDigits port ∨ ZeroPort u maxDigits port))

section

variable {u : Unicode} {maxDigits : ℕ} {cs ds host port text : List Char} {c : Char} {n : ℤ}

/-! ## The port in C -/

theorem onAscii_isspace : onAscii isspace = asciiSpace := by
  funext c
  cases ha : isAscii c with
  | false =>
    have hs : asciiSpace c = false := by
      rw [Bool.eq_false_iff]
      exact fun h => absurd ((PyClient.isAscii_of_asciiSpace h).symm.trans ha) nofun
    rw [onAscii, ha, hs, Bool.false_and]
  | true =>
    rw [onAscii, ha, Bool.true_and, Bool.eq_iff_iff, isspace_iff, toNat_ofNat ha]
    simp only [asciiSpace, Bool.or_eq_true, Bool.and_eq_true, decide_eq_true_eq]
    rw [← Char.toNat_inj]
    rfl

theorem onAscii_isdigit : onAscii isdigit = Char.isDigit := by
  funext c
  cases ha : isAscii c with
  | false =>
    have hs : c.isDigit = false := by
      rw [Bool.eq_false_iff]
      exact fun h => absurd ((PyClient.isAscii_of_isDigit h).symm.trans ha) nofun
    rw [onAscii, ha, hs, Bool.false_and]
  | true =>
    rw [onAscii, ha, Bool.true_and, Bool.eq_iff_iff, isdigit_iff, toNat_ofNat ha,
      Char.isDigit_iff_toNat]
    rfl

theorem isspace_large {b : UInt8} (h : 128 ≤ b.toNat) : isspace b = false := by
  rw [Bool.eq_false_iff, Ne, isspace_iff]
  omega

theorem isdigit_large {b : UInt8} (h : 128 ≤ b.toNat) : isdigit b = false := by
  rw [Bool.eq_false_iff, Ne, isdigit_iff]
  omega

/-- A sign is the same in bytes and in characters. -/
theorem signed_utf8 (cs : List Char) : signed (utf8 cs) = ((unsign cs).1, utf8 (unsign cs).2) := by
  cases cs with
  | nil => rfl
  | cons c cs =>
    by_cases hminus : c = '-'
    · subst hminus
      rfl
    · by_cases hplus : c = '+'
      · subst hplus
        rfl
      · have hsign : onAscii (fun b => b = 45 || b = 43) c = false := by
          rw [Bool.eq_false_iff]
          intro h
          simp only [onAscii, Bool.and_eq_true, Bool.or_eq_true, decide_eq_true_eq] at h
          rcases h with ⟨ha, h | h⟩
          · exact hminus (ofNat_inj ha rfl h)
          · exact hplus (ofNat_inj ha rfl h)
        obtain ⟨b, bs, hb, hne⟩ := encode_of_not (fun b hb => by
          simp only [Bool.or_eq_false_iff, decide_eq_false_iff_not, ← UInt8.toNat_inj]
          exact ⟨fun h => absurd hb (by simp [h]), fun h => absurd hb (by simp [h])⟩) hsign
        rw [PyClient.unsign_cons_of_ne hminus hplus, utf8_cons, hb, List.cons_append]
        simp only [Bool.or_eq_false_iff, decide_eq_false_iff_not] at hne
        exact signed_cons_of_ne hne.1 hne.2

theorem strtol_utf8 (text : List Char) :
    strtol (utf8 text) = max (-2 ^ 63) (min (2 ^ 63 - 1)
      (ofSign (numeral Char.isDigit text).negative
        (Nat.ofDigitChars 10 (numeral Char.isDigit text).number 0))) := by
  have hascii : ∀ c ∈ ((unsign (text.dropWhile asciiSpace)).2.takeWhile Char.isDigit),
      isAscii c = true := fun c hc => PyClient.isAscii_of_isDigit (List.mem_takeWhile_imp hc)
  unfold strtol
  rw [dropWhile_utf8 fun _ => isspace_large, onAscii_isspace, signed_utf8]
  dsimp only
  rw [takeWhile_utf8 fun _ => isdigit_large, onAscii_isdigit, digitsValue_utf8 hascii]
  rfl

/-! ## Numbers -/

theorem ofDigitChars_eq_zero_iff (h : ∀ c ∈ ds, c.isDigit = true) :
    Nat.ofDigitChars 10 ds 0 = 0 ↔ ∀ c ∈ ds, c = '0' := by
  induction ds using List.reverseRecOn with
  | nil => simp
  | append_singleton ds c ih =>
    have hc : 48 ≤ c.toNat ∧ c.toNat ≤ 57 := Char.isDigit_iff_toNat.1 (h c (by simp))
    have hzero : c.toNat - '0'.toNat = 0 ↔ c = '0' := by
      rw [← Char.toNat_inj]
      show c.toNat - 48 = 0 ↔ c.toNat = 48
      omega
    rw [Nat.ofDigitChars_append, Nat.ofDigitChars_cons, Nat.ofDigitChars_nil, Nat.add_eq_zero_iff,
      Nat.mul_eq_zero, hzero, or_iff_right (by norm_num),
      ih fun d hd => h d (List.mem_append_left _ hd)]
    simp [or_imp, forall_and]

/-- More digits make a number at least ten times as large. -/
theorem le_ofDigitChars_append (ds : List Char) (h : cs ≠ []) :
    10 * Nat.ofDigitChars 10 ds 0 ≤ Nat.ofDigitChars 10 (ds ++ cs) 0 := by
  have hlen : 10 ^ 1 ≤ 10 ^ cs.length :=
    Nat.pow_le_pow_right (by norm_num) (List.length_pos_iff.2 h)
  rw [Nat.ofDigitChars_append,
    Nat.ofDigitChars_eq_ofDigitChars_zero (l := cs)]
  exact le_trans (Nat.mul_le_mul_right _ hlen) (Nat.le_add_right _ _)

theorem natAbs_ofSign (negative : Bool) (n : ℕ) : (ofSign negative n).natAbs = n := by
  cases negative <;> simp [ofSign]

theorem inInt_atoi (s : List UInt8) : InInt (atoi s) := by
  have hlow := Int.le_bmod (x := strtol s) (m := 2 ^ 32) (by norm_num)
  have hhigh := Int.bmod_lt (x := strtol s) (m := 2 ^ 32) (by norm_num)
  unfold InInt atoi
  omega

/-- A number that an `int` holds is what `atoi()` returns. -/
theorem atoi_of_inInt (h : InInt (ofSign (numeral Char.isDigit text).negative
    (Nat.ofDigitChars 10 (numeral Char.isDigit text).number 0))) :
    atoi (utf8 text) = ofSign (numeral Char.isDigit text).negative
      (Nat.ofDigitChars 10 (numeral Char.isDigit text).number 0) := by
  obtain ⟨hlow, hhigh⟩ := h
  unfold atoi
  rw [strtol_utf8, min_eq_right (by omega), max_eq_right (by omega)]
  exact Int.bmod_eq_of_le (by omega) (by omega)

/-- What `atoi()` returns is no further from zero than the number. -/
theorem natAbs_atoi_le (text : List Char) :
    (atoi (utf8 text)).natAbs ≤ Nat.ofDigitChars 10 (numeral Char.isDigit text).number 0 := by
  by_cases h : InInt (ofSign (numeral Char.isDigit text).negative
      (Nat.ofDigitChars 10 (numeral Char.isDigit text).number 0))
  · rw [atoi_of_inInt h, natAbs_ofSign]
  · have hn := natAbs_ofSign (numeral Char.isDigit text).negative
      (Nat.ofDigitChars 10 (numeral Char.isDigit text).number 0)
    obtain ⟨hlow, hhigh⟩ := inInt_atoi (utf8 text)
    unfold InInt at h
    omega

/-! ## The port in Python -/

/-- Only whitespace, digits and what is no ASCII at all are changed. -/
theorem toAscii_eq {d : Char} (hd : d.isDigit = false) (hspace : d ≠ ' ') (hbad : d ≠ '?')
    (h : toAscii u c = d) : c = d := by
  unfold toAscii at h
  split_ifs at h
  · exact h
  · exact absurd h.symm hspace
  · split at h
    · next k _ =>
      have hk : (Nat.digitChar k).isDigit = true :=
        Nat.isDigit_digitChar.trans (decide_eq_true k.isLt)
      rw [h, hd] at hk
      cases hk
    · exact absurd h.symm hbad

theorem unsign_map (u : Unicode) (cs : List Char) :
    unsign (cs.map (toAscii u)) = ((unsign cs).1, (unsign cs).2.map (toAscii u)) := by
  cases cs with
  | nil => rfl
  | cons c cs =>
    by_cases hminus : c = '-'
    · subst hminus
      rfl
    · by_cases hplus : c = '+'
      · subst hplus
        rfl
      · rw [List.map_cons, PyClient.unsign_cons_of_ne hminus hplus, PyClient.unsign_cons_of_ne
          (fun h => hminus (toAscii_eq rfl (by decide) (by decide) h))
          fun h => hplus (toAscii_eq rfl (by decide) (by decide) h)]
        rfl

theorem dropWhile_map_toAscii
    (h : ∀ c ∈ (cs.dropWhile asciiSpace).head?, asciiSpace (toAscii u c) = false) :
    (cs.map (toAscii u)).dropWhile asciiSpace = (cs.dropWhile asciiSpace).map (toAscii u) := by
  induction cs with
  | nil => rfl
  | cons c cs ih =>
    rw [List.map_cons]
    cases hc : asciiSpace c with
    | true =>
      rw [List.dropWhile_cons_of_pos hc] at h ⊢
      rw [PyClient.toAscii_of_ascii (PyClient.isAscii_of_asciiSpace hc),
        List.dropWhile_cons_of_pos hc, ih h]
    | false =>
      have hne : ¬ asciiSpace c = true := Bool.eq_false_iff.1 hc
      rw [List.dropWhile_cons_of_neg hne] at h ⊢
      rw [List.dropWhile_cons_of_neg (Bool.eq_false_iff.1 (h c rfl)), List.map_cons]

/-- Digits are digits for both, whatever the other characters are. -/
theorem numeral_map (u : Unicode) (h : (numeral Char.isDigit text).number ≠ []) :
    numeral digitOrSeparator (text.map (toAscii u)) =
      ⟨(numeral Char.isDigit text).negative,
        (numeral Char.isDigit text).number ++
          ((numeral Char.isDigit text).rest.map (toAscii u)).takeWhile digitOrSeparator,
        ((numeral Char.isDigit text).rest.map (toAscii u)).dropWhile digitOrSeparator⟩ := by
  have hdrop : (text.map (toAscii u)).dropWhile asciiSpace =
      (text.dropWhile asciiSpace).map (toAscii u) := by
    refine dropWhile_map_toAscii fun c hc => ?_
    unfold numeral at h
    generalize text.dropWhile asciiSpace = cs at h hc
    cases cs with
    | nil => cases hc
    | cons d cs =>
      obtain rfl : d = c := Option.some.inj hc
      by_cases hsign : d = '-' ∨ d = '+'
      · rcases hsign with rfl | rfl <;> rfl
      · obtain ⟨hminus, hplus⟩ := not_or.1 hsign
        rw [PyClient.unsign_cons_of_ne hminus hplus] at h
        have hd : d.isDigit = true := by
          by_contra hd
          exact h (List.takeWhile_cons_of_neg hd)
        rw [PyClient.toAscii_of_ascii (PyClient.isAscii_of_isDigit hd)]
        exact PyClient.not_asciiSpace_of_isDigit hd
  unfold numeral
  rw [hdrop, unsign_map]
  dsimp only
  generalize (unsign (text.dropWhile asciiSpace)).2 = cs
  have hdigit : ∀ c ∈ cs.takeWhile Char.isDigit, c.isDigit = true := fun c hc =>
    List.mem_takeWhile_imp hc
  have hnumber : ∀ c ∈ cs.takeWhile Char.isDigit, digitOrSeparator c = true := fun c hc => by
    rw [digitOrSeparator, hdigit c hc, Bool.true_or]
  have hmap : cs.map (toAscii u) =
      cs.takeWhile Char.isDigit ++ (cs.dropWhile Char.isDigit).map (toAscii u) := by
    conv_lhs => rw [← List.takeWhile_append_dropWhile (p := Char.isDigit) (l := cs)]
    rw [List.map_append, PyClient.map_toAscii hdigit]
  rw [hmap, List.takeWhile_append_of_pos hnumber, List.dropWhile_append_of_pos hnumber]

/-- Digits first are no matter for the underscores. -/
theorem separated_append (h : ∀ c ∈ ds, c.isDigit = true) (hne : ds ≠ []) (after : Bool) :
    separated after (ds ++ cs) = separated false cs := by
  induction ds generalizing after with
  | nil => exact absurd rfl hne
  | cons d ds ih =>
    have hd : d ≠ '_' := by
      rintro rfl
      exact absurd (h '_' List.mem_cons_self) (by decide)
    rw [List.cons_append, separated, if_neg hd]
    cases ds with
    | nil => rfl
    | cons e ds => exact ih (fun c hc => h c (List.mem_cons_of_mem _ hc)) (List.cons_ne_nil _ _) _

/-- There are digits behind underscores. -/
theorem eq_nil_of_separated (h : ∀ c ∈ cs, c = '_') (hs : separated false cs = true) : cs = [] := by
  cases cs with
  | nil => rfl
  | cons c cs =>
    obtain rfl := h c List.mem_cons_self
    rw [separated, if_pos rfl] at hs
    cases cs with
    | nil => cases hs
    | cons d cs =>
      obtain rfl := h d (by simp)
      cases hs

theorem all_asciiSpace_takeWhile (h : cs.all asciiSpace = true) :
    cs.takeWhile digitOrSeparator = [] ∧ cs.dropWhile digitOrSeparator = cs := by
  cases cs with
  | nil => exact ⟨rfl, rfl⟩
  | cons c cs =>
    have hc : asciiSpace c = true := List.all_eq_true.1 h c List.mem_cons_self
    have hnot := Bool.eq_false_iff.1 (PyClient.not_digitOrSeparator_of_asciiSpace hc)
    exact ⟨List.takeWhile_cons_of_neg hnot, List.dropWhile_cons_of_neg hnot⟩

theorem mem_unsign (h : c ∈ (unsign cs).2) : c ∈ cs := by
  unfold unsign at h
  split at h
  · exact List.mem_cons_of_mem _ h
  · exact List.mem_cons_of_mem _ h
  · exact h

theorem mem_unsign_of_isDigit (hd : c.isDigit = true) (h : c ∈ cs) : c ∈ (unsign cs).2 := by
  unfold unsign
  split
  · rcases List.mem_cons.1 h with rfl | h
    · cases hd
    · exact h
  · rcases List.mem_cons.1 h with rfl | h
    · cases hd
    · exact h
  · exact h

theorem mem_number {p : Char → Bool} (h : c ∈ (numeral p cs).number) : c ∈ cs :=
  (List.dropWhile_suffix _).subset (mem_unsign ((List.takeWhile_prefix _).subset h))

/-- The digits of an integer are all the digits of its text. -/
theorem mem_digits (hint : isInteger maxDigits cs = true) (hd : c.isDigit = true) (h : c ∈ cs) :
    c ∈ digits cs := by
  simp only [isInteger, Bool.and_eq_true] at hint
  obtain ⟨⟨-, hrest⟩, -⟩ := hint
  have hspace : asciiSpace c = false := PyClient.not_asciiSpace_of_isDigit hd
  refine List.mem_filter.2 ⟨?_, hd⟩
  rw [← List.takeWhile_append_dropWhile (p := asciiSpace) (l := cs)] at h
  rcases List.mem_append.1 h with h | h
  · exact absurd (hspace.symm.trans (List.mem_takeWhile_imp h)) nofun
  · have hmem := mem_unsign_of_isDigit hd h
    rw [← List.takeWhile_append_dropWhile (p := digitOrSeparator)
      (l := (unsign (cs.dropWhile asciiSpace)).2)] at hmem
    rcases List.mem_append.1 hmem with h | h
    · exact h
    · exact absurd (hspace.symm.trans (List.all_eq_true.1 hrest c h)) nofun

/-- A port that C reads in full is the same for both. -/
theorem PlainPort.int_eq (h : PlainPort u maxDigits text) :
    PyClient.int u maxDigits text = some (atoi (utf8 text)) := by
  obtain ⟨hne, hrest, hlimit, hint⟩ := h
  obtain ⟨htake, hdrop⟩ := all_asciiSpace_takeWhile hrest
  have hdigit : ∀ c ∈ (numeral Char.isDigit text).number, c.isDigit = true := fun c hc =>
    List.mem_takeWhile_imp hc
  have hmap := numeral_map u hne
  rw [htake, hdrop, List.append_nil] at hmap
  have hdigits : digits (text.map (toAscii u)) = (numeral Char.isDigit text).number := by
    unfold digits
    rw [hmap]
    exact List.filter_eq_self.2 hdigit
  have hsep : separated true (numeral Char.isDigit text).number = true := by
    rw [← List.append_nil (numeral Char.isDigit text).number]
    exact separated_append hdigit hne true
  have hinteger : isInteger maxDigits (text.map (toAscii u)) = true := by
    unfold isInteger
    rw [hdigits, hmap]
    simp only [Bool.and_eq_true, Bool.or_eq_true, decide_eq_true_eq]
    exact ⟨⟨hsep, hrest⟩, hlimit⟩
  unfold PyClient.int
  dsimp only
  rw [if_pos hinteger, hdigits, hmap, atoi_of_inInt hint]

/-- Zero is the same for both, if nothing but its zeros is taken for digits. -/
theorem ZeroPort.int_eq (h : ZeroPort u maxDigits text) :
    PyClient.int u maxDigits text = some (atoi (utf8 text)) := by
  obtain ⟨hinteger, hzero⟩ := h
  have hvalue : Nat.ofDigitChars 10 (digits (text.map (toAscii u))) 0 = 0 := by
    refine (ofDigitChars_eq_zero_iff fun c hc => (List.mem_filter.1 hc).2).2 fun c hc => ?_
    obtain ⟨hmem, hd⟩ := List.mem_filter.1 hc
    exact hzero c (mem_number hmem) hd
  have hnumber : Nat.ofDigitChars 10 (numeral Char.isDigit text).number 0 = 0 := by
    refine (ofDigitChars_eq_zero_iff fun c hc => List.mem_takeWhile_imp hc).2 fun c hc => ?_
    have hd : c.isDigit = true := List.mem_takeWhile_imp hc
    refine hzero c (List.mem_map.2 ⟨c, mem_number hc, ?_⟩) hd
    exact PyClient.toAscii_of_ascii (PyClient.isAscii_of_isDigit hd)
  have hatoi := natAbs_atoi_le text
  rw [hnumber, Nat.le_zero, Int.natAbs_eq_zero] at hatoi
  unfold PyClient.int
  dsimp only
  rw [if_pos hinteger, hvalue, hatoi]
  cases (numeral digitOrSeparator (text.map (toAscii u))).negative <;> rfl

/-- The ports that are the same for both. -/
theorem int_eq_atoi_iff :
    PyClient.int u maxDigits text = some (atoi (utf8 text)) ↔
      PlainPort u maxDigits text ∨ ZeroPort u maxDigits text := by
  refine ⟨fun h => ?_, fun h => h.elim PlainPort.int_eq ZeroPort.int_eq⟩
  unfold PyClient.int at h
  dsimp only at h
  split_ifs at h with hinteger
  have hvalue := congrArg Int.natAbs (Option.some.inj h)
  rw [natAbs_ofSign] at hvalue
  by_cases hzero : Nat.ofDigitChars 10 (digits (text.map (toAscii u))) 0 = 0
  · refine Or.inr ⟨hinteger, fun c hc hd => ?_⟩
    exact (ofDigitChars_eq_zero_iff fun c hc => (List.mem_filter.1 hc).2).1 hzero c
      (mem_digits hinteger hd hc)
  · have hle := natAbs_atoi_le text
    have hne : (numeral Char.isDigit text).number ≠ [] := by
      intro hnil
      rw [hnil, Nat.ofDigitChars_nil] at hle
      omega
    have hmap := numeral_map u hne
    have hdigit : ∀ c ∈ (numeral Char.isDigit text).number, c.isDigit = true := fun c hc =>
      List.mem_takeWhile_imp hc
    generalize hmore : ((numeral Char.isDigit text).rest.map (toAscii u)).takeWhile
      digitOrSeparator = more at hmap
    have hdigits : digits (text.map (toAscii u)) =
        (numeral Char.isDigit text).number ++ more.filter Char.isDigit := by
      unfold digits
      rw [hmap, List.filter_append, List.filter_eq_self.2 hdigit]
    by_cases hfilter : more.filter Char.isDigit = []
    · -- C has read all the digits
      rw [hfilter, List.append_nil] at hdigits
      simp only [isInteger, Bool.and_eq_true, Bool.or_eq_true, decide_eq_true_eq] at hinteger
      obtain ⟨⟨hsep, hrest⟩, hlimit⟩ := hinteger
      rw [hmap] at hsep hrest
      rw [separated_append hdigit hne] at hsep
      have hunder : ∀ c ∈ more, c = '_' := by
        intro c hc
        have hmem : c ∈ ((numeral Char.isDigit text).rest.map (toAscii u)).takeWhile
          digitOrSeparator := hmore ▸ hc
        have hor := List.mem_takeWhile_imp hmem
        simp only [digitOrSeparator, Bool.or_eq_true, decide_eq_true_eq] at hor
        exact hor.resolve_left (List.filter_eq_nil_iff.1 hfilter c hc)
      have hnil := eq_nil_of_separated hunder hsep
      have hall := List.takeWhile_append_dropWhile (p := digitOrSeparator)
        (l := (numeral Char.isDigit text).rest.map (toAscii u))
      rw [hmore, hnil, List.nil_append] at hall
      refine Or.inl ⟨hne, hall ▸ hrest, hdigits ▸ hlimit, ?_⟩
      rw [hdigits, hmap] at h
      exact Option.some.inj h ▸ inInt_atoi _
    · -- and here it has not
      have hmuch := le_ofDigitChars_append (numeral Char.isDigit text).number hfilter
      rw [← hdigits] at hmuch
      omega

/-! ## URIs -/

theorem ascii_scheme : ∀ c ∈ PyClient.scheme, isAscii c = true := List.all_eq_true.1 rfl

/-- The scheme is the same in bytes and in characters. -/
theorem take_utf8_iff : (utf8 text).take 6 = tcpScheme ↔ text.take 6 = PyClient.scheme := by
  have hbytes : utf8 PyClient.scheme <+: utf8 text ↔ tcpScheme = (utf8 text).take 6 :=
    List.prefix_iff_eq_take
  have hchars : PyClient.scheme <+: text ↔ PyClient.scheme = text.take 6 :=
    List.prefix_iff_eq_take
  rw [eq_comm, ← hbytes, utf8_prefix_iff ascii_scheme, hchars, eq_comm]

theorem colon_notMem_utf8 (h : ':' ∉ cs) : colon ∉ utf8 cs := by
  intro hmem
  obtain ⟨c, hc, ha, hcolon⟩ := of_mem_utf8 hmem (by decide)
  rw [ofNat_inj rfl ha (c := ':') hcolon] at h
  exact h hc

theorem address_inj {host' port' : List Char} (h : ':' ∉ host) (h' : ':' ∉ host')
    (heq : host ++ ':' :: port = host' ++ ':' :: port') : host = host' ∧ port = port' := by
  induction host generalizing host' with
  | nil =>
    cases host' with
    | nil => exact ⟨rfl, (List.cons.inj heq).2⟩
    | cons c host' => exact absurd ((List.cons.inj heq).1 ▸ List.mem_cons_self) h'
  | cons c host ih =>
    cases host' with
    | nil => exact absurd ((List.cons.inj heq).1 ▸ List.mem_cons_self) h
    | cons c' host' =>
      obtain ⟨rfl, hrest⟩ := List.cons.inj heq
      obtain ⟨rfl, hport⟩ := ih (fun hm => h (List.mem_cons_of_mem _ hm))
        (fun hm => h' (List.mem_cons_of_mem _ hm)) hrest
      exact ⟨rfl, hport⟩

/-- They agree if C fails, and Python does not find a host that fits the buffer. -/
theorem urisAgree_of_fail (hc : ∀ buf port, (parseTcpUri (utf8 text) buf 16 port).res = -1)
    (hpy : ∀ host n, PyClient.parseTcpUri u maxDigits text = .ok (host, n) →
      16 ≤ (utf8 host).length) : UrisAgree u maxDigits text := by
  intro buf port
  have hne : (parseTcpUri (utf8 text) buf 16 port).res ≠ 0 := by
    rw [hc]
    norm_num
  refine ⟨iff_of_false hne ?_, fun _ _ h => absurd h hne⟩
  rintro ⟨host, n, hok, hle⟩
  have := hpy host n hok
  omega

theorem urisAgree_of_error {e : String}
    (hc : ∀ buf port, (parseTcpUri (utf8 text) buf 16 port).res = -1)
    (hpy : PyClient.parseTcpUri u maxDigits text = .error e) : UrisAgree u maxDigits text := by
  refine urisAgree_of_fail hc fun host n hok => ?_
  rw [hpy] at hok
  cases hok

/-- The bytes of an address. -/
theorem utf8_address (host port : List Char) :
    utf8 (PyClient.scheme ++ (host ++ ':' :: port)) =
      tcpScheme ++ (utf8 host ++ colon :: utf8 port) := by
  rw [utf8_append, utf8_append, utf8_cons]
  rfl

/-- The host ends at the first colon for both. -/
theorem urisAgree_address (hhost : ':' ∉ host) :
    UrisAgree u maxDigits (PyClient.scheme ++ (host ++ ':' :: port)) ↔ 16 ≤ (utf8 host).length ∨
      ':' ∉ port ∧ (PlainPort u maxDigits port ∨ ZeroPort u maxDigits port) := by
  have hpy := PyClient.parseTcpUri_uri u maxDigits port hhost
  have hc := parseTcpUri_uri (colon_notMem_utf8 hhost) (utf8 port)
  by_cases hlong : 16 ≤ (utf8 host).length
  · refine iff_of_true (urisAgree_of_fail (fun buf p => ?_) ?_) (Or.inl hlong)
    · rw [utf8_address, hc, if_pos (by omega)]
    · intro host' n hok
      rw [hpy] at hok
      cases h : (if ':' ∈ port then none else PyClient.int u maxDigits port) with
      | none =>
        rw [h] at hok
        cases hok
      | some k =>
        rw [h] at hok
        cases hok
        exact hlong
  · have hfits : ∀ buf p, parseTcpUri (utf8 (PyClient.scheme ++ (host ++ ':' :: port))) buf 16 p =
        ⟨0, write (write buf 0 (utf8 host)) (utf8 host).length [0], atoi (utf8 port)⟩ :=
      fun buf p => by rw [utf8_address, hc, if_neg (by omega)]
    rw [or_iff_right hlong, ← int_eq_atoi_iff]
    constructor
    · intro h
      obtain ⟨hres, hboth⟩ := h (fun _ => 0) 0
      obtain ⟨host', n, hok, -⟩ := hres.1 (by rw [hfits])
      have hport := (hboth host' n (by rw [hfits]) hok).2
      rw [hfits] at hport
      rw [hpy] at hok
      split_ifs at hok with hcolon
      refine ⟨hcolon, ?_⟩
      cases hint : PyClient.int u maxDigits port with
      | none =>
        rw [hint] at hok
        cases hok
      | some k =>
        rw [hint] at hok
        cases hok
        exact congrArg some hport.symm
    · rintro ⟨hcolon, hint⟩
      rw [if_neg hcolon, hint] at hpy
      intro buf p
      dsimp only
      rw [hfits, hpy]
      refine ⟨iff_of_true rfl ⟨host, _, rfl, by omega⟩, ?_⟩
      rintro host' n - hok
      cases hok
      refine ⟨?_, rfl⟩
      have hslice := slice_write_append (write buf 0 (utf8 host)) 0 (utf8 host).length [0]
      rw [slice_write_self, Nat.zero_add] at hslice
      exact hslice

/-- The two parsers agree on a URI exactly if it is no address, the host does not fit the buffer, or
the port is one that both read alike. -/
theorem uris_agree_iff (u : Unicode) (maxDigits : ℕ) (uri : List Char) :
    UrisAgree u maxDigits uri ↔ AlikeUri u maxDigits uri := by
  by_cases hscheme : uri.take 6 = PyClient.scheme
  · have huri : PyClient.scheme ++ uri.drop 6 = uri := hscheme ▸ List.take_append_drop 6 uri
    by_cases hcolon : ':' ∈ uri.drop 6
    · obtain ⟨host, port, hrest, hhost⟩ := List.eq_append_cons_of_mem hcolon
      rw [← huri, hrest, urisAgree_address hhost]
      constructor
      · exact fun h => Or.inr (Or.inr ⟨host, port, rfl, hhost, h⟩)
      · rintro (h | h | ⟨host', port', heq, hhost', h⟩)
        · exact absurd rfl h
        · exact absurd (List.mem_append_right host List.mem_cons_self) h
        · obtain ⟨rfl, rfl⟩ := address_inj hhost hhost' heq
          exact h
    · refine iff_of_true (urisAgree_of_error (fun buf port => ?_)
        (PyClient.parseTcpUri_of_notMem hcolon)) (Or.inr (Or.inl hcolon))
      have hbytes : utf8 uri = tcpScheme ++ utf8 (uri.drop 6) := by
        conv_lhs => rw [← huri, utf8_append]
        rfl
      rw [hbytes, parseTcpUri_of_notMem (colon_notMem_utf8 hcolon)]
  · have hfail : ∀ buf port, (parseTcpUri (utf8 uri) buf 16 port).res = -1 := fun buf port => by
      unfold parseTcpUri
      rw [if_pos fun h => hscheme (take_utf8_iff.1 h)]
    exact iff_of_true (urisAgree_of_error hfail (PyClient.parseTcpUri_of_take hscheme))
      (Or.inl hscheme)

end

/-- Nothing is known of the characters beyond ASCII. -/
def asciiOnly : Unicode := ⟨fun _ => false, fun _ => none⟩

/-- `tcp://h:abc`; C returns port zero, and Python raises a `ValueError`. -/
theorem not_urisAgree_letters :
    ¬ UrisAgree asciiOnly 4300 (PyClient.scheme ++ ['h', ':', 'a', 'b', 'c']) := by
  intro h
  obtain ⟨hres, -⟩ := h (fun _ => 0) 0
  obtain ⟨host, n, hok, -⟩ := hres.1 (by decide)
  have hhost : ':' ∉ ['h'] := by decide
  have hint : PyClient.int asciiOnly 4300 ['a', 'b', 'c'] = none := by decide
  have herror := PyClient.parseTcpUri_uri asciiOnly 4300 ['a', 'b', 'c'] hhost
  rw [if_neg (by decide), hint] at herror
  cases herror.symm.trans hok

end Messi.Agreement
