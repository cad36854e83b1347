import Mathlib.Tactic
import Messi.Base.Utf8

/-!
# URIs in Python

`parse_tcp_uri()` of the client, and `int()` of a text. What Python knows of the characters beyond
ASCII, and the number of digits that `int()` accepts at most, are parameters.
-/

namespace Messi.PyClient

open Utf8

/-! ## `int()` -/

/-- The characters beyond ASCII that are whitespace, and those that are decimal digits. -/
structure Unicode where
  isSpace : Char → Bool
  decimal : Char → Option (Fin 10)

/-- `int()` turns whitespace and digits into those of ASCII first. -/
def toAscii (u : Unicode) (c : Char) : Char :=
  if isAscii c then c
  else if u.isSpace c then ' '
  else
    match u.decimal c with
    | some d => Nat.digitChar d
    | none => '?'

/-- The whitespace of ASCII that is stripped. -/
def asciiSpace (c : Char) : Bool := c = ' ' || (9 ≤ c.toNat && c.toNat ≤ 13)

/-- A digit, or an underscore between two digits. -/
def digitOrSeparator (c : Char) : Bool := c.isDigit || c = '_'

/-- No underscore comes first or last, or after another one; `after` says whether the character
before the text is no digit. -/
def separated : Bool → List Char → Bool
  | after, [] => !after
  | after, c :: cs => if c = '_' then !after && separated true cs else separated false cs

/-- An optional sign, and what follows it. -/
def unsign : List Char → Bool × List Char
  | '-' :: cs => (true, cs)
  | '+' :: cs => (false, cs)
  | cs => (false, cs)

/-- A text, cut into whitespace, a sign, characters of a number, and what follows them. -/
structure Numeral where
  negative : Bool
  number : List Char
  rest : List Char

def numeral (p : Char → Bool) (cs : List Char) : Numeral :=
  let (negative, cs) := unsign (cs.dropWhile asciiSpace)
  ⟨negative, cs.takeWhile p, cs.dropWhile p⟩

/-- The digits of a text of ASCII. -/
def digits (cs : List Char) : List Char :=
  (numeral digitOrSeparator cs).number.filter Char.isDigit

/-- A text of ASCII stands for an integer; `maxDigits` is `0` if there is no limit. -/
def isInteger (maxDigits : ℕ) (cs : List Char) : Bool :=
  separated true (numeral digitOrSeparator cs).number &&
    (numeral digitOrSeparator cs).rest.all asciiSpace &&
    (maxDigits = 0 || (digits cs).length ≤ maxDigits)

def ofSign (negative : Bool) (n : ℕ) : ℤ := if negative then -n else n

/-- `int()`; `none` is a `ValueError`. -/
def int (u : Unicode) (maxDigits : ℕ) (text : List Char) : Option ℤ :=
  let cs := text.map (toAscii u)
  if isInteger maxDigits cs then
    some (ofSign (numeral digitOrSeparator cs).negative (Nat.ofDigitChars 10 (digits cs) 0))
  else none

/-! ## `parse_tcp_uri()` -/

/-- `tcp://` -/
def scheme : List Char := ['t', 'c', 'p', ':', '/', '/']

/-- The text of the `ValueError`. -/
def badUri (uri : List Char) : String :=
  "Expected URI on the form tcp://<host>:<port>, but got '" ++ String.ofList uri ++ "'."

def parseTcpUri (u : Unicode) (maxDigits : ℕ) (uri : List Char) : Except String (List Char × ℤ) :=
  if uri.take 6 ≠ scheme then throw (badUri uri)
  else
    match (uri.drop 6).splitOn ':' with
    | [address, port] =>
      match int u maxDigits port with
      | some n => pure (address, n)
      | none => throw (badUri uri)
    | _ => throw (badUri uri)

section

variable {u : Unicode} {maxDigits : ℕ} {cs host : List Char} {c : Char}

/-! ## Characters -/

theorem toAscii_of_ascii (h : isAscii c = true) : toAscii u c = c := if_pos h

theorem isAscii_of_isDigit (h : c.isDigit = true) : isAscii c = true := by
  have hdigit : 48 ≤ c.toNat ∧ c.toNat ≤ 57 := Char.isDigit_iff_toNat.1 h
  simp only [isAscii, decide_eq_true_eq]
  omega

theorem isAscii_of_asciiSpace (h : asciiSpace c = true) : isAscii c = true := by
  simp only [asciiSpace, Bool.or_eq_true, Bool.and_eq_true, decide_eq_true_eq] at h
  rcases h with rfl | h
  · rfl
  · simp only [isAscii, decide_eq_true_eq]
    omega

theorem not_asciiSpace_of_isDigit (h : c.isDigit = true) : asciiSpace c = false := by
  have hdigit : 48 ≤ c.toNat ∧ c.toNat ≤ 57 := Char.isDigit_iff_toNat.1 h
  rw [Bool.eq_false_iff]
  intro hs
  simp only [asciiSpace, Bool.or_eq_true, Bool.and_eq_true, decide_eq_true_eq] at hs
  rcases hs with rfl | hs
  · exact absurd h (by decide)
  · omega

theorem not_digitOrSeparator_of_asciiSpace (h : asciiSpace c = true) :
    digitOrSeparator c = false := by
  rw [Bool.eq_false_iff]
  intro hd
  simp only [digitOrSeparator, Bool.or_eq_true, decide_eq_true_eq] at hd
  rcases hd with hd | rfl
  · exact absurd (h.symm.trans (not_asciiSpace_of_isDigit hd)) nofun
  · exact absurd h (by decide)

theorem map_toAscii (h : ∀ c ∈ cs, c.isDigit = true) : cs.map (toAscii u) = cs := by
  refine (List.map_congr_left fun c hc => ?_).trans (List.map_id cs)
  exact toAscii_of_ascii (isAscii_of_isDigit (h c hc))

theorem unsign_cons_of_ne (hminus : c ≠ '-') (hplus : c ≠ '+') :
    unsign (c :: cs) = (false, c :: cs) := by
  unfold unsign
  split
  · next heq => exact absurd (List.cons.inj heq).1 hminus
  · next heq => exact absurd (List.cons.inj heq).1 hplus
  · rfl

/-! ## Failing and succeeding -/

/-- Whatever is wrong, the text of the `ValueError` is the same. -/
theorem parseTcpUri_error {e : String} (h : parseTcpUri u maxDigits cs = .error e) :
    e = badUri cs := by
  unfold parseTcpUri at h
  split_ifs at h
  · exact (Except.error.inj h).symm
  · split at h
    · split at h
      · cases h
      · exact (Except.error.inj h).symm
    · exact (Except.error.inj h).symm

/-- A host and what follows the first colon. -/
theorem parseTcpUri_uri (u : Unicode) (maxDigits : ℕ) (port : List Char) (h : ':' ∉ host) :
    parseTcpUri u maxDigits (scheme ++ (host ++ ':' :: port)) =
      match (if ':' ∈ port then none else int u maxDigits port) with
      | some n => .ok (host, n)
      | none => .error (badUri (scheme ++ (host ++ ':' :: port))) := by
  have htake : (scheme ++ (host ++ ':' :: port)).take 6 = scheme := rfl
  have hdrop : (scheme ++ (host ++ ':' :: port)).drop 6 = host ++ ':' :: port := rfl
  unfold parseTcpUri
  rw [if_neg (not_not.2 htake), hdrop, List.splitOn_append_cons_self_of_not_mem h]
  split_ifs with hcolon
  · obtain ⟨first, rest, rfl⟩ := List.append_of_mem hcolon
    rw [List.splitOn_append_cons_self]
    obtain ⟨a, as, ha⟩ := List.exists_cons_of_ne_nil (List.splitOn_ne_nil ':' first)
    obtain ⟨b, bs, hb⟩ := List.exists_cons_of_ne_nil (List.splitOn_ne_nil ':' rest)
    rw [ha, hb]
    cases as <;> rfl
  · rw [List.splitOn_eq_singleton hcolon]
    dsimp only
    cases int u maxDigits port <;> rfl

theorem parseTcpUri_of_notMem (h : ':' ∉ cs.drop 6) :
    parseTcpUri u maxDigits cs = .error (badUri cs) := by
  unfold parseTcpUri
  rw [List.splitOn_eq_singleton h]
  split_ifs <;> rfl

theorem parseTcpUri_of_take (h : cs.take 6 ≠ scheme) :
    parseTcpUri u maxDigits cs = .error (badUri cs) := if_pos h

end

end Messi.PyClient
