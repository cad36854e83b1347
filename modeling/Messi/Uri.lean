import Mathlib.Tactic
import Messi.Base.ByteMemory
import Messi.Base.Utf8

/-!
# URIs in C

`messi_parse_tcp_uri()` of `lib/src/messi.c`, the functions of the C library that it calls, and the
port as it is put into a socket address by `connect_to_server()` and `NAME_server_start()`. A string
is the list of its bytes, without the terminating NUL.
-/

namespace Messi

open ByteMemory Utf8

/-! ## The C library -/

/-- `strchr()`, as an offset from the start of the string. -/
def strchr (s : List UInt8) (c : UInt8) : Option ℕ := s.findIdx? (· = c)

/-- `strncpy()` of `size` bytes: a string that is shorter is filled up with NUL. -/
def strncpy (dst : ℕ → UInt8) (src : List UInt8) (size : ℕ) : ℕ → UInt8 :=
  write dst 0 ((src ++ List.replicate size 0).take size)

/-- `isspace()` in the C locale. -/
def isspace (b : UInt8) : Bool := b = 32 || (9 ≤ b && b ≤ 13)

def isdigit (b : UInt8) : Bool := 48 ≤ b && b ≤ 57

/-- The number that some digits stand for. -/
def digitsValue (ds : List UInt8) : ℕ := ds.foldl (fun n d => 10 * n + (d.toNat - 48)) 0

/-- An optional sign, and what follows it. -/
def signed : List UInt8 → Bool × List UInt8
  | 45 :: t => (true, t)
  | 43 :: t => (false, t)
  | t => (false, t)

/-- A number with its sign. -/
def withSign (negative : Bool) (n : ℕ) : ℤ := if negative then -n else n

/-- `strtol()` in base ten; a `long` has 64 bits, and a number beyond its limits becomes the
limit. -/
def strtol (s : List UInt8) : ℤ :=
  let (negative, t) := signed (s.dropWhile isspace)
  max (-2 ^ 63) (min (2 ^ 63 - 1) (withSign negative (digitsValue (t.takeWhile isdigit))))

/-- `atoi()` is `strtol()`, cut to an `int`. -/
def atoi (s : List UInt8) : ℤ := Int.bmod (strtol s) (2 ^ 32)

/-- `htons()`: a port in network byte order, as it lies in memory. -/
def htons (x : ℤ) : List UInt8 :=
  let n := (x % 2 ^ 16).toNat
  [UInt8.ofNat (n / 256), UInt8.ofNat (n % 256)]

/-! ## `messi_parse_tcp_uri()` -/

/-- `tcp://` -/
def tcpScheme : List UInt8 := [116, 99, 112, 58, 47, 47]

def colon : UInt8 := 58

/-- The result, and what is then in the host buffer and in the port. -/
structure UriResult where
  res : ℤ
  host : ℕ → UInt8
  port : ℤ

def parseTcpUri (uri : List UInt8) (host : ℕ → UInt8) (hostSize : ℕ) (port : ℤ) : UriResult :=
  if uri.take 6 ≠ tcpScheme then ⟨-1, host, port⟩
  else
    let uri := uri.drop 6
    -- Host.
    match strchr uri colon with
    | none => ⟨-1, host, port⟩
    | some size =>
      if size + 1 > hostSize then ⟨-1, host, port⟩
      else
        let host := strncpy host uri size
        let host := write host size [0]
        -- Port.
        ⟨0, host, atoi (uri.drop (size + 1))⟩

/-- `sin_port` of a socket address, which is made of the port as a `short`. -/
def sinPort (port : ℤ) : List UInt8 := htons (Int.bmod port (2 ^ 16))

/-- A number as it is printed. -/
def decimal (n : ℕ) : List UInt8 := utf8 (Nat.toDigits 10 n)

section

variable {s t name : List UInt8} {c b : UInt8} {n size : ℕ} {m : ℕ → UInt8} {cs : List Char}

/-! ## Strings -/

theorem strchr_of_notMem (h : c ∉ s) : strchr s c = none := by
  unfold strchr
  rw [List.findIdx?_eq_none_iff]
  intro b hb
  simpa using ne_of_mem_of_not_mem hb h

/-- The first one is found. -/
theorem strchr_append (h : c ∉ s) : strchr (s ++ c :: t) c = some s.length := by
  have hnone := strchr_of_notMem h
  unfold strchr at hnone ⊢
  rw [List.findIdx?_append, hnone, List.findIdx?_cons]
  simp

/-- What is copied is what is there. -/
theorem strncpy_append (m : ℕ → UInt8) (s t : List UInt8) :
    strncpy m (s ++ t) s.length = write m 0 s := by
  unfold strncpy
  rw [List.append_assoc, List.take_left]

/-! ## Numbers -/

theorem digitsValue_append (s : List UInt8) (b : UInt8) :
    digitsValue (s ++ [b]) = 10 * digitsValue s + (b.toNat - 48) := by
  simp [digitsValue]

/-- Digits are worth the same as bytes and as characters. -/
theorem digitsValue_utf8 (h : ∀ c ∈ cs, isAscii c = true) :
    digitsValue (utf8 cs) = Nat.ofDigitChars 10 cs 0 := by
  induction cs using List.reverseRecOn with
  | nil => rfl
  | append_singleton cs c ih =>
    have hc := h c (by simp)
    rw [utf8_append, utf8_cons, utf8_nil, List.append_nil, encode_ascii hc, digitsValue_append,
      ih fun d hd => h d (List.mem_append_left _ hd), toNat_ofNat hc, Nat.ofDigitChars_append,
      Nat.ofDigitChars_cons, Nat.ofDigitChars_nil]
    rfl

theorem isdigit_iff : isdigit b = true ↔ 48 ≤ b.toNat ∧ b.toNat ≤ 57 := by
  simp only [isdigit, Bool.and_eq_true, decide_eq_true_eq, UInt8.le_iff_toNat_le]
  rfl

theorem isspace_iff : isspace b = true ↔ b.toNat = 32 ∨ 9 ≤ b.toNat ∧ b.toNat ≤ 13 := by
  simp only [isspace, Bool.and_eq_true, Bool.or_eq_true, decide_eq_true_eq, UInt8.le_iff_toNat_le,
    ← UInt8.toNat_inj]
  rfl

theorem not_isspace (h : isdigit b = true) : ¬ isspace b = true := by
  rw [isdigit_iff] at h
  rw [isspace_iff]
  omega

theorem signed_cons_of_ne (hminus : b ≠ 45) (hplus : b ≠ 43) :
    signed (b :: t) = (false, b :: t) := by
  unfold signed
  split
  · next heq => exact absurd (List.cons.inj heq).1 hminus
  · next heq => exact absurd (List.cons.inj heq).1 hplus
  · rfl

theorem signed_of_isdigit (h : isdigit b = true) : signed (b :: t) = (false, b :: t) := by
  rw [isdigit_iff] at h
  refine signed_cons_of_ne ?_ ?_ <;> rintro rfl <;> exact absurd h (by decide)

/-- What `strtol()` makes of nothing but digits. -/
theorem strtol_digits (hs : ∀ b ∈ s, isdigit b = true) :
    strtol s = min (2 ^ 63 - 1) (digitsValue s : ℤ) := by
  have hspace : s.dropWhile isspace = s := by
    rw [List.dropWhile_eq_self_iff]
    intro hlen
    exact not_isspace (hs _ (List.getElem_mem hlen))
  have hsign : signed s = (false, s) := by
    cases s with
    | nil => rfl
    | cons b t => exact signed_of_isdigit (hs b List.mem_cons_self)
  have hdigits : s.takeWhile isdigit = s := List.takeWhile_eq_self_iff.2 hs
  unfold strtol
  rw [hspace, hsign]
  dsimp only
  rw [hdigits]
  unfold withSign
  rw [if_neg Bool.false_ne_true]
  omega

theorem isdigit_of_isDigit {c : Char} (h : c.isDigit = true) (hb : b ∈ String.utf8EncodeChar c) :
    isAscii c = true ∧ isdigit b = true := by
  have hdigit : 48 ≤ c.toNat ∧ c.toNat ≤ 57 := Char.isDigit_iff_toNat.1 h
  have ha : isAscii c = true := by
    simp only [isAscii, decide_eq_true_eq]
    omega
  refine ⟨ha, ?_⟩
  rw [encode_ascii ha, List.mem_singleton] at hb
  subst hb
  rwa [isdigit_iff, toNat_ofNat ha]

/-- A number is read as it is printed. -/
theorem atoi_decimal (h : n < 2 ^ 31) : atoi (decimal n) = n := by
  have hdigit : ∀ c ∈ Nat.toDigits 10 n, c.isDigit = true := fun c hc =>
    Nat.isDigit_of_mem_toDigits (by norm_num) (by norm_num) hc
  have hbytes : ∀ b ∈ decimal n, isdigit b = true := by
    intro b hb
    obtain ⟨c, hc, hmem⟩ := List.mem_flatMap.1 hb
    exact (isdigit_of_isDigit (hdigit c hc) hmem).2
  have hvalue : digitsValue (decimal n) = n := by
    refine (digitsValue_utf8 fun c hc => ?_).trans Nat.ofDigitChars_ten_toDigits
    obtain ⟨b, bs, hbs⟩ := List.exists_cons_of_ne_nil (String.utf8EncodeChar_ne_nil (c := c))
    exact (isdigit_of_isDigit (hdigit c hc) (hbs ▸ List.mem_cons_self)).1
  unfold atoi
  rw [strtol_digits hbytes, hvalue, min_eq_right (by omega)]
  exact Int.bmod_eq_of_le (by omega) (by omega)

/-- The bytes of a port in network byte order. -/
theorem sinPort_bytes (h : n ≤ 65535) :
    sinPort n = [UInt8.ofNat (n / 256), UInt8.ofNat (n % 256)] := by
  have hmod : (Int.bmod n (2 ^ 16) % 2 ^ 16).toNat = n := by
    have hcast : (2 : ℤ) ^ 16 = (2 ^ 16 : ℕ) := by norm_num
    rw [hcast, Int.bmod_emod, Int.emod_eq_of_lt (by omega) (by omega), Int.toNat_natCast]
  unfold sinPort htons
  dsimp only
  rw [hmod]

/-! ## `messi_parse_tcp_uri()` -/

theorem parseTcpUri_uri (h : colon ∉ name) (t : List UInt8) (host : ℕ → UInt8) (hostSize : ℕ)
    (port : ℤ) :
    parseTcpUri (tcpScheme ++ (name ++ colon :: t)) host hostSize port =
      if name.length + 1 > hostSize then ⟨-1, host, port⟩
      else ⟨0, write (write host 0 name) name.length [0], atoi t⟩ := by
  have hscheme : (tcpScheme ++ (name ++ colon :: t)).take 6 = tcpScheme := rfl
  have hrest : (tcpScheme ++ (name ++ colon :: t)).drop 6 = name ++ colon :: t := rfl
  have hport : (name ++ colon :: t).drop (name.length + 1) = t := by
    rw [← List.drop_drop, List.drop_left]
    rfl
  unfold parseTcpUri
  rw [if_neg (not_not.2 hscheme), hrest]
  dsimp only
  rw [strchr_append h]
  dsimp only
  rw [hport, strncpy_append]

theorem parseTcpUri_of_notMem (h : colon ∉ t) (host : ℕ → UInt8) (hostSize : ℕ) (port : ℤ) :
    parseTcpUri (tcpScheme ++ t) host hostSize port = ⟨-1, host, port⟩ := by
  have hscheme : (tcpScheme ++ t).take 6 = tcpScheme := rfl
  have hrest : (tcpScheme ++ t).drop 6 = t := rfl
  unfold parseTcpUri
  rw [if_neg (not_not.2 hscheme), hrest]
  dsimp only
  rw [strchr_of_notMem h]

/-- Nothing is written beyond the host buffer, and nothing at all if the result is `-1`. -/
def SafeParse (uri : List UInt8) (host : ℕ → UInt8) (hostSize : ℕ) (port : ℤ) : Prop :=
  let r := parseTcpUri uri host hostSize port
  (r.res = 0 ∨ r = ⟨-1, host, port⟩) ∧ ∀ i, hostSize ≤ i → r.host i = host i

/-- A printed address is parsed, if the host with its NUL fits the buffer, and the port gets to the
socket address. -/
def RoundTrip (name : List UInt8) (p : ℕ) (host : ℕ → UInt8) (hostSize : ℕ) (port : ℤ) : Prop :=
  let r := parseTcpUri (tcpScheme ++ (name ++ colon :: decimal p)) host hostSize port
  (r.res = 0 ↔ name.length < hostSize) ∧
    (r.res = 0 → slice r.host 0 (name.length + 1) = name ++ [0] ∧ r.port = p ∧
      ∃ hi lo : UInt8, sinPort r.port = [hi, lo] ∧ hi.toNat * 256 + lo.toNat = p)

theorem write_of_le {bs : List UInt8} {a i : ℕ} (h : a + bs.length ≤ i) : write m a bs i = m i := by
  unfold write
  rw [if_pos (by omega), List.getElem?_eq_none (by omega), Option.getD_none]

theorem parseTcpUri_safe (uri : List UInt8) (host : ℕ → UInt8) (hostSize : ℕ) (port : ℤ) :
    SafeParse uri host hostSize port := by
  unfold SafeParse parseTcpUri
  dsimp only
  split_ifs with hscheme
  · exact ⟨Or.inr rfl, fun _ _ => rfl⟩
  · split
    · exact ⟨Or.inr rfl, fun _ _ => rfl⟩
    · split_ifs with hsize
      · exact ⟨Or.inr rfl, fun _ _ => rfl⟩
      · refine ⟨Or.inl rfl, fun i hi => ?_⟩
        dsimp only
        rw [write_of_le (by rw [List.length_singleton]; omega)]
        exact write_of_le (by rw [List.length_take]; omega)

/-- A printed address makes the round trip, and no string does any harm. -/
theorem uri_round_trip (host : ℕ → UInt8) (hostSize : ℕ) (port : ℤ) (p : ℕ) (hname : colon ∉ name)
    (hp : p ≤ 65535) :
    RoundTrip name p host hostSize port ∧ ∀ uri, SafeParse uri host hostSize port := by
  refine ⟨?_, fun uri => parseTcpUri_safe uri host hostSize port⟩
  unfold RoundTrip
  rw [parseTcpUri_uri hname, atoi_decimal (by omega)]
  dsimp only
  split_ifs with hsize
  · exact ⟨⟨fun h => absurd h (by norm_num), fun h => absurd hsize (by omega)⟩,
      fun h => absurd h (by norm_num)⟩
  · refine ⟨⟨fun _ => by omega, fun _ => rfl⟩, fun _ => ⟨?_, rfl, ?_⟩⟩
    · have hslice := slice_write_append (write host 0 name) 0 name.length [0]
      rw [slice_write_self, Nat.zero_add] at hslice
      exact hslice
    · refine ⟨_, _, sinPort_bytes hp, ?_⟩
      rw [UInt8.toNat_ofNat', UInt8.toNat_ofNat']
      omega

/-- `tcp://localhost:40000`; the port is beyond the limits of a `short`. -/
theorem uri_round_trip_localhost :
    RoundTrip (utf8 "localhost".toList) 40000 (fun _ => 255) 10 0 ∧
      ∀ uri, SafeParse uri (fun _ => 255) 10 0 :=
  uri_round_trip _ 10 0 40000 (by decide) (by norm_num)

end

end Messi
