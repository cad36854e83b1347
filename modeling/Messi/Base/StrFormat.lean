import Mathlib.Data.List.Basic
import Mathlib.Tactic.Tauto

/-!
# `str.format`

Python's `str.format` with keyword arguments that are strings. Braces are doubled to be kept;
between single ones stands the name of an argument, whose value is inserted as it is. A field with
an attribute, an index, a conversion or a format specification, or with a name outside of ASCII, is
not looked into: it is answered with an error of its own.
-/

namespace StrFormat

/-- What `str.format` raises. -/
inductive Error where
  /-- `Single '{' encountered in format string` -/
  | singleOpen
  /-- `Single '}' encountered in format string` -/
  | singleClose
  /-- `unexpected '{' in field name` -/
  | openInField
  /-- `expected '}' before end of string` -/
  | endInField
  /-- There are no positional arguments. -/
  | index
  | key (name : List Char)
  /-- The field is more than a name. -/
  | extended
  deriving DecidableEq

/-- The position in a format string: in a literal text, behind a `}` in it, or in a field, of which
nothing or some of the name has been read. -/
inductive Mode where
  | text
  | closed
  | opened
  | field (name : List Char)

/-- The character can be part of a name, and of nothing else. -/
def ofName (c : Char) : Bool :=
  decide (c ∉ ['{', '}', '[', ':', '!', '.']) && decide (c.toNat < 128)

/-- The value of a field. -/
def lookup (args : List Char → Option (List Char)) (name : List Char) :
    Except Error (List Char) :=
  if name.all Char.isDigit then .error .index
  else if !name.all ofName then .error .extended
  else match args name with
    | some value => .ok value
    | none => .error (.key name)

/-- A format string is read from a position on. -/
def formatFrom (args : List Char → Option (List Char)) :
    Mode → List Char → Except Error (List Char)
  | .text, [] => .ok []
  | .text, c :: s =>
    if c = '{' then formatFrom args .opened s
    else if c = '}' then formatFrom args .closed s
    else (formatFrom args .text s).map (c :: ·)
  | .closed, [] => .error .singleClose
  | .closed, c :: s =>
    if c = '}' then (formatFrom args .text s).map ('}' :: ·) else .error .singleClose
  | .opened, [] => .error .singleOpen
  | .opened, c :: s =>
    if c = '{' then (formatFrom args .text s).map ('{' :: ·)
    else if c = '}' then .error .index
    else if c ∈ ['[', ':', '!'] then .error .extended
    else formatFrom args (.field [c]) s
  | .field _, [] => .error .endInField
  | .field name, c :: s =>
    if c = '}' then
      match lookup args name with
      | .ok value => (formatFrom args .text s).map (value ++ ·)
      | .error e => .error e
    else if c = '{' then .error .openInField
    else if c ∈ ['[', ':', '!'] then .error .extended
    else formatFrom args (.field (name ++ [c])) s

/-- `s.format(**args)` -/
def format (args : List Char → Option (List Char)) (s : List Char) : Except Error (List Char) :=
  formatFrom args .text s

/-- A name that a field can consist of. -/
structure PlainName (name : List Char) : Prop where
  chars : name.all ofName = true
  notDigits : name.all Char.isDigit = false

instance (name : List Char) : Decidable (PlainName name) :=
  decidable_of_iff (name.all ofName = true ∧ name.all Char.isDigit = false)
    ⟨fun h => ⟨h.1, h.2⟩, fun h => ⟨h.chars, h.notDigits⟩⟩

section

variable {args : List Char → Option (List Char)} {name pre value s t : List Char} {c : Char}

/-! ## What the parts of a format string become -/

/-- A character that is no brace is kept. -/
theorem formatFrom_char (hopen : c ≠ '{') (hclose : c ≠ '}')
    (h : formatFrom args .text s = .ok t) : formatFrom args .text (c :: s) = .ok (c :: t) := by
  rw [formatFrom, if_neg hopen, if_neg hclose, h]
  rfl

/-- A doubled brace is a brace. -/
theorem formatFrom_open (h : formatFrom args .text s = .ok t) :
    formatFrom args .text ('{' :: '{' :: s) = .ok ('{' :: t) := by
  rw [formatFrom, if_pos rfl, formatFrom, if_pos rfl, h]
  rfl

theorem formatFrom_close (h : formatFrom args .text s = .ok t) :
    formatFrom args .text ('}' :: '}' :: s) = .ok ('}' :: t) := by
  rw [formatFrom, if_neg (by decide), if_pos rfl, formatFrom, if_pos rfl, h]
  rfl

theorem lookup_eq (hname : PlainName name) (hvalue : args name = some value) :
    lookup args name = .ok value := by
  unfold lookup
  rw [if_neg (by simp [hname.notDigits]), if_neg (by simp [hname.chars]), hvalue]

theorem ofName_ne (h : ofName c = true) : c ≠ '{' ∧ c ≠ '}' ∧ c ∉ ['[', ':', '!'] := by
  unfold ofName at h
  simp only [List.mem_cons, List.not_mem_nil, or_false, not_or, Bool.and_eq_true,
    decide_eq_true_eq] at h ⊢
  tauto

/-- The name is read to its end. -/
theorem formatFrom_name (args : List Char → Option (List Char)) (pre : List Char)
    (hname : ∀ c ∈ name, ofName c = true) (s : List Char) :
    formatFrom args (.field pre) (name ++ s) = formatFrom args (.field (pre ++ name)) s := by
  induction name generalizing pre with
  | nil => rw [List.append_nil, List.nil_append]
  | cons c name ih =>
    obtain ⟨hopen, hclose, hend⟩ := ofName_ne (hname c List.mem_cons_self)
    rw [List.cons_append, formatFrom, if_neg hclose, if_neg hopen, if_neg hend,
      ih _ fun d hd => hname d (List.mem_cons_of_mem c hd), List.append_assoc,
      List.singleton_append]

/-- A field is replaced by the value of its argument. -/
theorem formatFrom_field (hname : PlainName name) (hvalue : args name = some value)
    (h : formatFrom args .text s = .ok t) :
    formatFrom args .text ('{' :: (name ++ '}' :: s)) = .ok (value ++ t) := by
  cases name with
  | nil => exact absurd hname.notDigits (by decide)
  | cons c name =>
    have hchars := List.all_eq_true.1 hname.chars
    obtain ⟨hopen, hclose, hend⟩ := ofName_ne (hchars c List.mem_cons_self)
    have hrest := formatFrom_name args [c]
      (fun d hd => hchars d (List.mem_cons_of_mem c hd)) ('}' :: s)
    rw [formatFrom, if_pos rfl, List.cons_append, formatFrom, if_neg hopen, if_neg hclose,
      if_neg hend, hrest, List.singleton_append, formatFrom, if_pos rfl,
      lookup_eq hname hvalue, h]
    rfl

end

end StrFormat
