import Mathlib.Data.List.Infix
import Mathlib.Data.List.Nodup
import Messi.Base.StrFormat
import Messi.Base.Substitution

/-!
# The code generators

How `generate.py` expands a template. `RE_TEMPLATE_TO_FORMAT` of `c_source` and of `py_source` finds
the braces and the placeholder words in its text, `make_format` turns it into a format string, and
`str.format` inserts the values: the two passes together replace the placeholders and keep
everything else (`expand_exact`).
-/

namespace Messi.Generator

open Substitution StrFormat

/-! ## Templates -/

/-- The alternatives of `c_source.Generator.RE_TEMPLATE_TO_FORMAT`, in their order. -/
def cTemplateToFormat : List (List Char) :=
  ['{'] :: ['}'] :: ["NAME_UPPER", "NAME", "ON_MESSAGE_TYPEDEFS", "ON_MESSAGE_MEMBERS",
    "ON_MESSAGE_PARAMS", "INIT_MESSAGES", "HANDLE_CASES", "ON_DEFAULTS", "ON_PARAMS_DEFAULT",
    "ON_PARAMS_ASSIGN"].map String.toList

/-- The alternatives of `py_source.Generator.RE_TEMPLATE_TO_FORMAT`. -/
def pyTemplateToFormat : List (List Char) :=
  ['{'] :: ['}'] :: ["NAME_TITLE", "NAME", "ON_MESSAGES", "INIT_MESSAGES", "HANDLE_MESSAGES"].map
    String.toList

/-- `value.lower()` -/
def lower (value : List Char) : List Char := value.map Char.toLower

def makeFormat (value : List Char) : List Char :=
  if value <:+: ['{', '}'] then value ++ value
  else '{' :: (lower value ++ ['}'])

/-- `read_template_file()` of a file with the given text. -/
def readTemplate (templateToFormat : List (List Char)) (text : List Char) : List Char :=
  sub templateToFormat makeFormat text

/-- The text of a template, read and formatted with the given keyword arguments. -/
def expand (templateToFormat : List (List Char)) (args : List Char → Option (List Char))
    (text : List Char) : Except Error (List Char) :=
  format args (readTemplate templateToFormat text)

/-- The alternatives that are placeholder words. -/
def placeholders (templateToFormat : List (List Char)) : List (List Char) :=
  templateToFormat.filter fun w => w ≠ ['{'] ∧ w ≠ ['}']

/-- The words that can be placeholders: each has a name of its own as a keyword argument. -/
structure Words (words : List (List Char)) : Prop where
  nonempty : [] ∉ words
  head : ∀ w ∈ words, w.head? ≠ some '{' ∧ w.head? ≠ some '}'
  names : ∀ w ∈ words, PlainName (lower w)

section

variable {words : List (List Char)} {args : List Char → Option (List Char)}
  {value : List Char → List Char} {w s text : List Char} {c : Char} {k : ℕ}

/-! ## What the words become -/

theorem makeFormat_word (h : Words words) (hw : w ∈ words) :
    makeFormat w = '{' :: (lower w ++ ['}']) := by
  refine if_neg fun hin => ?_
  cases w with
  | nil => exact h.nonempty hw
  | cons c w =>
    have hc : c ∈ ['{', '}'] := hin.subset List.mem_cons_self
    obtain ⟨hopen, hclose⟩ := h.head _ hw
    simp only [List.mem_cons, List.not_mem_nil, or_false] at hc
    rcases hc with rfl | rfl
    · exact hopen rfl
    · exact hclose rfl

/-! ## What is found -/

theorem first?_open (words : List (List Char)) (s : List Char) :
    first? (['{'] :: ['}'] :: words) ('{' :: s) = some ['{'] := rfl

theorem first?_close (words : List (List Char)) (s : List Char) :
    first? (['{'] :: ['}'] :: words) ('}' :: s) = some ['}'] := rfl

/-- The braces do not get in the way of the words. -/
theorem first?_other (hopen : c ≠ '{') (hclose : c ≠ '}') (words : List (List Char))
    (s : List Char) :
    first? (['{'] :: ['}'] :: words) (c :: s) = first? words (c :: s) := by
  unfold first?
  have hno : ['{'].isPrefixOf (c :: s) = false := by simp [List.isPrefixOf, hopen.symm]
  have hno' : ['}'].isPrefixOf (c :: s) = false := by simp [List.isPrefixOf, hclose.symm]
  rw [List.find?_cons_of_neg (by simp [hno]), List.find?_cons_of_neg (by simp [hno'])]

/-! ## Both passes -/

/-- The format string of what is left of a text becomes the text with the values inserted. -/
theorem formatFrom_scan (h : Words words) (s : List Char)
    (hargs : ∀ w, .word w ∈ scan words k s → args (lower w) = some (value w)) :
    formatFrom args .text
      ((scan (['{'] :: ['}'] :: words) k s).flatMap (Token.replace makeFormat)) =
      .ok ((scan words k s).flatMap (Token.replace value)) := by
  induction s generalizing k with
  | nil => rw [scan, scan]; rfl
  | cons c s ih =>
    cases k with
    | succ k => exact ih hargs
    | zero =>
      have hbrace : ∀ d, (∀ w ∈ words, w.head? ≠ some d) → first? words (d :: s) = none :=
        fun d hd =>
        first?_none hd h.nonempty
      rw [scan] at hargs
      rw [scan, scan]
      by_cases hopen : c = '{'
      · subst hopen
        rw [first?_open]
        rw [hbrace '{' fun w hw => (h.head w hw).1] at hargs ⊢
        exact formatFrom_open (ih fun w hw => hargs w (List.mem_cons_of_mem _ hw))
      by_cases hclose : c = '}'
      · subst hclose
        rw [first?_close]
        rw [hbrace '}' fun w hw => (h.head w hw).2] at hargs ⊢
        exact formatFrom_close (ih fun w hw => hargs w (List.mem_cons_of_mem _ hw))
      rw [first?_other hopen hclose]
      cases hfirst : first? words (c :: s) with
      | none =>
        rw [hfirst] at hargs
        exact formatFrom_char hopen hclose (ih fun w hw => hargs w (List.mem_cons_of_mem _ hw))
      | some w =>
        rw [hfirst] at hargs
        have hw := (first?_some hfirst).1
        have hrest := ih fun w' hw' => hargs w' (List.mem_cons_of_mem _ hw')
        have hvalue := hargs w List.mem_cons_self
        dsimp only
        rw [List.flatMap_cons, List.flatMap_cons]
        show formatFrom args .text (makeFormat w ++ _) = .ok (value w ++ _)
        rw [makeFormat_word h hw, List.cons_append, List.append_assoc, List.singleton_append]
        exact formatFrom_field (h.names w hw) hvalue hrest

/-- Reading a template and formatting it inserts the values of its placeholders. -/
theorem expand_words (h : Words words)
    (hargs : ∀ w ∈ found words text, args (lower w) = some (value w)) :
    expand (['{'] :: ['}'] :: words) args text = .ok (sub words value text) :=
  formatFrom_scan h text fun w hw => hargs w (mem_found.2 hw)

/-! ## The generators -/

theorem words_c : Words (placeholders cTemplateToFormat) :=
  ⟨by decide, by decide, by decide⟩

theorem words_py : Words (placeholders pyTemplateToFormat) :=
  ⟨by decide, by decide, by decide⟩

/-- The keyword arguments that give the words their values. -/
def keywords (words : List (List Char)) (value : List Char → List Char) (name : List Char) :
    Option (List Char) :=
  (words.find? fun w => lower w = name).map value

/-- Words with different names can be given any values. -/
theorem keywords_lower (hnames : (words.map lower).Nodup) (hw : w ∈ words) :
    keywords words value (lower w) = some (value w) := by
  have hfind : words.find? (fun v => lower v = lower w) = some w := by
    cases hf : words.find? (fun v => lower v = lower w) with
    | none =>
      have hno := List.find?_eq_none.1 hf w hw
      simp at hno
    | some v =>
      have hv : lower v = lower w := by simpa using List.find?_some hf
      rw [List.inj_on_of_nodup_map hnames (List.mem_of_find?_eq_some hf) hw hv]
  unfold keywords
  rw [hfind]
  rfl

/-- In both generators every value can be given to every placeholder. -/
theorem keywords_placeholders {templateToFormat : List (List Char)}
    (hre : templateToFormat ∈ [cTemplateToFormat, pyTemplateToFormat])
    (value : List Char → List Char) (hw : w ∈ placeholders templateToFormat) :
    keywords (placeholders templateToFormat) value (lower w) = some (value w) := by
  simp only [List.mem_cons, List.not_mem_nil, or_false] at hre
  rcases hre with rfl | rfl
  · exact keywords_lower (by decide) hw
  · exact keywords_lower (by decide) hw

/-- Every template is expanded to the text in which the placeholder words that are found in it have
been replaced by their values; with these, its other characters are the whole of it. -/
theorem expand_exact {templateToFormat : List (List Char)}
    (hre : templateToFormat ∈ [cTemplateToFormat, pyTemplateToFormat])
    (hargs : ∀ w ∈ found (placeholders templateToFormat) text, args (lower w) = some (value w)) :
    expand templateToFormat args text = .ok (sub (placeholders templateToFormat) value text) ∧
      (tokens (placeholders templateToFormat) text).flatMap Token.text = text := by
  simp only [List.mem_cons, List.not_mem_nil, or_false] at hre
  rcases hre with rfl | rfl
  · exact ⟨expand_words words_c hargs, tokens_text words_c.nonempty text⟩
  · exact ⟨expand_words words_py hargs, tokens_text words_py.nonempty text⟩

/-- A template with braces, two placeholders and one inside a word, and values with both. -/
theorem expand_exact_braces :
    expand cTemplateToFormat
        (keywords (placeholders cTemplateToFormat) fun _ => "{NAME}".toList)
        "NAME_UPPER{xNAME}".toList = .ok "{NAME}{x{NAME}}".toList := by
  have hargs : ∀ w ∈ found (placeholders cTemplateToFormat) "NAME_UPPER{xNAME}".toList,
      keywords (placeholders cTemplateToFormat) (fun _ => "{NAME}".toList) (lower w) =
        some "{NAME}".toList := fun w hw =>
    keywords_placeholders List.mem_cons_self (fun _ => "{NAME}".toList) (found_mem hw)
  have hexact := (expand_exact List.mem_cons_self hargs).1
  rw [hexact]
  decide

end

end Messi.Generator
