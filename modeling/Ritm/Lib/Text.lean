import Mathlib.Data.List.DropRight
import Mathlib.Data.List.TakeWhile
import Mathlib.Data.Nat.Digits.Defs
/-!
# Text — the string functions of Rust's standard library

Strings are lists of characters.  `lines`, `trim`, `splitOnce`, `splitWhitespace` and `fromStrRadix` are what `str` and
the unsigned integers have under these names; a lemma beside each says what it makes of a text that was put together
from parts.  `formatRadix` writes the numbers `fromStrRadix` reads.
-/
namespace Lib
namespace Text

/-! ## White space -/

/-- `char::is_whitespace`: Unicode's White_Space property. -/
def isWhitespace (c : Char) : Bool :=
  (9 ≤ c.toNat && c.toNat ≤ 13) || c.toNat == 0x20 || c.toNat == 0x85 || c.toNat == 0xa0 || c.toNat == 0x1680 ||
    (0x2000 ≤ c.toNat && c.toNat ≤ 0x200a) || c.toNat == 0x2028 || c.toNat == 0x2029 || c.toNat == 0x202f ||
    c.toNat == 0x205f || c.toNat == 0x3000

def trim (text : List Char) : List Char := (text.dropWhile isWhitespace).rdropWhile isWhitespace

theorem trim_subset {text : List Char} : trim text ⊆ text := fun _ hc =>
  (List.dropWhile_suffix _).subset ((List.rdropWhile_prefix _ _).subset hc)

theorem rdropWhile_append_of_pos {α : Type} {p : α → Bool} {l pad : List α} (h : ∀ c ∈ pad, p c = true) :
    (l ++ pad).rdropWhile p = l.rdropWhile p := by
  unfold List.rdropWhile
  rw [List.reverse_append, List.dropWhile_append_of_pos]
  intro c hc
  exact h c (List.mem_reverse.1 hc)

theorem trim_append_left {pad text : List Char} (h : ∀ c ∈ pad, isWhitespace c = true) :
    trim (pad ++ text) = trim text := by
  unfold trim
  rw [List.dropWhile_append_of_pos h]

theorem trim_append_right {text pad : List Char} (h : ∀ c ∈ pad, isWhitespace c = true) :
    trim (text ++ pad) = trim text := by
  unfold trim
  rw [List.dropWhile_append]
  split
  · rename_i hempty
    have hpad : pad.dropWhile isWhitespace = [] := List.dropWhile_eq_nil_iff.2 h
    rw [hpad, List.isEmpty_iff.1 hempty]
  · exact rdropWhile_append_of_pos h

theorem trim_eq_self {text : List Char} (hhead : ∀ c ∈ text.head?, isWhitespace c = false)
    (hlast : ∀ c ∈ text.getLast?, isWhitespace c = false) : trim text = text := by
  cases text with
  | nil => rfl
  | cons c cs =>
    have hc : isWhitespace c = false := hhead c rfl
    unfold trim
    rw [List.dropWhile_cons_of_neg (by simp [hc]), List.rdropWhile_eq_self_iff]
    intro hl
    simp [hlast _ (List.getLast?_eq_some_getLast hl)]

theorem trim_eq_nil_iff {text : List Char} : trim text = [] ↔ ∀ c ∈ text, isWhitespace c = true := by
  unfold trim
  rw [List.rdropWhile_eq_nil_iff]
  constructor
  · intro h c hc
    rw [← List.takeWhile_append_dropWhile (p := isWhitespace) (l := text), List.mem_append] at hc
    rcases hc with hc | hc
    · exact List.mem_takeWhile_imp hc
    · exact h c hc
  · intro h c hc
    exact h c ((List.dropWhile_suffix _).subset hc)

/-! ## Lines -/

/-- `str::split_inclusive`: the pieces, each with the separator that ends it. -/
def splitInclusive (sep : Char) : List Char → List (List Char)
  | [] => []
  | c :: cs =>
    if c = sep then [c] :: splitInclusive sep cs
    else
      match splitInclusive sep cs with
      | [] => [[c]]
      | piece :: pieces => (c :: piece) :: pieces

def stripSuffix (c : Char) (text : List Char) : Option (List Char) :=
  if text.getLast? = some c then some text.dropLast else none

/-- A piece without its line ending, which is a newline or a carriage return and a newline. -/
def lineOf (piece : List Char) : List Char :=
  match stripSuffix '\n' piece with
  | none => piece
  | some line =>
    match stripSuffix '\r' line with
    | none => line
    | some line => line

def lines (text : List Char) : List (List Char) := (splitInclusive '\n' text).map lineOf

theorem splitInclusive_append {sep : Char} {piece : List Char} (h : sep ∉ piece) (rest : List Char) :
    splitInclusive sep (piece ++ sep :: rest) = (piece ++ [sep]) :: splitInclusive sep rest := by
  induction piece with
  | nil => simp [splitInclusive]
  | cons c cs ih =>
    have hc : c ≠ sep := fun heq => h (heq ▸ List.mem_cons_self)
    have hcs : sep ∉ cs := fun hmem => h (List.mem_cons_of_mem c hmem)
    simp [splitInclusive, hc, ih hcs]

theorem splitInclusive_of_not_mem {sep : Char} {piece : List Char} (h : sep ∉ piece) (hne : piece ≠ []) :
    splitInclusive sep piece = [piece] := by
  induction piece with
  | nil => exact absurd rfl hne
  | cons c cs ih =>
    have hc : c ≠ sep := fun heq => h (heq ▸ List.mem_cons_self)
    have hcs : sep ∉ cs := fun hmem => h (List.mem_cons_of_mem c hmem)
    cases cs with
    | nil => simp [splitInclusive, hc]
    | cons d ds => rw [splitInclusive, if_neg hc, ih hcs (List.cons_ne_nil d ds)]

theorem stripSuffix_append (c : Char) (text : List Char) : stripSuffix c (text ++ [c]) = some text := by
  simp [stripSuffix]

theorem lineOf_newline (line : List Char) : lineOf (line ++ ['\n']) = line ∨ line = lineOf (line ++ ['\n']) ++ ['\r'] := by
  unfold lineOf
  rw [stripSuffix_append]
  simp only [stripSuffix]
  by_cases h : line.getLast? = some '\r'
  · right
    obtain ⟨front, rfl⟩ := List.getLast?_eq_some_iff.1 h
    simp
  · left
    rw [if_neg h]

theorem lines_append {line : List Char} (h : '\n' ∉ line) (hreturn : line.getLast? ≠ some '\r') (rest : List Char) :
    lines (line ++ '\n' :: rest) = line :: lines rest := by
  have hline : lineOf (line ++ ['\n']) = line := (lineOf_newline line).resolve_right fun heq => by
    rw [heq, List.getLast?_append] at hreturn
    exact hreturn rfl
  rw [lines, splitInclusive_append h, List.map_cons, hline, lines]

theorem splitInclusive_append_of_getLast {sep : Char} : ∀ {block : List Char}, block.getLast? = some sep →
    ∀ rest : List Char, splitInclusive sep (block ++ rest) = splitInclusive sep block ++ splitInclusive sep rest
  | [c], h, rest => by
    cases h
    simp [splitInclusive]
  | c :: d :: cs, h, rest => by
    have ih := splitInclusive_append_of_getLast (List.getLast?_cons_cons ▸ h) rest
    rw [List.cons_append, splitInclusive, splitInclusive, ih]
    by_cases hc : c = sep
    · simp [hc]
    · cases hpieces : splitInclusive sep (d :: cs) with
      | nil =>
        rw [splitInclusive] at hpieces
        split at hpieces
        · cases hpieces
        · split at hpieces <;> cases hpieces
      | cons piece pieces => simp [hc]

theorem lines_append_block {block : List Char} (h : block.getLast? = some '\n') (rest : List Char) :
    lines (block ++ rest) = lines block ++ lines rest := by
  rw [lines, lines, lines, splitInclusive_append_of_getLast h, List.map_append]

theorem lineOf_of_not_mem {line : List Char} (h : '\n' ∉ line) : lineOf line = line := by
  have hlast : line.getLast? ≠ some '\n' := fun hl => h (List.mem_of_getLast? hl)
  simp [lineOf, stripSuffix, hlast]

/-! ## Splitting -/

def splitOnce (sep : Char) : List Char → Option (List Char × List Char)
  | [] => none
  | c :: cs => if c = sep then some ([], cs) else (splitOnce sep cs).map fun (before, after) => (c :: before, after)

theorem splitOnce_append {sep : Char} {before : List Char} (h : sep ∉ before) (after : List Char) :
    splitOnce sep (before ++ sep :: after) = some (before, after) := by
  induction before with
  | nil => simp [splitOnce]
  | cons c cs ih =>
    have hc : c ≠ sep := fun heq => h (heq ▸ List.mem_cons_self)
    have hcs : sep ∉ cs := fun hmem => h (List.mem_cons_of_mem c hmem)
    simp [splitOnce, hc, ih hcs]

theorem splitOnce_eq_none {sep : Char} {text : List Char} (h : sep ∉ text) : splitOnce sep text = none := by
  induction text with
  | nil => rfl
  | cons c cs ih =>
    have hc : c ≠ sep := fun heq => h (heq ▸ List.mem_cons_self)
    have hcs : sep ∉ cs := fun hmem => h (List.mem_cons_of_mem c hmem)
    simp [splitOnce, hc, ih hcs]

def split (sep : Char) : List Char → List (List Char)
  | [] => [[]]
  | c :: cs =>
    if c = sep then [] :: split sep cs
    else
      match split sep cs with
      | [] => [[c]]
      | piece :: pieces => (c :: piece) :: pieces

theorem head?_split (sep : Char) : ∀ text : List Char, (split sep text).head? = some (text.takeWhile (· ≠ sep))
  | [] => rfl
  | c :: cs => by
    have ih := head?_split sep cs
    by_cases hc : c = sep
    · simp [split, hc]
    · rw [split, if_neg hc]
      cases hs : split sep cs with
      | nil =>
        rw [hs] at ih
        cases ih
      | cons piece pieces =>
        rw [hs] at ih
        simpa [hc] using ih

/-! ## Numbers -/

def toDigit (radix : Nat) (c : Char) : Option Nat :=
  let value :=
    if 48 ≤ c.toNat ∧ c.toNat ≤ 57 then some (c.toNat - 48)
    else if 97 ≤ c.toNat ∧ c.toNat ≤ 122 then some (c.toNat - 97 + 10)
    else if 65 ≤ c.toNat ∧ c.toNat ≤ 90 then some (c.toNat - 65 + 10)
    else none
  value.filter (· < radix)

/-- The digits of a number below `limit`, most significant first; each step is a checked multiplication and addition. -/
def fromDigits (limit radix : Nat) : Nat → List Char → Option Nat
  | value, [] => some value
  | value, c :: cs =>
    match toDigit radix c with
    | none => none
    | some digit => if value * radix + digit < limit then fromDigits limit radix (value * radix + digit) cs else none

def fromStrRadix (limit radix : Nat) : List Char → Option Nat
  | [] => none
  | ['+'] => none
  | ['-'] => none
  | '+' :: cs => fromDigits limit radix 0 cs
  | cs => fromDigits limit radix 0 cs

theorem toDigit_range {radix : Nat} {c : Char} {digit : Nat} (h : toDigit radix c = some digit) :
    48 ≤ c.toNat ∧ c.toNat ≤ 57 ∨ 65 ≤ c.toNat ∧ c.toNat ≤ 90 ∨ 97 ≤ c.toNat ∧ c.toNat ≤ 122 := by
  unfold toDigit at h
  obtain ⟨h, -⟩ := Option.filter_eq_some_iff.1 h
  split at h
  · exact .inl ‹_›
  split at h
  · exact .inr (.inr ‹_›)
  split at h
  · exact .inr (.inl ‹_›)
  · cases h

/-- The text spells the number in the radix: one or more digits, leading zeros among them. -/
def Spells (radix : Nat) (text : List Char) (n : Nat) : Prop :=
  ∃ digits : List Nat, digits ≠ [] ∧ text.map (toDigit radix) = digits.map some ∧ n = Nat.ofDigits radix digits.reverse

theorem Spells.isDigit {radix n : Nat} {text : List Char} (h : Spells radix text n) :
    ∀ c ∈ text, ∃ digit, toDigit radix c = some digit := by
  intro c hc
  obtain ⟨digits, -, hdigits, -⟩ := h
  have hmem : toDigit radix c ∈ digits.map some := hdigits ▸ List.mem_map_of_mem hc
  obtain ⟨digit, -, hdigit⟩ := List.mem_map.1 hmem
  exact ⟨digit, hdigit.symm⟩

theorem Spells.ne_nil {radix n : Nat} {text : List Char} (h : Spells radix text n) : text ≠ [] := by
  rintro rfl
  obtain ⟨digits, hne, hdigits, -⟩ := h
  exact hne (List.map_eq_nil_iff.1 hdigits.symm)

section Radix

variable {limit radix : Nat} (hradix : 0 < radix)
include hradix

theorem fromDigits_of_map : ∀ {text : List Char} {digits : List Nat} {value : Nat},
    text.map (toDigit radix) = digits.map some → value < limit →
    fromDigits limit radix value text =
      if value * radix ^ digits.length + Nat.ofDigits radix digits.reverse < limit then
        some (value * radix ^ digits.length + Nat.ofDigits radix digits.reverse)
      else none
  | [], [], value, _, hvalue => by simp [fromDigits, hvalue]
  | c :: cs, d :: ds, value, h, hvalue => by
    obtain ⟨hd, hds⟩ := List.cons_eq_cons.1 h
    have hsum : (value * radix + d) * radix ^ ds.length + Nat.ofDigits radix ds.reverse =
        value * radix ^ (d :: ds).length + Nat.ofDigits radix (d :: ds).reverse := by
      rw [Nat.ofDigits_reverse_cons, List.length_cons, pow_succ]
      ring
    rw [fromDigits, hd]
    by_cases hlt : value * radix + d < limit
    · simp only [if_pos hlt]
      rw [fromDigits_of_map hds hlt, hsum]
    · -- the digits to come only make the number larger
      have hle : value * radix + d ≤ (value * radix + d) * radix ^ ds.length :=
        Nat.le_mul_of_pos_right _ (Nat.pow_pos hradix)
      simp only [if_neg hlt]
      rw [if_neg (by omega)]

/-- **A spelt number is read exactly if it is below the limit.** -/
theorem fromStrRadix_of_spells (hlimit : 0 < limit) {text : List Char} {n : Nat} (h : Spells radix text n) :
    fromStrRadix limit radix text = if n < limit then some n else none := by
  -- a digit is not a sign
  have hsign : ∀ c ∈ text, c ≠ '+' ∧ c ≠ '-' := by
    intro c hc
    obtain ⟨digit, hdigit⟩ := h.isDigit c hc
    have hrange := toDigit_range hdigit
    constructor <;> rintro rfl <;> revert hrange <;> decide
  have hne := h.ne_nil
  obtain ⟨digits, -, hdigits, rfl⟩ := h
  have hfrom := fromDigits_of_map hradix hdigits hlimit
  rw [Nat.zero_mul, Nat.zero_add] at hfrom
  rw [← hfrom]
  unfold fromStrRadix
  split
  · exact absurd rfl hne
  · exact absurd rfl (hsign '+' (by simp)).1
  · exact absurd rfl (hsign '-' (by simp)).2
  · exact absurd rfl (hsign '+' (by simp)).1
  · rfl

end Radix

/-- A number as `format!` writes it in a radix up to 16, in lower case. -/
def formatRadix (radix n : Nat) : List Char :=
  if n = 0 then ['0'] else (Nat.digits radix n).reverse.map Nat.digitChar

theorem toDigit_digitChar {radix digit : Nat} (hradix : radix ≤ 16) (h : digit < radix) :
    toDigit radix (Nat.digitChar digit) = some digit := by
  have hall : ∀ digit < 16, toDigit 16 (Nat.digitChar digit) = some digit := by decide
  have hvalue := hall digit (by omega)
  unfold toDigit at hvalue ⊢
  exact Option.filter_eq_some_iff.2 ⟨(Option.filter_eq_some_iff.1 hvalue).1, decide_eq_true h⟩

/-- **A written number is spelt.** -/
theorem spells_formatRadix {radix : Nat} (hradix : 1 < radix) (hle : radix ≤ 16) (n : Nat) :
    Spells radix (formatRadix radix n) n := by
  unfold formatRadix
  split
  · rename_i hzero
    have hdigit : toDigit radix '0' = some 0 := toDigit_digitChar hle (Nat.zero_lt_of_lt hradix)
    exact ⟨[0], List.cons_ne_nil 0 [], by simp [hdigit], by simp [hzero]⟩
  · rename_i hne
    refine ⟨(Nat.digits radix n).reverse, ?_, ?_, ?_⟩
    · rw [ne_eq, List.reverse_eq_nil_iff]
      exact Nat.digits_ne_nil_iff_ne_zero.2 hne
    · rw [List.map_map]
      refine List.map_congr_left fun digit hdigit => ?_
      exact toDigit_digitChar hle (Nat.digits_lt_base hradix (List.mem_reverse.1 hdigit))
    · rw [List.reverse_reverse, Nat.ofDigits_digits]

/-! ## Words -/

section Words

def splitWhitespace (text : List Char) : List (List Char) :=
  (text.splitOnP isWhitespace).filter fun word => !word.isEmpty

def stripPrefix (start text : List Char) : Option (List Char) :=
  if start.isPrefixOf text then some (text.drop start.length) else none

theorem stripPrefix_eq_some {start text rest : List Char} : stripPrefix start text = some rest ↔ text = start ++ rest := by
  unfold stripPrefix
  split
  · rename_i h
    obtain ⟨rest', rfl⟩ := List.isPrefixOf_iff_prefix.1 h
    rw [List.drop_left, Option.some.injEq, List.append_cancel_left_eq, eq_comm]
  · rename_i h
    refine ⟨nofun, fun htext => absurd ?_ h⟩
    exact List.isPrefixOf_iff_prefix.2 ⟨rest, htext.symm⟩

/-- The text is these words with white space around and between them. -/
inductive Words : List (List Char) → List Char → Prop where
  | blank {pad : List Char} (hpad : ∀ c ∈ pad, isWhitespace c = true) : Words [] pad
  | last {pad word : List Char} (hpad : ∀ c ∈ pad, isWhitespace c = true) (hne : word ≠ [])
      (hword : ∀ c ∈ word, isWhitespace c = false) : Words [word] (pad ++ word)
  | cons {pad word : List Char} {sep : Char} {words : List (List Char)} {text : List Char}
      (hpad : ∀ c ∈ pad, isWhitespace c = true) (hne : word ≠ []) (hword : ∀ c ∈ word, isWhitespace c = false)
      (hsep : isWhitespace sep = true) (h : Words words text) : Words (word :: words) (pad ++ (word ++ sep :: text))

theorem splitWhitespace_pad : ∀ {pad : List Char} (text : List Char), (∀ c ∈ pad, isWhitespace c = true) →
    splitWhitespace (pad ++ text) = splitWhitespace text
  | [], _, _ => rfl
  | c :: pad, text, h => by
    rw [← splitWhitespace_pad text fun d hd => h d (List.mem_cons_of_mem _ hd)]
    unfold splitWhitespace
    rw [List.cons_append, List.splitOnP_cons_eq_if_modifyHead, if_pos (h c List.mem_cons_self)]
    rfl

theorem filter_isEmpty_word {word : List Char} (hne : word ≠ []) (rest : List (List Char)) :
    (word :: rest).filter (fun w => !w.isEmpty) = word :: rest.filter fun w => !w.isEmpty := by
  rw [List.filter_cons_of_pos]
  cases word with
  | nil => exact absurd rfl hne
  | cons => rfl

/-- **The words of a text are what it was put together from.** -/
theorem splitWhitespace_words {words : List (List Char)} {text : List Char} (h : Words words text) :
    splitWhitespace text = words := by
  induction h with
  | blank hpad =>
    have := splitWhitespace_pad [] hpad
    rwa [List.append_nil] at this
  | last hpad hne hword =>
    rw [splitWhitespace_pad _ hpad, splitWhitespace, List.splitOnP_eq_singleton hword, filter_isEmpty_word hne]
    rfl
  | cons hpad hne hword hsep _ ih =>
    rw [splitWhitespace_pad _ hpad, splitWhitespace, List.splitOnP_append_cons_of_forall_mem hword _ hsep,
      filter_isEmpty_word hne]
    exact congrArg _ ih

end Words

end Text
end Lib
