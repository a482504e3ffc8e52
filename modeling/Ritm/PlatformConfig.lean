import Mathlib.Data.Finmap
import Ritm.Lib.Text
import Ritm.MemoryAccess
/-!
# PlatformConfig — the platforms' config files

The build script reads the addresses a platform is linked at from lines `key=value`.  The parser is on one side; on the
other is the format as its documentation has it, with all that a line may be dressed up with (`ValueLine`, `Renders`).
A text that renders a map is parsed to that map; a line the format does not have makes the whole parse fail.
-/
namespace Ritm

open Lib.Text (isWhitespace trim lines split splitOnce fromStrRadix Spells)

/-! ## The parser -/

abbrev PlatformConfig := Finmap fun _ : List Char => U64

def parseInt (value : List Char) : Option U64 :=
  match value.filter (· ≠ '_') with
  | '0' :: 'x' :: hex => (fromStrRadix (2 ^ 64) 16 hex).map (BitVec.ofNat 64)
  | value => (fromStrRadix (2 ^ 64) 10 value).map (BitVec.ofNat 64)

def contentOf (line : List Char) : List Char := trim ((split '#' line).head?.getD line)

/-- The body of the loop of `parse_platform_config`: an error, nothing, or an entry. -/
def parseLine (lineNumber : Nat) (line : List Char) : Except String (Option (List Char × U64)) :=
  let line := contentOf line
  if line.isEmpty then .ok none
  else
    match splitOnce '=' line with
    | none => .error s!"line {lineNumber + 1}: expected key=value"
    | some (key, value) =>
      let key := trim key
      if key.isEmpty then .error s!"line {lineNumber + 1}: empty key"
      else
        match parseInt (trim value) with
        | none => .error s!"line {lineNumber + 1}: invalid integer value"
        | some value => .ok (some (key, value))

def parseLines : Nat → List (List Char) → PlatformConfig → Except String PlatformConfig
  | _, [], config => .ok config
  | lineNumber, line :: rest, config =>
    match parseLine lineNumber line with
    | .error e => .error e
    | .ok none => parseLines (lineNumber + 1) rest config
    | .ok (some (key, value)) => parseLines (lineNumber + 1) rest (config.insert key value)

def parsePlatformConfig (source : List Char) : Except String PlatformConfig := parseLines 0 (lines source) ∅

/-! ## The format -/

def IsPad (pad : List Char) : Prop := ∀ c ∈ pad, c = ' ' ∨ c = '\t'

structure IsKey (key : List Char) : Prop where
  ne_nil : key ≠ []
  head : ∀ c ∈ key.head?, isWhitespace c = false
  last : ∀ c ∈ key.getLast?, isWhitespace c = false
  no_equals : '=' ∉ key
  no_hash : '#' ∉ key
  no_newline : '\n' ∉ key

/-- Decimal digits, or `0x` and hexadecimal ones, with underscores anywhere. -/
def IsNumber (n : Nat) (text : List Char) : Prop :=
  Spells 10 (text.filter (· ≠ '_')) n ∨ ∃ hex, text.filter (· ≠ '_') = '0' :: 'x' :: hex ∧ Spells 16 hex n

inductive IsComment : List Char → Prop
  | none : IsComment []
  | some {text : List Char} (h : '\n' ∉ text) : IsComment ('#' :: text)

/-- A line that gives a key a number, which need not be one that fits. -/
inductive ValueLine (key : List Char) (n : Nat) : List Char → Prop
  | mk {pad₁ pad₂ pad₃ pad₄ number comment : List Char} (hkey : IsKey key) (hnumber : IsNumber n number)
      (h₁ : IsPad pad₁) (h₂ : IsPad pad₂) (h₃ : IsPad pad₃) (h₄ : IsPad pad₄) (hcomment : IsComment comment) :
      ValueLine key n (pad₁ ++ key ++ pad₂ ++ '=' :: (pad₃ ++ number ++ pad₄) ++ comment)

/-- A line and the entry it renders; a blank line and one with a comment only render none. -/
inductive RendersLine : Option (List Char × U64) → List Char → Prop
  | blank {pad comment : List Char} (hpad : IsPad pad) (hcomment : IsComment comment) :
      RendersLine none (pad ++ comment)
  | entry {key line : List Char} {value : U64} (h : ValueLine key value.toNat line) : RendersLine (some (key, value)) line

/-- A text and the entries it renders, in their order.  Lines end with a newline or a carriage return and a newline;
the last may end with the text. -/
inductive Renders : List (List Char × U64) → List Char → Prop
  | last {entry : Option (List Char × U64)} {line : List Char} (h : RendersLine entry line) : Renders entry.toList line
  | cons {entry : Option (List Char × U64)} {line ending rest : List Char} {entries : List (List Char × U64)}
      (h : RendersLine entry line) (hending : ending = ['\n'] ∨ ending = ['\r', '\n']) (hrest : Renders entries rest) :
      Renders (entry.toList ++ entries) (line ++ ending ++ rest)

/-! ## The parts of a line -/

theorem IsPad.whitespace {pad : List Char} (h : IsPad pad) : ∀ c ∈ pad, isWhitespace c = true := by
  intro c hc
  rcases h c hc with rfl | rfl <;> decide

theorem IsPad.not_mem {pad : List Char} (h : IsPad pad) {c : Char} (hc : ¬ (c = ' ' ∨ c = '\t')) : c ∉ pad :=
  fun hmem => hc (h c hmem)

theorem takeWhile_comment {body comment : List Char} (h : '#' ∉ body) (hcomment : IsComment comment) :
    (body ++ comment).takeWhile (· ≠ '#') = body := by
  rw [List.takeWhile_append_of_pos]
  · cases hcomment <;> simp
  · intro c hc
    have : c ≠ '#' := fun heq => h (heq ▸ hc)
    simpa using this

theorem contentOf_eq (line : List Char) : contentOf line = trim (line.takeWhile (· ≠ '#')) := by
  rw [contentOf, Lib.Text.head?_split]
  rfl

theorem contentOf_append_return (line : List Char) : contentOf (line ++ ['\r']) = contentOf line := by
  rw [contentOf_eq, contentOf_eq, List.takeWhile_append]
  split
  · rename_i hlength
    rw [(List.takeWhile_prefix _).eq_of_length hlength]
    show trim (line ++ ['\r']) = trim line
    exact Lib.Text.trim_append_right fun c hc => List.mem_singleton.1 hc ▸ rfl
  · rfl

theorem contentOf_lineOf (line : List Char) : contentOf (Lib.Text.lineOf (line ++ ['\n'])) = contentOf line := by
  rcases Lib.Text.lineOf_newline line with h | h
  · rw [h]
  · exact ((congrArg contentOf h).trans (contentOf_append_return _)).symm

theorem parseLine_congr {line line' : List Char} (h : contentOf line = contentOf line') (lineNumber : Nat) :
    parseLine lineNumber line = parseLine lineNumber line' := by
  unfold parseLine
  rw [h]

theorem range_of_spells {radix n : Nat} {text : List Char} (h : Spells radix text n) :
    ∀ c ∈ text, 48 ≤ c.toNat ∧ c.toNat ≤ 122 := by
  intro c hc
  obtain ⟨digit, hdigit⟩ := h.isDigit c hc
  have := Lib.Text.toDigit_range hdigit
  omega

namespace IsNumber

variable {n : Nat} {number : List Char}

theorem range (h : IsNumber n number) : ∀ c ∈ number, 48 ≤ c.toNat ∧ c.toNat ≤ 122 := by
  intro c hc
  by_cases hunderscore : c = '_'
  · rw [hunderscore]
    decide
  · have hmem : c ∈ number.filter (· ≠ '_') := List.mem_filter.2 ⟨hc, by simpa using hunderscore⟩
    rcases h with h | ⟨hex, hfilter, h⟩
    · exact range_of_spells h c hmem
    · rw [hfilter, List.mem_cons, List.mem_cons] at hmem
      rcases hmem with rfl | rfl | hmem
      · decide
      · decide
      · exact range_of_spells h c hmem

theorem not_whitespace (h : IsNumber n number) : ∀ c ∈ number, isWhitespace c = false := by
  intro c hc
  have := h.range c hc
  simp only [isWhitespace, Bool.or_eq_false_iff, Bool.and_eq_false_iff, decide_eq_false_iff_not, beq_eq_false_iff_ne]
  omega

theorem ne_nil (h : IsNumber n number) : number ≠ [] := by
  rintro rfl
  rcases h with h | ⟨hex, hfilter, -⟩
  · exact h.ne_nil rfl
  · cases hfilter

theorem trim_eq (h : IsNumber n number) {pad : List Char} (hpad : IsPad pad) : trim (pad ++ number) = number := by
  rw [Lib.Text.trim_append_left hpad.whitespace]
  exact Lib.Text.trim_eq_self (fun c hc => h.not_whitespace c (List.mem_of_mem_head? hc))
    (fun c hc => h.not_whitespace c (List.mem_of_getLast? hc))

/-- **A number is read exactly if it fits 64 bits.** -/
theorem parseInt_eq (h : IsNumber n number) : parseInt number = if n < 2 ^ 64 then some (BitVec.ofNat 64 n) else none := by
  have hlimit : 0 < 2 ^ 64 := by decide
  unfold parseInt
  rcases h with h | ⟨hex, hfilter, h⟩
  · split
    · rename_i hex hfilter
      rw [hfilter] at h
      -- decimal digits have no x among them
      obtain ⟨digit, hdigit⟩ := h.isDigit 'x' (by simp)
      cases hdigit
    · rw [Lib.Text.fromStrRadix_of_spells (by decide) hlimit h]
      split <;> rfl
  · rw [hfilter]
    simp only [Lib.Text.fromStrRadix_of_spells (by decide) hlimit h]
    split <;> rfl

end IsNumber

theorem IsKey.trim_eq {key pad : List Char} (h : IsKey key) (hpad : IsPad pad) : trim (key ++ pad) = key := by
  rw [Lib.Text.trim_append_right hpad.whitespace]
  exact Lib.Text.trim_eq_self h.head h.last

theorem contentOf_value {key number pad₁ pad₂ pad₃ pad₄ comment : List Char} {n : Nat} (hkey : IsKey key)
    (hnumber : IsNumber n number) (h₁ : IsPad pad₁) (h₂ : IsPad pad₂) (h₃ : IsPad pad₃) (h₄ : IsPad pad₄)
    (hcomment : IsComment comment) :
    contentOf (pad₁ ++ key ++ pad₂ ++ '=' :: (pad₃ ++ number ++ pad₄) ++ comment) =
      key ++ pad₂ ++ '=' :: (pad₃ ++ number) := by
  have hhash : '#' ∉ number := fun hmem => absurd (hnumber.range '#' hmem).1 (by decide)
  have hbody : '#' ∉ pad₁ ++ key ++ pad₂ ++ '=' :: (pad₃ ++ number ++ pad₄) := by
    simp [h₁.not_mem, h₂.not_mem, h₃.not_mem, h₄.not_mem, hkey.no_hash, hhash]
  have hsplit : pad₁ ++ key ++ pad₂ ++ '=' :: (pad₃ ++ number ++ pad₄) =
      pad₁ ++ (key ++ pad₂ ++ '=' :: (pad₃ ++ number) ++ pad₄) := by simp
  rw [contentOf_eq, takeWhile_comment hbody hcomment, hsplit, Lib.Text.trim_append_left h₁.whitespace,
    Lib.Text.trim_append_right h₄.whitespace]
  refine Lib.Text.trim_eq_self ?_ ?_
  · rw [List.append_assoc, List.head?_append_of_ne_nil _ hkey.ne_nil]
    exact hkey.head
  · have hlast : key ++ pad₂ ++ '=' :: (pad₃ ++ number) = (key ++ pad₂ ++ '=' :: pad₃) ++ number := by simp
    rw [hlast, List.getLast?_append_of_ne_nil _ hnumber.ne_nil]
    exact fun c hc => hnumber.not_whitespace c (List.mem_of_getLast? hc)

/-! ## One line -/

/-- **A line with a value gives its entry if the number fits, and fails otherwise.** -/
theorem parseLine_value {key line : List Char} {n : Nat} (h : ValueLine key n line) (lineNumber : Nat) :
    parseLine lineNumber line =
      if n < 2 ^ 64 then .ok (some (key, BitVec.ofNat 64 n))
      else .error s!"line {lineNumber + 1}: invalid integer value" := by
  obtain ⟨hkey, hnumber, h₁, h₂, h₃, h₄, hcomment⟩ := h
  rename_i pad₁ pad₂ pad₃ pad₄ number comment
  have hequals : '=' ∉ key ++ pad₂ := by
    simp [hkey.no_equals, h₂.not_mem]
  have hne : (key ++ pad₂ ++ '=' :: (pad₃ ++ number)).isEmpty = false := by simp
  have hkeyne : key.isEmpty = false := by simpa using hkey.ne_nil
  unfold parseLine
  rw [contentOf_value hkey hnumber h₁ h₂ h₃ h₄ hcomment]
  simp only [hne, Bool.false_eq_true, if_false, Lib.Text.splitOnce_append hequals, hkey.trim_eq h₂, hkeyne,
    hnumber.trim_eq h₃, hnumber.parseInt_eq]
  by_cases hn : n < 2 ^ 64
  · simp only [if_pos hn]
  · simp only [if_neg hn]

theorem parseLine_blank {pad comment : List Char} (hpad : IsPad pad) (hcomment : IsComment comment) (lineNumber : Nat) :
    parseLine lineNumber (pad ++ comment) = .ok none := by
  have hcontent : contentOf (pad ++ comment) = [] := by
    rw [contentOf_eq, takeWhile_comment (hpad.not_mem (by decide)) hcomment]
    exact Lib.Text.trim_eq_nil_iff.2 hpad.whitespace
  unfold parseLine
  rw [hcontent]
  rfl

theorem parseLine_renders {entry : Option (List Char × U64)} {line : List Char} (h : RendersLine entry line)
    (lineNumber : Nat) : parseLine lineNumber line = .ok entry := by
  cases h with
  | blank hpad hcomment => exact parseLine_blank hpad hcomment lineNumber
  | entry h =>
    rw [parseLine_value h, if_pos (BitVec.isLt _), BitVec.ofNat_toNat, BitVec.setWidth_eq]

/-- **A line that is not blank and has no equals sign fails.** -/
theorem parseLine_no_equals {line : List Char} (hne : ∃ c ∈ line.takeWhile (· ≠ '#'), isWhitespace c = false)
    (hequals : '=' ∉ line.takeWhile (· ≠ '#')) (lineNumber : Nat) :
    parseLine lineNumber line = .error s!"line {lineNumber + 1}: expected key=value" := by
  have hcontent : (contentOf line).isEmpty = false := by
    rw [contentOf_eq, List.isEmpty_eq_false_iff]
    intro hnil
    obtain ⟨c, hc, hwhite⟩ := hne
    rw [Lib.Text.trim_eq_nil_iff.1 hnil c hc] at hwhite
    cases hwhite
  have hsplit : splitOnce '=' (contentOf line) = none := Lib.Text.splitOnce_eq_none fun hmem => by
    rw [contentOf_eq] at hmem
    exact hequals (Lib.Text.trim_subset hmem)
  unfold parseLine
  simp only [hcontent, Bool.false_eq_true, if_false, hsplit]

/-! ## Texts -/

theorem IsComment.no_newline {comment : List Char} (h : IsComment comment) : '\n' ∉ comment := by
  cases h with
  | none => simp
  | some h => simp [h]

theorem RendersLine.no_newline {entry : Option (List Char × U64)} {line : List Char} (h : RendersLine entry line) :
    '\n' ∉ line := by
  cases h with
  | blank hpad hcomment => simp [hpad.not_mem, hcomment.no_newline]
  | entry h =>
    obtain ⟨hkey, hnumber, h₁, h₂, h₃, h₄, hcomment⟩ := h
    have hnewline : '\n' ∉ _ := fun hmem => absurd (hnumber.range '\n' hmem).1 (by decide)
    simp [h₁.not_mem, h₂.not_mem, h₃.not_mem, h₄.not_mem, hkey.no_newline, hnewline, hcomment.no_newline]

theorem lines_cons {line ending : List Char} (hline : '\n' ∉ line) (hending : ending = ['\n'] ∨ ending = ['\r', '\n'])
    (rest : List Char) : ∃ line', lines (line ++ ending ++ rest) = line' :: lines rest ∧ contentOf line' = contentOf line := by
  unfold lines
  rcases hending with rfl | rfl
  · have htext : line ++ ['\n'] ++ rest = line ++ '\n' :: rest := by simp
    rw [htext, Lib.Text.splitInclusive_append hline, List.map_cons]
    exact ⟨_, rfl, contentOf_lineOf line⟩
  · have htext : line ++ ['\r', '\n'] ++ rest = (line ++ ['\r']) ++ '\n' :: rest := by simp
    have hline' : '\n' ∉ line ++ ['\r'] := by simp [hline]
    rw [htext, Lib.Text.splitInclusive_append hline', List.map_cons]
    exact ⟨_, rfl, (contentOf_lineOf _).trans (contentOf_append_return line)⟩

theorem lines_last {line : List Char} (hline : '\n' ∉ line) (hne : line ≠ []) : lines line = [line] := by
  unfold lines
  rw [Lib.Text.splitInclusive_of_not_mem hline hne, List.map_singleton, Lib.Text.lineOf_of_not_mem hline]

def PlatformConfig.insertAll (config : PlatformConfig) (entries : List (List Char × U64)) : PlatformConfig :=
  entries.foldl (fun config entry => config.insert entry.1 entry.2) config

theorem parseLines_cons {lineNumber : Nat} {line : List Char} {entry : Option (List Char × U64)}
    (h : parseLine lineNumber line = .ok entry) (rest : List (List Char)) (config : PlatformConfig) :
    parseLines lineNumber (line :: rest) config = parseLines (lineNumber + 1) rest (config.insertAll entry.toList) := by
  rw [parseLines, h]
  cases entry <;> rfl

/-- **A rendering is parsed to its entries**, inserted in their order. -/
theorem parseLines_renders {entries : List (List Char × U64)} {text : List Char} (h : Renders entries text) :
    ∀ (lineNumber : Nat) (config : PlatformConfig),
      parseLines lineNumber (lines text) config = .ok (config.insertAll entries) := by
  induction h with
  | last h =>
    rename_i entry line
    intro lineNumber config
    by_cases hne : line = []
    · subst hne
      -- the empty text has no line, and renders no entry
      have hnone : Except.ok none = Except.ok entry := parseLine_renders h lineNumber
      cases hnone
      rfl
    · rw [lines_last h.no_newline hne, parseLines_cons (parseLine_renders h lineNumber)]
      rfl
  | cons h hending hrest ih =>
    rename_i entry line ending rest entries
    intro lineNumber config
    obtain ⟨line', hlines, hcontent⟩ := lines_cons h.no_newline hending rest
    have hline := (parseLine_congr hcontent lineNumber).trans (parseLine_renders h lineNumber)
    rw [hlines, parseLines_cons hline, ih]
    unfold PlatformConfig.insertAll
    rw [List.foldl_append]

theorem lookup_insertAll {key : List Char} {value : U64} : ∀ {entries : List (List Char × U64)} (config : PlatformConfig),
    (entries.map Prod.fst).Nodup → ((config.insertAll entries).lookup key = some value ↔
      (key, value) ∈ entries ∨ key ∉ entries.map Prod.fst ∧ config.lookup key = some value)
  | [], config, _ => by simp [PlatformConfig.insertAll]
  | (key', value') :: entries, config, hnodup => by
    rw [List.map_cons, List.nodup_cons] at hnodup
    refine (lookup_insertAll (config.insert key' value') hnodup.2).trans ?_
    by_cases hkey : key = key'
    · subst hkey
      have hkeys : key ∉ entries.map Prod.fst := hnodup.1
      have hnot : (key, value) ∉ entries := fun hmem => hkeys (List.mem_map_of_mem (f := Prod.fst) hmem)
      simp [hnot, hkeys, Finmap.lookup_insert, eq_comm]
    · simp [hkey, Finmap.lookup_insert_of_ne _ hkey]

theorem parseLines_error : ∀ {lineTexts : List (List Char)} {line : List Char}, line ∈ lineTexts →
    (∀ lineNumber, ∃ e, parseLine lineNumber line = .error e) →
    ∀ (lineNumber : Nat) (config : PlatformConfig), ∃ e, parseLines lineNumber lineTexts config = .error e
  | line' :: rest, line, hmem, herror, lineNumber, config => by
    cases hline : parseLine lineNumber line' with
    | error e => exact ⟨e, by rw [parseLines, hline]⟩
    | ok entry =>
      rw [parseLines_cons hline]
      rcases List.mem_cons.1 hmem with rfl | hmem
      · obtain ⟨e, he⟩ := herror lineNumber
        rw [he] at hline
        cases hline
      · exact parseLines_error hmem herror _ _

/-- **Parsing recovers every rendering**: a text that renders the entries of a map, in any order and dressed up in any
way, is parsed to that map.  A number that does not fit, or a line without an equals sign that is not blank, makes the
parse of the whole text fail. -/
theorem parsePlatformConfig_recovers :
    (∀ (config : PlatformConfig) (entries : List (List Char × U64)) (text : List Char), (entries.map Prod.fst).Nodup →
      (∀ key value, (key, value) ∈ entries ↔ config.lookup key = some value) → Renders entries text →
      parsePlatformConfig text = .ok config) ∧
    (∀ (text line : List Char), line ∈ lines text →
      (∃ key n, ValueLine key n line ∧ 2 ^ 64 ≤ n) ∨
        ((∃ c ∈ line.takeWhile (· ≠ '#'), isWhitespace c = false) ∧ '=' ∉ line.takeWhile (· ≠ '#')) →
      ∃ e, parsePlatformConfig text = .error e) := by
  refine ⟨fun config entries text hnodup hentries hrenders => ?_, fun text line hmem hline => ?_⟩
  · unfold parsePlatformConfig
    rw [parseLines_renders hrenders]
    refine congrArg Except.ok (Finmap.ext_lookup fun key => Option.ext fun value => ?_)
    rw [lookup_insertAll ∅ hnodup, hentries]
    simp
  · refine parseLines_error hmem (fun lineNumber => ?_) 0 ∅
    rcases hline with ⟨key, n, hvalue, hn⟩ | ⟨hne, hequals⟩
    · exact ⟨_, (parseLine_value hvalue lineNumber).trans (if_neg (Nat.not_lt.2 hn))⟩
    · exact ⟨_, parseLine_no_equals hne hequals lineNumber⟩

theorem isKey_a : IsKey ['a'] where
  ne_nil := by decide
  head := by simp [isWhitespace]
  last := by simp [isWhitespace]
  no_equals := by decide
  no_hash := by decide
  no_newline := by decide

theorem isNumber_hex : IsNumber 0x47ff ['0', 'x', '0', '4', '7', '_', 'F', 'f'] :=
  .inr ⟨['0', '4', '7', 'F', 'f'], by decide, [0, 4, 7, 15, 15], by decide, by decide, by simp [Nat.ofDigits]⟩

theorem isNumber_two_pow_64 : IsNumber (2 ^ 64) ("0x1_".toList ++ List.replicate 16 '0') :=
  .inr ⟨'1' :: List.replicate 16 '0', by decide, 1 :: List.replicate 16 0, by decide, by decide, by simp [Nat.ofDigits]⟩

theorem parsePlatformConfig_recovers_entry :
    parsePlatformConfig "#c\r\n\ta =0x047_Ff #=\n".toList = .ok ((∅ : PlatformConfig).insert ['a'] 0x47ff) ∧
      (∃ e, parsePlatformConfig "a=0x1_0000000000000000\n".toList = .error e) ∧
      ∃ e, parsePlatformConfig "a=0x47Ff\nb".toList = .error e := by
  have hpad : IsPad [] := fun _ hc => by cases hc
  have hspace : IsPad [' '] := fun _ hc => .inl (List.mem_singleton.1 hc)
  have htab : IsPad ['\t'] := fun _ hc => .inr (List.mem_singleton.1 hc)
  have hblank : RendersLine none ['#', 'c'] := @RendersLine.blank [] ['#', 'c'] hpad (.some (by decide))
  have hentry : RendersLine (some (['a'], 0x47ff)) "\ta =0x047_Ff #=".toList :=
    .entry (@ValueLine.mk ['a'] 0x47ff ['\t'] [' '] [] [' '] _ ['#', '='] isKey_a isNumber_hex htab hspace hpad hspace
      (.some (by decide)))
  have hrenders : Renders [(['a'], 0x47ff)] "#c\r\n\ta =0x047_Ff #=\n".toList :=
    .cons hblank (.inr rfl) (.cons hentry (.inl rfl) (.last (@RendersLine.blank [] [] hpad .none)))
  have hlarge : ValueLine ['a'] (2 ^ 64) "a=0x1_0000000000000000".toList :=
    @ValueLine.mk ['a'] (2 ^ 64) [] [] [] [] _ [] isKey_a isNumber_two_pow_64 hpad hpad hpad hpad .none
  refine ⟨parsePlatformConfig_recovers.1 _ _ _ (by decide) (fun key value => ?_) hrenders, ?_, ?_⟩
  · by_cases hkey : key = ['a']
    · subst hkey
      simp [Finmap.lookup_insert, eq_comm]
    · simp [hkey, Finmap.lookup_insert_of_ne _ hkey]
  · exact parsePlatformConfig_recovers.2 _ _ (by decide) (.inl ⟨['a'], 2 ^ 64, hlarge, by decide⟩)
  · exact parsePlatformConfig_recovers.2 _ ['b'] (by decide) (.inr ⟨⟨'b', by decide, by decide⟩, by decide⟩)

end Ritm
