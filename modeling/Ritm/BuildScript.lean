import Mathlib.Data.Char
import Mathlib.Data.List.Lex
import Mathlib.Data.List.Sort
import Ritm.PlatformConfig
import Ritm.Qemu
/-!
# BuildScript — the addresses a build is linked at

The build script takes two addresses from the platform's config file and writes them into a linker script and into a
module of source code; a payload that is to be embedded gets a memory region of its own.  What the linker and the
compiler read from these files (`memoryRegion`, `valueOf`) is what the config file says, so the range that the QEMU
platform keeps from its guests is the range the image is linked into.
-/
namespace Ritm

open Lib.Text (isWhitespace trim lines splitOnce splitWhitespace stripSuffix stripPrefix formatRadix)

/-! ## The script -/

/-- What the script reads of its environment and of the file system. -/
structure Surroundings where
  -- `CARGO_CFG_PLATFORM` and `RITM_PAYLOAD`, if they are set.
  platform : Option (List Char)
  ritmPayload : Option (List Char)
  manifestDir : List Char
  -- The names in the directory of config files, in the order in which it lists them.
  platformConfigDir : List (List Char)
  readToString : List Char → Option (List Char)
  canonicalize : List Char → Option (List Char)
  metadataLen : List Char → Option U64
  pathExists : List Char → Bool

inductive BuildPanic where
  | missingPlatformName
  | unexpectedPlatformName (platform : List Char) (platforms : List (List Char))
  | failedToRead (path : List Char)
  | failedToParse (path : List Char) (error : String)
  | couldNotFind (key path : List Char)
  | failedToCanonicalize (path : List Char)
  | failedToReadMetadata (path : List Char)
  | addOverflow
  | payloadTooLarge (path : List Char) (size sizeAligned : Nat)
  | noMatchingSource (platform path : List Char)
  deriving DecidableEq

def ritmImageAddressKey : List Char := "ritm_image_address".toList

def payloadAddressKey : List Char := "payload_address".toList

def payloadSizeLimit : Nat := 64 * 1024 * 1024

def payloadSectionAlignment : Nat := 4

/-- The parts of a file name about its last dot, as `Path` takes them: a dot at the start is part of the stem. -/
def splitFileAtDot (name : List Char) : Option (List Char) × Option (List Char) :=
  if name = ['.', '.'] then (some name, none)
  else
    match splitOnce '.' name.reverse with
    | none => (none, some name)
    | some (after, before) => if before.isEmpty then (some name, none) else (some before.reverse, some after.reverse)

def fileExtension (name : List Char) : Option (List Char) :=
  match splitFileAtDot name with
  | (some _, after) => after
  | (none, _) => none

def fileStem (name : List Char) : Option (List Char) :=
  match splitFileAtDot name with
  | (some before, _) => some before
  | (none, after) => after

def platformOfFile (name : List Char) : Option (List Char) :=
  if fileExtension name ≠ some "conf".toList then none else fileStem name

def discoverPlatforms (s : Surroundings) : List (List Char) :=
  (s.platformConfigDir.filterMap platformOfFile).insertionSort (· ≤ ·)

def platformConfigFile (platform : List Char) : List Char := "platforms/".toList ++ platform ++ ".conf".toList

def platformConfig (s : Surroundings) (path : List Char) : Except BuildPanic PlatformConfig :=
  match s.readToString path with
  | none => .error (.failedToRead path)
  | some source =>
    match parsePlatformConfig source with
    | .error e => .error (.failedToParse path e)
    | .ok config => .ok config

def configValue (config : PlatformConfig) (key path : List Char) : Except BuildPanic U64 :=
  match config.lookup key with
  | none => .error (.couldNotFind key path)
  | some value => .ok value

structure PayloadConfig where
  address : U64
  path : List Char
  size : U64

/-- `u64::next_multiple_of`, which overflows if the multiple does not fit. -/
def nextMultipleOf (size : U64) (alignment : Nat) : Except BuildPanic Nat :=
  let multiple := (size.toNat + (alignment - 1)) / alignment * alignment
  if multiple < 2 ^ 64 then .ok multiple else .error .addOverflow

def payloadConfig (s : Surroundings) (address : U64) : Except BuildPanic (Option PayloadConfig) :=
  match s.ritmPayload with
  | none | some [] => .ok none
  | some (c :: cs) =>
    match s.canonicalize (c :: cs) with
    | none => .error (.failedToCanonicalize (c :: cs))
    | some path =>
      match s.metadataLen path with
      | none => .error (.failedToReadMetadata path)
      | some size => do
        let sizeAligned ← nextMultipleOf size payloadSectionAlignment
        if sizeAligned ≤ payloadSizeLimit then .ok (some ⟨address, path, size⟩)
        else .error (.payloadTooLarge path size.toNat sizeAligned)

/-- A number as the format `:#x` writes it. -/
def lowerHex (n : U64) : List Char := '0' :: 'x' :: formatRadix 16 n.toNat

def imageMemory : List Char := "\nMEMORY\n\x7b\n\timage : ORIGIN = RITM_IMAGE_ADDRESS, LENGTH = 4M\n".toList

def payloadMemory : Option PayloadConfig → List Char
  | none => []
  | some payload =>
    "\tpayload (rwx) : ORIGIN = ".toList ++ lowerHex payload.address ++ ", LENGTH = ".toList ++
      formatRadix 10 (payloadSizeLimit / 1024 / 1024) ++ "M\n".toList

def payloadSections : Option PayloadConfig → List Char
  | none => []
  | some _ =>
    ("\nSECTIONS \x7b\n\t.payload :\n\t\x7b\n\t\tKEEP(*(.payload));\n\t\t. = ALIGN(4);\n\t\x7d > payload\n" ++
      "\x7d INSERT AFTER .text;\n").toList

def linkerScript (imageAddress : U64) (payload : Option PayloadConfig) : List Char :=
  "RITM_IMAGE_ADDRESS = ".toList ++ lowerHex imageAddress ++ ";\n".toList ++
    (imageMemory ++ (payloadMemory payload ++ ("\x7d\n".toList ++ payloadSections payload)))

def platformSourcePath (s : Surroundings) (platform : List Char) : Except BuildPanic (List Char) :=
  let platformDir := s.manifestDir ++ "/src/platform/".toList
  let directPath := platformDir ++ platform ++ ".rs".toList
  if s.pathExists directPath then .ok directPath
  else if platform = "qemu_bl33".toList then .ok (platformDir ++ "qemu.rs".toList)
  else .error (.noMatchingSource platform directPath)

def platformModules (s : Surroundings) : List (List Char) → Except BuildPanic (List Char)
  | [] => .ok []
  | platform :: platforms => do
    let path ← platformSourcePath s platform
    let rest ← platformModules s platforms
    .ok ("\n#[cfg(platform = \"".toList ++ platform ++ "\")]\n#[path = \"".toList ++ path ++ "\"]\nmod ".toList ++
      platform ++ ";\n\n#[cfg(platform = \"".toList ++ platform ++ "\")]\npub use ".toList ++ platform ++
      "::PlatformImpl;\n".toList ++ rest)

def addressConstants (imageAddress payloadAddress : U64) : List Char :=
  "#[allow(clippy::unreadable_literal)]\npub const RITM_IMAGE_ADDRESS: usize = ".toList ++ lowerHex imageAddress ++
    ";\n#[allow(clippy::unreadable_literal)]\npub const PAYLOAD_ADDRESS: u64 = ".toList ++ lowerHex payloadAddress ++
    ";\n".toList

def platformModuleSource (s : Surroundings) (platforms : List (List Char)) (imageAddress payloadAddress : U64) :
    Except BuildPanic (List Char) := do
  let modules ← platformModules s platforms
  .ok (addressConstants imageAddress payloadAddress ++ modules)

def payloadSourceCode : Option PayloadConfig → List Char
  | none => []
  | some payload =>
    "\n#[used]\n#[unsafe(link_section = \".payload\")]\nstatic EMBEDDED_PAYLOAD: [u8; ".toList ++
      formatRadix 10 payload.size.toNat ++ "] = *include_bytes!(\"".toList ++ payload.path ++ "\");\n".toList

structure Generated where
  platformLinkerScript : List Char
  platformModule : List Char
  payloadSource : List Char

def chosenPlatform (s : Surroundings) : Except BuildPanic (List Char) :=
  match s.platform with
  | none => .error .missingPlatformName
  | some platform =>
    if platform ∈ discoverPlatforms s then .ok platform
    else .error (.unexpectedPlatformName platform (discoverPlatforms s))

def buildMain (s : Surroundings) : Except BuildPanic Generated := do
  let platform ← chosenPlatform s
  let configFile := platformConfigFile platform
  let config ← platformConfig s configFile
  let imageAddress ← configValue config ritmImageAddressKey configFile
  let payloadAddress ← configValue config payloadAddressKey configFile
  let payload ← payloadConfig s payloadAddress
  let platformModule ← platformModuleSource s (discoverPlatforms s) imageAddress payloadAddress
  .ok ⟨linkerScript imageAddress payload, platformModule, payloadSourceCode payload⟩

/-! ## How its files are read -/

/-- The value a line `name = value;` gives the name, in a linker script or in source code. -/
def assigned (name line : List Char) : Option U64 :=
  match splitOnce '=' line with
  | none => none
  | some (left, right) =>
    if trim left = name then (stripSuffix ';' right).bind fun value => parseInt (trim value) else none

def valueOf (name text : List Char) : Option U64 := (lines text).findSome? (assigned name)

/-- The origin and the length a line of a `MEMORY` command gives the region of this name. -/
def regionLine (name line : List Char) : Option (List Char × List Char) :=
  match splitOnce ':' line with
  | none => none
  | some (left, right) =>
    if (splitWhitespace left).head? = some name then
      match splitOnce ',' right with
      | none => none
      | some (origin, length) =>
        match stripPrefix "ORIGIN = ".toList (trim origin), stripPrefix "LENGTH = ".toList (trim length) with
        | some origin, some length => some (origin, length)
        | _, _ => none
    else none

/-- Where the linker puts the region, and its size: an origin may be a symbol, and a length is in megabytes. -/
def memoryRegion (name script : List Char) : Option (U64 × Nat) :=
  match (lines script).findSome? (regionLine name) with
  | none => none
  | some (origin, length) =>
    match (parseInt origin).or (valueOf origin script), (stripSuffix 'M' length).bind parseInt with
    | some origin, some megabytes => some (origin, megabytes.toNat * 1024 * 1024)
    | _, _ => none

/-! ## Numbers -/

theorem lowerHex_range {n : U64} {c : Char} (h : c ∈ lowerHex n) :
    48 ≤ c.toNat ∧ c.toNat ≤ 57 ∨ 65 ≤ c.toNat ∧ c.toNat ≤ 90 ∨ 97 ≤ c.toNat ∧ c.toNat ≤ 122 := by
  rcases List.mem_cons.1 h with rfl | h
  · decide
  rcases List.mem_cons.1 h with rfl | h
  · decide
  obtain ⟨digit, hdigit⟩ := (Lib.Text.spells_formatRadix (by decide) (by decide) n.toNat).isDigit c h
  exact Lib.Text.toDigit_range hdigit

theorem isNumber_lowerHex (n : U64) : IsNumber n.toNat (lowerHex n) := by
  have hfilter : (lowerHex n).filter (· ≠ '_') = lowerHex n := by
    refine List.filter_eq_self.2 fun c hc => ?_
    have hrange := lowerHex_range hc
    simp only [ne_eq, decide_not, Bool.not_eq_true', decide_eq_false_iff_not]
    rintro rfl
    revert hrange
    decide
  exact .inr ⟨formatRadix 16 n.toNat, hfilter, Lib.Text.spells_formatRadix (by decide) (by decide) n.toNat⟩

/-- **A number the script writes is the number that is read.** -/
theorem parseInt_lowerHex (n : U64) : parseInt (lowerHex n) = some n := by
  rw [(isNumber_lowerHex n).parseInt_eq, if_pos n.isLt, BitVec.ofNat_toNat, BitVec.setWidth_eq]

theorem trim_space_lowerHex (n : U64) : trim (' ' :: lowerHex n) = lowerHex n := by
  have hspace : IsPad [' '] := fun _ hc => .inl (List.mem_singleton.1 hc)
  exact (isNumber_lowerHex n).trim_eq hspace

theorem not_mem_lowerHex (n : U64) {c : Char}
    (hc : ¬ (48 ≤ c.toNat ∧ c.toNat ≤ 57 ∨ 65 ≤ c.toNat ∧ c.toNat ≤ 90 ∨ 97 ≤ c.toNat ∧ c.toNat ≤ 122)) :
    c ∉ lowerHex n := fun h => hc (lowerHex_range h)

/-! ## Lines with an address -/

def assignment (left : List Char) (n : U64) : List Char := left ++ '=' :: (' ' :: lowerHex n ++ [';'])

theorem assigned_assignment {name left : List Char} (hleft : '=' ∉ left) (hname : trim left = name) (n : U64) :
    assigned name (assignment left n) = some n := by
  unfold assigned assignment
  rw [Lib.Text.splitOnce_append hleft]
  dsimp only
  rw [if_pos hname, Lib.Text.stripSuffix_append, Option.bind_some, trim_space_lowerHex, parseInt_lowerHex]

theorem assigned_assignment_of_ne {name left : List Char} (hleft : '=' ∉ left) (hname : trim left ≠ name) (n : U64) :
    assigned name (assignment left n) = none := by
  unfold assigned assignment
  rw [Lib.Text.splitOnce_append hleft]
  exact if_neg hname

theorem lines_assignment {left : List Char} (hleft : '\n' ∉ left) (n : U64) (rest : List Char) :
    lines (assignment left n ++ '\n' :: rest) = assignment left n :: lines rest := by
  have hlast : assignment left n = (left ++ '=' :: ' ' :: lowerHex n) ++ [';'] := by simp [assignment]
  refine Lib.Text.lines_append ?_ ?_ rest
  · simp [assignment, hleft, not_mem_lowerHex]
  · rw [hlast, List.getLast?_concat]
    decide

theorem regionLine_assignment {name left : List Char} (hleft : ':' ∉ left) (n : U64) :
    regionLine name (assignment left n) = none := by
  have hcolon : ':' ∉ assignment left n := by simp [assignment, hleft, not_mem_lowerHex]
  rw [regionLine, Lib.Text.splitOnce_eq_none hcolon]

def payloadLine (address : U64) : List Char :=
  "\tpayload (rwx) ".toList ++ ':' :: (" ORIGIN = ".toList ++ lowerHex address ++ ',' :: " LENGTH = 64M".toList)

theorem lines_payloadLine (address : U64) (rest : List Char) :
    lines (payloadLine address ++ '\n' :: rest) = payloadLine address :: lines rest := by
  have hchars : '\n' ∉ payloadLine address ∧ '\r' ∉ payloadLine address := by
    unfold payloadLine
    simp [not_mem_lowerHex]
  exact Lib.Text.lines_append hchars.1 (fun hlast => hchars.2 (List.mem_of_getLast? hlast)) rest

theorem trim_origin (n : U64) : trim (" ORIGIN = ".toList ++ lowerHex n) = "ORIGIN = ".toList ++ lowerHex n := by
  have htext : " ORIGIN = ".toList ++ lowerHex n = [' '] ++ ("ORIGIN = ".toList ++ lowerHex n) := rfl
  have hspace : ∀ c ∈ [' '], isWhitespace c = true := List.forall_mem_singleton.2 (by decide)
  rw [htext, Lib.Text.trim_append_left hspace]
  refine Lib.Text.trim_eq_self (by simp [isWhitespace]) fun c hc => ?_
  rw [List.getLast?_append_of_ne_nil _ (isNumber_lowerHex n).ne_nil] at hc
  exact (isNumber_lowerHex n).not_whitespace c (List.mem_of_getLast? hc)

theorem regionLine_payloadLine (address : U64) :
    regionLine "payload".toList (payloadLine address) = some (lowerHex address, "64M".toList) := by
  have hcomma : ',' ∉ " ORIGIN = ".toList ++ lowerHex address := by simp [not_mem_lowerHex]
  have horigin : stripPrefix "ORIGIN = ".toList (trim (" ORIGIN = ".toList ++ lowerHex address)) =
      some (lowerHex address) := by
    rw [trim_origin]
    exact Lib.Text.stripPrefix_eq_some.2 rfl
  have hlength : stripPrefix "LENGTH = ".toList (trim " LENGTH = 64M".toList) = some "64M".toList := by decide
  unfold regionLine payloadLine
  rw [Lib.Text.splitOnce_append (by decide)]
  dsimp only
  rw [if_pos (by decide), Lib.Text.splitOnce_append hcomma]
  dsimp only
  rw [horigin, hlength]

/-! ## The linker script -/

theorem payloadMemory_some (payload : PayloadConfig) :
    payloadMemory (some payload) = payloadLine payload.address ++ ['\n'] := by
  have hlimit : formatRadix 10 (payloadSizeLimit / 1024 / 1024) = "64".toList := by decide
  unfold payloadMemory payloadLine
  dsimp only
  rw [hlimit]
  simp

theorem lines_linkerScript (imageAddress : U64) (payload : Option PayloadConfig) :
    lines (linkerScript imageAddress payload) = assignment "RITM_IMAGE_ADDRESS ".toList imageAddress ::
      (lines imageMemory ++ ((payload.map fun payload => payloadLine payload.address).toList ++
        lines ("\x7d\n".toList ++ payloadSections payload))) := by
  have hsymbol : ∀ rest, "RITM_IMAGE_ADDRESS = ".toList ++ lowerHex imageAddress ++ ";\n".toList ++ rest =
      assignment "RITM_IMAGE_ADDRESS ".toList imageAddress ++ '\n' :: rest := by
    intro rest
    simp [assignment]
  have himage : imageMemory.getLast? = some '\n' := by decide +kernel
  unfold linkerScript
  rw [hsymbol, lines_assignment (by decide), Lib.Text.lines_append_block himage]
  cases payload with
  | none => rfl
  | some payload =>
    rw [payloadMemory_some, List.append_assoc, List.singleton_append, lines_payloadLine]
    rfl

theorem valueOf_linkerScript (imageAddress : U64) (payload : Option PayloadConfig) :
    valueOf "RITM_IMAGE_ADDRESS".toList (linkerScript imageAddress payload) = some imageAddress := by
  rw [valueOf, lines_linkerScript, List.findSome?_cons, assigned_assignment (by decide) (by decide)]

theorem memoryRegion_image (imageAddress : U64) (payload : Option PayloadConfig) :
    memoryRegion "image".toList (linkerScript imageAddress payload) = some (imageAddress, 4 * 1024 * 1024) := by
  have hregion : (lines (linkerScript imageAddress payload)).findSome? (regionLine "image".toList) =
      some ("RITM_IMAGE_ADDRESS".toList, "4M".toList) := by
    have himage : (lines imageMemory).findSome? (regionLine "image".toList) =
        some ("RITM_IMAGE_ADDRESS".toList, "4M".toList) := by decide +kernel
    rw [lines_linkerScript, List.findSome?_cons, regionLine_assignment (by decide)]
    dsimp only
    rw [List.findSome?_append, himage, Option.some_or]
  -- the origin is not a number but the symbol that the first line defines
  have hsymbol : parseInt "RITM_IMAGE_ADDRESS".toList = none := by decide
  have hlength : (stripSuffix 'M' "4M".toList).bind parseInt = some 4 := by decide
  rw [memoryRegion, hregion]
  dsimp only
  rw [hsymbol, valueOf_linkerScript, hlength]
  rfl

/-- **A payload that is embedded has a region at its address**, and there is none otherwise. -/
theorem memoryRegion_payload (imageAddress : U64) (payload : Option PayloadConfig) :
    memoryRegion "payload".toList (linkerScript imageAddress payload) =
      payload.map fun payload => (payload.address, payloadSizeLimit) := by
  have himage : (lines imageMemory).findSome? (regionLine "payload".toList) = none := by decide +kernel
  have hlength : (stripSuffix 'M' "64M".toList).bind parseInt = some 64 := by decide
  rw [memoryRegion, lines_linkerScript, List.findSome?_cons, regionLine_assignment (by decide)]
  dsimp only
  rw [List.findSome?_append, himage, Option.none_or]
  cases payload with
  | none => rfl
  | some payload =>
    rw [Option.map_some, Option.toList_some, List.singleton_append, List.findSome?_cons, regionLine_payloadLine]
    dsimp only
    rw [parseInt_lowerHex, Option.some_or, hlength]
    rfl

/-! ## The module -/

theorem lines_addressConstants (imageAddress payloadAddress : U64) (modules : List Char) :
    lines (addressConstants imageAddress payloadAddress ++ modules) =
      "#[allow(clippy::unreadable_literal)]".toList ::
        assignment "pub const RITM_IMAGE_ADDRESS: usize ".toList imageAddress ::
          "#[allow(clippy::unreadable_literal)]".toList ::
            assignment "pub const PAYLOAD_ADDRESS: u64 ".toList payloadAddress :: lines modules := by
  -- the two format strings of the source, cut where a line ends
  have htext : addressConstants imageAddress payloadAddress ++ modules =
      "#[allow(clippy::unreadable_literal)]".toList ++
        '\n' :: (assignment "pub const RITM_IMAGE_ADDRESS: usize ".toList imageAddress ++
          '\n' :: ("#[allow(clippy::unreadable_literal)]".toList ++
            '\n' :: (assignment "pub const PAYLOAD_ADDRESS: u64 ".toList payloadAddress ++ '\n' :: modules))) := by
    unfold addressConstants assignment
    simp
  have hallow : '\n' ∉ "#[allow(clippy::unreadable_literal)]".toList ∧
      "#[allow(clippy::unreadable_literal)]".toList.getLast? ≠ some '\r' := by decide +kernel
  rw [htext, Lib.Text.lines_append hallow.1 hallow.2, lines_assignment (by decide +kernel),
    Lib.Text.lines_append hallow.1 hallow.2, lines_assignment (by decide +kernel)]

theorem assigned_allow (name : List Char) : assigned name "#[allow(clippy::unreadable_literal)]".toList = none := by
  rw [assigned, Lib.Text.splitOnce_eq_none (by decide +kernel)]

theorem valueOf_image (imageAddress payloadAddress : U64) (modules : List Char) :
    valueOf "pub const RITM_IMAGE_ADDRESS: usize".toList (addressConstants imageAddress payloadAddress ++ modules) =
      some imageAddress := by
  unfold valueOf
  rw [lines_addressConstants, List.findSome?_cons, assigned_allow, List.findSome?_cons,
    assigned_assignment (by decide +kernel) (by decide +kernel)]

theorem valueOf_payload (imageAddress payloadAddress : U64) (modules : List Char) :
    valueOf "pub const PAYLOAD_ADDRESS: u64".toList (addressConstants imageAddress payloadAddress ++ modules) =
      some payloadAddress := by
  unfold valueOf
  rw [lines_addressConstants, List.findSome?_cons, assigned_allow, List.findSome?_cons,
    assigned_assignment_of_ne (by decide +kernel) (by decide +kernel), List.findSome?_cons, assigned_allow,
    List.findSome?_cons, assigned_assignment (by decide +kernel) (by decide +kernel)]

/-! ## Whole builds -/

/-- The chosen platform has a config file in the documented format that gives both addresses, and every platform has
its source code. -/
structure Configured (s : Surroundings) (imageAddress payloadAddress : U64) : Prop where
  config : ∃ platform text entries, s.platform = some platform ∧ platform ∈ discoverPlatforms s ∧
    s.readToString (platformConfigFile platform) = some text ∧ Renders entries text ∧ (entries.map Prod.fst).Nodup ∧
    (ritmImageAddressKey, imageAddress) ∈ entries ∧ (payloadAddressKey, payloadAddress) ∈ entries
  sources : ∀ platform ∈ discoverPlatforms s, ∃ path, platformSourcePath s platform = .ok path

def Embeds (s : Surroundings) (size : U64) : Prop :=
  ∃ path canonical, path ≠ [] ∧ s.ritmPayload = some path ∧ s.canonicalize path = some canonical ∧
    s.metadataLen canonical = some size

/-- Compiler and linker read these addresses, and the image is linked into the range the platform keeps from guests. -/
structure Generated.Carries (files : Generated) (imageAddress payloadAddress : U64) : Prop where
  image : valueOf "pub const RITM_IMAGE_ADDRESS: usize".toList files.platformModule = some imageAddress
  payload : valueOf "pub const PAYLOAD_ADDRESS: u64".toList files.platformModule = some payloadAddress
  region : ∀ image : Qemu.Image, image.ritmStart = imageAddress.toNat → ∃ origin length,
    memoryRegion "image".toList files.platformLinkerScript = some (origin, length) ∧ origin.toNat = image.ritmStart ∧
      origin.toNat + length = image.ritmEnd

section Builds

variable {s : Surroundings} {imageAddress payloadAddress : U64}

theorem platformModules_isOk : ∀ {platforms : List (List Char)},
    (∀ platform ∈ platforms, ∃ path, platformSourcePath s platform = .ok path) →
    ∃ modules, platformModules s platforms = .ok modules
  | [], _ => ⟨[], rfl⟩
  | platform :: platforms, h => by
    obtain ⟨path, hpath⟩ := h platform List.mem_cons_self
    obtain ⟨rest, hrest⟩ := platformModules_isOk fun platform hmem => h platform (List.mem_cons_of_mem _ hmem)
    unfold platformModules
    rw [hpath, hrest]
    exact ⟨_, rfl⟩

theorem Configured.buildMain_eq (h : Configured s imageAddress payloadAddress) : ∃ modules,
    buildMain s = (payloadConfig s payloadAddress).map fun payload =>
      ⟨linkerScript imageAddress payload, addressConstants imageAddress payloadAddress ++ modules,
        payloadSourceCode payload⟩ := by
  obtain ⟨platform, text, entries, hplatform, hmem, hread, hrenders, hnodup, himage, hpayload⟩ := h.config
  obtain ⟨modules, hmodules⟩ := platformModules_isOk h.sources
  have hparse : parsePlatformConfig text = .ok ((∅ : PlatformConfig).insertAll entries) := parseLines_renders hrenders 0 ∅
  have hvalue : ∀ {key value}, (key, value) ∈ entries →
      configValue ((∅ : PlatformConfig).insertAll entries) key (platformConfigFile platform) = .ok value := by
    intro key value hentry
    rw [configValue, (lookup_insertAll ∅ hnodup).2 (.inl hentry)]
  have hchosen : chosenPlatform s = .ok platform := by
    rw [chosenPlatform, hplatform]
    exact if_pos hmem
  have hconfig : platformConfig s (platformConfigFile platform) = .ok ((∅ : PlatformConfig).insertAll entries) := by
    rw [platformConfig, hread]
    dsimp only
    rw [hparse]
  refine ⟨modules, ?_⟩
  unfold buildMain platformModuleSource
  rw [hchosen, hmodules]
  simp only [bind, Except.bind, hconfig, hvalue himage, hvalue hpayload]
  cases payloadConfig s payloadAddress <;> rfl

theorem carries (modules : List Char) (payload : Option PayloadConfig) :
    Generated.Carries ⟨linkerScript imageAddress payload, addressConstants imageAddress payloadAddress ++ modules,
      payloadSourceCode payload⟩ imageAddress payloadAddress where
  image := valueOf_image imageAddress payloadAddress modules
  payload := valueOf_payload imageAddress payloadAddress modules
  region image hstart := by
    refine ⟨imageAddress, 4 * 1024 * 1024, memoryRegion_image imageAddress payload, hstart.symm, ?_⟩
    rw [Qemu.Image.ritmEnd, hstart]

theorem nextMultipleOf_of_le {size : U64} (hle : size.toNat ≤ payloadSizeLimit) :
    ∃ sizeAligned ≤ payloadSizeLimit, nextMultipleOf size payloadSectionAlignment = .ok sizeAligned := by
  unfold nextMultipleOf
  unfold payloadSizeLimit payloadSectionAlignment at *
  refine ⟨(size.toNat + (4 - 1)) / 4 * 4, by omega, if_pos (by omega)⟩

theorem le_of_nextMultipleOf {size : U64} {sizeAligned : Nat}
    (h : nextMultipleOf size payloadSectionAlignment = .ok sizeAligned) : size.toNat ≤ sizeAligned := by
  unfold nextMultipleOf payloadSectionAlignment at h
  dsimp only at h
  split at h
  · cases h
    omega
  · cases h

theorem payloadConfig_none (h : s.ritmPayload = none ∨ s.ritmPayload = some []) (address : U64) :
    payloadConfig s address = .ok none := by
  rcases h with h | h <;> rw [payloadConfig, h]

theorem payloadConfig_embeds {size : U64} (h : Embeds s size) (address : U64) :
    if size.toNat ≤ payloadSizeLimit then
      ∃ payload : PayloadConfig, payload.address = address ∧ payloadConfig s address = .ok (some payload)
    else ∃ e, payloadConfig s address = .error e := by
  obtain ⟨path, canonical, hne, hpath, hcanonical, hsize⟩ := h
  obtain ⟨c, cs, rfl⟩ := List.exists_cons_of_ne_nil hne
  have hconfig : payloadConfig s address = (nextMultipleOf size payloadSectionAlignment).bind fun sizeAligned =>
      if sizeAligned ≤ payloadSizeLimit then .ok (some ⟨address, canonical, size⟩)
      else .error (.payloadTooLarge canonical size.toNat sizeAligned) := by
    rw [payloadConfig, hpath]
    dsimp only
    rw [hcanonical]
    dsimp only
    rw [hsize]
    rfl
  split
  · rename_i hle
    obtain ⟨sizeAligned, haligned, hmultiple⟩ := nextMultipleOf_of_le hle
    refine ⟨⟨address, canonical, size⟩, rfl, ?_⟩
    rw [hconfig, hmultiple]
    exact if_pos haligned
  · rename_i hlt
    rw [hconfig]
    cases hmultiple : nextMultipleOf size payloadSectionAlignment with
    | error e => exact ⟨e, rfl⟩
    | ok sizeAligned =>
      have haligned : ¬ sizeAligned ≤ payloadSizeLimit := by
        have := le_of_nextMultipleOf hmultiple
        omega
      exact ⟨_, if_neg haligned⟩

end Builds

/-- **A build carries the configured addresses.**  With both addresses in a config file of the documented format, what
the compiler and the linker read from the generated files are these addresses, and the image's region is the range that
the QEMU platform keeps from guests.  An embedded payload of up to 64 MiB has a region at the payload's address; with a
larger one the build fails. -/
theorem build_carries_config (s : Surroundings) (imageAddress payloadAddress : U64)
    (h : Configured s imageAddress payloadAddress) :
    (s.ritmPayload = none ∨ s.ritmPayload = some [] → ∃ files, buildMain s = .ok files ∧
      files.Carries imageAddress payloadAddress ∧ memoryRegion "payload".toList files.platformLinkerScript = none) ∧
    ∀ size, Embeds s size →
      if size.toNat ≤ payloadSizeLimit then
        ∃ files, buildMain s = .ok files ∧ files.Carries imageAddress payloadAddress ∧
          memoryRegion "payload".toList files.platformLinkerScript = some (payloadAddress, payloadSizeLimit)
      else ∃ e, buildMain s = .error e := by
  obtain ⟨modules, hbuild⟩ := h.buildMain_eq
  refine ⟨fun hnone => ?_, fun size hembeds => ?_⟩
  · rw [payloadConfig_none hnone] at hbuild
    exact ⟨_, hbuild, carries modules none, memoryRegion_payload imageAddress none⟩
  · have hpayload := payloadConfig_embeds hembeds payloadAddress
    split at hpayload
    · rename_i hle
      obtain ⟨payload, haddress, hpayload⟩ := hpayload
      rw [if_pos hle]
      rw [hpayload] at hbuild
      refine ⟨_, hbuild, carries modules (some payload), ?_⟩
      rw [memoryRegion_payload, Option.map_some, haddress]
    · rename_i hlt
      obtain ⟨e, hpayload⟩ := hpayload
      rw [if_neg hlt]
      rw [hpayload] at hbuild
      exact ⟨e, hbuild⟩

def qemuSurroundings : Surroundings where
  platform := some "qemu".toList
  ritmPayload := some "payload.bin".toList
  manifestDir := "/ritm".toList
  platformConfigDir := ["qemu_bl33.conf".toList, "README.md".toList, "qemu.conf".toList]
  readToString _ := some ("# QEMU aarch64 virt platform addresses.\n".toList ++
    ("ritm_image_address=0x4700_0000\n".toList ++ "payload_address=0x4020_0000\n".toList))
  canonicalize path := some ("/ritm/".toList ++ path)
  metadataLen _ := some 1000
  pathExists path := path = "/ritm/src/platform/qemu.rs".toList

theorem isKey_of_all {key : List Char} (hne : key ≠ [])
    (h : key.all (fun c => !isWhitespace c && c != '=' && c != '#') = true) : IsKey key := by
  have hchar : ∀ c ∈ key, isWhitespace c = false ∧ c ≠ '=' ∧ c ≠ '#' := by
    intro c hc
    simpa [and_assoc] using List.all_eq_true.1 h c hc
  exact ⟨hne, fun c hc => (hchar c (List.mem_of_head? hc)).1, fun c hc => (hchar c (List.mem_of_getLast? hc)).1,
    fun hc => (hchar _ hc).2.1 rfl, fun hc => (hchar _ hc).2.2 rfl, fun hc => by cases (hchar _ hc).1⟩

theorem rendersLine_plain {key number : List Char} {value : U64} (hkey : IsKey key)
    (hnumber : IsNumber value.toNat number) : RendersLine (some (key, value)) (key ++ '=' :: number) := by
  have hpad : IsPad [] := fun _ hc => by cases hc
  have hline := @ValueLine.mk key value.toNat [] [] [] [] number [] hkey hnumber hpad hpad hpad hpad .none
  simp only [List.nil_append, List.append_nil] at hline
  exact .entry hline

theorem configured_qemuSurroundings : Configured qemuSurroundings 0x47000000 0x40200000 where
  config := by
    have hpad : IsPad [] := fun _ hc => by cases hc
    have himage : IsNumber (0x47000000 : U64).toNat "0x4700_0000".toList :=
      .inr ⟨"47000000".toList, by decide +kernel, [4, 7, 0, 0, 0, 0, 0, 0], by decide, by decide +kernel, by
        simp [Nat.ofDigits]⟩
    have hpayload : IsNumber (0x40200000 : U64).toNat "0x4020_0000".toList :=
      .inr ⟨"40200000".toList, by decide +kernel, [4, 0, 2, 0, 0, 0, 0, 0], by decide, by decide +kernel, by
        simp [Nat.ofDigits]⟩
    have himageKey : IsKey ritmImageAddressKey := isKey_of_all (by decide +kernel) (by decide +kernel)
    have hpayloadKey : IsKey payloadAddressKey := isKey_of_all (by decide +kernel) (by decide +kernel)
    have hcomment : IsComment ('#' :: " QEMU aarch64 virt platform addresses.".toList) := .some (by decide +kernel)
    have hrenders : Renders [(ritmImageAddressKey, 0x47000000), (payloadAddressKey, 0x40200000)]
        (([] ++ '#' :: " QEMU aarch64 virt platform addresses.".toList) ++ ['\n'] ++
          ((ritmImageAddressKey ++ '=' :: "0x4700_0000".toList) ++ ['\n'] ++
            ((payloadAddressKey ++ '=' :: "0x4020_0000".toList) ++ ['\n'] ++ ([] ++ [])))) :=
      .cons (.blank hpad hcomment) (.inl rfl) (.cons (rendersLine_plain himageKey himage) (.inl rfl)
        (.cons (rendersLine_plain hpayloadKey hpayload) (.inl rfl) (.last (.blank hpad .none))))
    exact ⟨"qemu".toList, _, _, rfl, by decide +kernel, by decide +kernel, hrenders, by decide +kernel, by simp, by simp⟩
  sources platform hmem := by
    have hplatforms : discoverPlatforms qemuSurroundings = ["qemu".toList, "qemu_bl33".toList] := by decide +kernel
    rw [hplatforms] at hmem
    rcases List.mem_pair.1 hmem with rfl | rfl <;> exact ⟨"/ritm/src/platform/qemu.rs".toList, by decide +kernel⟩

theorem build_carries_config_qemu : ∃ files, buildMain qemuSurroundings = .ok files ∧
    files.Carries 0x47000000 0x40200000 ∧
    memoryRegion "payload".toList files.platformLinkerScript = some (0x40200000, payloadSizeLimit) := by
  have hembeds : Embeds qemuSurroundings 1000 :=
    ⟨"payload.bin".toList, "/ritm/".toList ++ "payload.bin".toList, by decide +kernel, rfl, rfl, rfl⟩
  have hbuild := (build_carries_config qemuSurroundings 0x47000000 0x40200000 configured_qemuSurroundings).2 1000 hembeds
  rwa [if_pos (by decide)] at hbuild

/-! ## The order of the config files -/

/-- **A build does not depend on the order in which the directory lists its files.** -/
theorem build_order_irrelevant (s : Surroundings) (names : List (List Char)) (h : s.platformConfigDir.Perm names) :
    buildMain { s with platformConfigDir := names } = buildMain s := by
  have hplatforms : discoverPlatforms { s with platformConfigDir := names } = discoverPlatforms s := by
    -- sorted, the two lists of names are one
    have hperm := (h.filterMap platformOfFile).symm
    refine List.Perm.eq_of_pairwise' (List.pairwise_insertionSort (· ≤ ·) _) (List.pairwise_insertionSort (· ≤ ·) _) ?_
    exact ((List.perm_insertionSort _ _).trans hperm).trans (List.perm_insertionSort _ _).symm
  have hmodules : ∀ platforms, platformModules { s with platformConfigDir := names } platforms =
      platformModules s platforms := by
    intro platforms
    induction platforms with
    | nil => rfl
    | cons platform platforms ih =>
      unfold platformModules
      rw [ih]
      rfl
  unfold buildMain chosenPlatform platformModuleSource
  rw [hplatforms]
  simp only [hmodules]
  rfl

theorem build_order_irrelevant_qemu :
    buildMain { qemuSurroundings with platformConfigDir := qemuSurroundings.platformConfigDir.reverse } =
      buildMain qemuSurroundings :=
  build_order_irrelevant qemuSurroundings _ (List.reverse_perm _).symm

end Ritm
