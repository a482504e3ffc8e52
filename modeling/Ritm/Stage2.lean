import Ritm.MemoryAccess
import Ritm.Lib.ArrayVec
import Ritm.Lib.Search
/-!
# Stage2 — the stage-2 access policy and its builder

`Stage2Builder` collects the ranges the guest may access directly and the regions whose accesses RITM emulates.  The
builder's methods take `&mut self`: each returns its result with the builder after the call, on success and on every
error, and `none` stands for a panic.

The page table is `aarch64_paging`'s, which is not part of this repository: `IdMap` is its interface, `LawfulIdMap` what
is relied on.  Callbacks act on a state `σ` that is a parameter throughout.
-/
namespace Ritm

open Lib (ArrayVec partitionPoint binarySearchBy)

def pageSize : Nat := 4096
def maxMemoryAccessHandlers : Nat := 16
def maxAllowedRanges : Nat := 32

abbrev Stage2Attributes := U64

/-! ## The page table -/

structure MemoryRegion where
  start : U64
  endAddr : U64
  deriving DecidableEq, Repr

inductive MapError where
  | addressRange (va : U64)
  | invalidVirtualAddress (va : U64)
  | regionBackwards (region : MemoryRegion)
  | pteUpdateFault (descriptor : U64)
  | invalidFlags (flags : U64)
  | breakBeforeMakeViolation (region : MemoryRegion)
  deriving DecidableEq, Repr

def MemoryRegion.Contains (r : MemoryRegion) (ipa : U64) : Prop :=
  r.start.toNat ≤ ipa.toNat ∧ ipa.toNat < r.endAddr.toNat

instance (r : MemoryRegion) (ipa : U64) : Decidable (r.Contains ipa) :=
  inferInstanceAs (Decidable (_ ∧ _))

/-- `aarch64_paging::idmap::IdMap<Stage2>` with its root at level 0.  `lookup` is the translation: the attributes an
IPA is mapped with; `Maps` are the attributes that `map_range` maps pages with. -/
class IdMap (M : Type) where
  Maps : Stage2Attributes → Prop
  new : M
  mapRange : M → MemoryRegion → Stage2Attributes → Except MapError Unit × M
  lookup : M → U64 → Option Stage2Attributes
  rootAddress : M → U64

/-- **What is relied on**: attributes with VALID and without TABLE_OR_PAGE are ones to map with, a new table maps nothing,
a successful `map_range` maps exactly the pages of its region, and a failed one maps nothing. -/
class LawfulIdMap (M : Type) [IdMap M] : Prop where
  maps_of_valid {a : Stage2Attributes} (hvalid : a.getLsbD 0 = true) (hpage : a.getLsbD 1 = false) : IdMap.Maps M a
  lookup_new (ipa : U64) : IdMap.lookup (IdMap.new : M) ipa = none
  lookup_mapRange_ok {m : M} {r : MemoryRegion} {a : Stage2Attributes} (ha : IdMap.Maps M a)
    (h : (IdMap.mapRange m r a).1 = .ok ()) (ipa : U64) :
    IdMap.lookup (IdMap.mapRange m r a).2 ipa = if r.Contains ipa then some a else IdMap.lookup m ipa
  lookup_mapRange_error {m : M} {r : MemoryRegion} {a : Stage2Attributes} {e : MapError}
    (h : (IdMap.mapRange m r a).1 = .error e) (ipa : U64) :
    IdMap.lookup (IdMap.mapRange m r a).2 ipa = IdMap.lookup m ipa

/-- A page table as the list of its mapped regions, the latest first; like the crate's at root level 0, it takes
addresses up to 2⁴⁸. -/
structure RegionTable where
  mapped : List (MemoryRegion × Stage2Attributes)

instance : IdMap RegionTable where
  Maps a := a.getLsbD 0 = true ∧ a.getLsbD 1 = false
  new := ⟨[]⟩
  mapRange m r a :=
    if r.endAddr.toNat ≤ 2 ^ 48 then (.ok (), ⟨(r, a) :: m.mapped⟩) else (.error (.addressRange r.endAddr), m)
  lookup m ipa := (m.mapped.find? (fun p => decide (p.1.Contains ipa))).map Prod.snd
  rootAddress _ := 0

instance : LawfulIdMap RegionTable where
  maps_of_valid hvalid hpage := ⟨hvalid, hpage⟩
  lookup_new _ := rfl
  lookup_mapRange_ok {m r a} _ h ipa := by
    simp only [IdMap.mapRange, IdMap.lookup] at h ⊢
    split at h
    · rename_i hr
      rw [if_pos hr, List.find?_cons]
      by_cases hc : r.Contains ipa <;> simp [hc]
    · cases h
  lookup_mapRange_error {m r a e} h ipa := by
    simp only [IdMap.mapRange, IdMap.lookup] at h ⊢
    split at h
    · cases h
    · rename_i hr
      rw [if_neg hr]

inductive Stage2ConfigError where
  | rangeBaseNotPageAligned
  | emptyRange
  | rangeSizeNotPageMultiple
  | rangeEndOverflow
  | rangeAddressNotRepresentable
  | tooManyAllowedRanges
  | tooManyMemoryAccessHandlerRegions
  | allowedRangeOverlap
  | memoryAccessHandlerRangeOverlap
  | allowedRangeOverlapsMemoryAccessHandler
  | mapRange (error : MapError)
  deriving DecidableEq, Repr

/-! ## Accesses and handlers -/

structure MemoryReadAccess where
  ipa : U64
  offset : U64
  width : MemoryAccessWidth
  deriving DecidableEq, Repr

structure MemoryWriteAccess where
  ipa : U64
  offset : U64
  width : MemoryAccessWidth
  value : U64
  deriving DecidableEq, Repr

inductive MemoryReadResult where
  | value (v : U64)
  | fault
  deriving DecidableEq, Repr

inductive MemoryWriteResult where
  | handled
  | fault
  deriving DecidableEq, Repr

abbrev MemoryReadHandler (σ : Type) := MemoryReadAccess → σ → MemoryReadResult × σ
abbrev MemoryWriteHandler (σ : Type) := MemoryWriteAccess → σ → MemoryWriteResult × σ

structure MemoryAccessHandler (σ : Type) where
  read : Option (MemoryReadHandler σ)
  write : Option (MemoryWriteHandler σ)

def MemoryAccessHandler.readWrite {σ : Type} (read : MemoryReadHandler σ) (write : MemoryWriteHandler σ) :
    MemoryAccessHandler σ :=
  ⟨some read, some write⟩

/-! ## Ranges -/

def checkedRangeEnd (baseIpa size : U64) : Except Stage2ConfigError U64 :=
  if baseIpa.toNat + size.toNat < 2 ^ 64 then .ok (baseIpa + size) else .error .rangeEndOverflow

def validateRange (baseIpa size : U64) : Except Stage2ConfigError Unit :=
  if baseIpa.toNat % pageSize ≠ 0 then .error .rangeBaseNotPageAligned
  else if size = 0 then .error .emptyRange
  else if size.toNat % pageSize ≠ 0 then .error .rangeSizeNotPageMultiple
  else
    match checkedRangeEnd baseIpa size with
    | .error e => .error e
    | .ok _ => .ok ()

def pageRangesOverlap (firstBaseIpa firstEndIpa secondBaseIpa secondEndIpa : U64) : Bool :=
  let (earlierEnd, laterBase) :=
    if firstBaseIpa ≤ secondBaseIpa then (firstEndIpa, secondBaseIpa) else (secondEndIpa, firstBaseIpa)
  decide (laterBase < earlierEnd)

/-- A validated range: it carries what `validate_range` and `checked_range_end` established. -/
structure Stage2Range where
  baseIpa : U64
  size : U64
  endIpa : U64
  base_aligned : baseIpa.toNat % pageSize = 0
  size_pos : 0 < size.toNat
  size_pages : size.toNat % pageSize = 0
  end_eq : endIpa.toNat = baseIpa.toNat + size.toNat

theorem checkedRangeEnd_ok {baseIpa size endIpa : U64}
    (h : checkedRangeEnd baseIpa size = .ok endIpa) :
    endIpa.toNat = baseIpa.toNat + size.toNat := by
  unfold checkedRangeEnd at h
  split at h
  · rename_i hlt
    cases h
    rw [BitVec.toNat_add, Nat.mod_eq_of_lt hlt]
  · cases h

theorem validateRange_ok {baseIpa size : U64} {u : Unit}
    (h : validateRange baseIpa size = .ok u) :
    baseIpa.toNat % pageSize = 0 ∧ 0 < size.toNat ∧ size.toNat % pageSize = 0 := by
  unfold validateRange at h
  split at h
  · cases h
  rename_i hb
  split at h
  · cases h
  rename_i hz
  split at h
  · cases h
  rename_i hs
  refine ⟨by omega, Nat.pos_of_ne_zero fun h0 => hz (BitVec.eq_of_toNat_eq (by simpa using h0)), by omega⟩

namespace Stage2Range

def new (baseIpa size : U64) : Except Stage2ConfigError Stage2Range :=
  match hv : validateRange baseIpa size with
  | .error e => .error e
  | .ok _ =>
    match he : checkedRangeEnd baseIpa size with
    | .error e => .error e
    | .ok endIpa => .ok {
        baseIpa := baseIpa
        size := size
        endIpa := endIpa
        base_aligned := (validateRange_ok hv).1
        size_pos := (validateRange_ok hv).2.1
        size_pages := (validateRange_ok hv).2.2
        end_eq := checkedRangeEnd_ok he }

def overlaps (self other : Stage2Range) : Bool :=
  pageRangesOverlap self.baseIpa self.endIpa other.baseIpa other.endIpa

def Contains (r : Stage2Range) (ipa : U64) : Prop := r.baseIpa.toNat ≤ ipa.toNat ∧ ipa.toNat < r.endIpa.toNat

instance (r : Stage2Range) (ipa : U64) : Decidable (r.Contains ipa) := inferInstanceAs (Decidable (_ ∧ _))

end Stage2Range

structure MemoryAccessRegion (σ : Type) extends Stage2Range where
  handler : MemoryAccessHandler σ

variable {σ : Type}

namespace MemoryAccessRegion

def new (range : Stage2Range) (handler : MemoryAccessHandler σ) : MemoryAccessRegion σ := ⟨range, handler⟩

/-- The method `end_ipa()`, which recomputes the end and falls back to the stored one. -/
def endIpaOf (region : MemoryAccessRegion σ) : U64 :=
  match checkedRangeEnd region.baseIpa region.size with
  | .ok endIpa => endIpa
  | .error _ => region.endIpa

def offsetOf (region : MemoryAccessRegion σ) (ipa : U64) : U64 := ipa - region.baseIpa

theorem toNat_offsetOf {region : MemoryAccessRegion σ} {ipa : U64} (h : region.baseIpa.toNat ≤ ipa.toNat) :
    (region.offsetOf ipa).toNat = ipa.toNat - region.baseIpa.toNat :=
  BitVec.toNat_sub_of_le (BitVec.le_def.2 h)

def overlapsRange (region : MemoryAccessRegion σ) (range : Stage2Range) : Bool :=
  pageRangesOverlap region.baseIpa region.endIpa range.baseIpa range.endIpa

end MemoryAccessRegion

structure MemoryAccessHandlerMatch (σ : Type) where
  region : MemoryAccessRegion σ
  offset : U64

/-! ## The handler registry -/

@[ext]
structure MemoryAccessHandlerRegistry (σ : Type) where
  regions : ArrayVec (MemoryAccessRegion σ) maxMemoryAccessHandlers

namespace MemoryAccessHandlerRegistry

def new : MemoryAccessHandlerRegistry σ := ⟨ArrayVec.new⟩

def register (self : MemoryAccessHandlerRegistry σ) (region : MemoryAccessRegion σ) :
    Option (Except Stage2ConfigError Unit × MemoryAccessHandlerRegistry σ) :=
  if maxMemoryAccessHandlers ≤ self.regions.items.length then
    some (.error .tooManyMemoryAccessHandlerRegions, self)
  else if self.regions.items.any (fun existing =>
      pageRangesOverlap region.baseIpa region.endIpa existing.baseIpa existing.endIpa) then
    some (.error .memoryAccessHandlerRangeOverlap, self)
  else
    let insertAt := partitionPoint (fun existing => decide (existing.baseIpa < region.baseIpa)) self.regions.items
    match self.regions.insert insertAt region with
    | none => none
    | some regions => some (.ok (), ⟨regions⟩)

def compareIpa (ipa : U64) (region : MemoryAccessRegion σ) : Ordering :=
  if ipa < region.baseIpa then .gt
  else if region.endIpaOf ≤ ipa then .lt
  else .eq

def find (self : MemoryAccessHandlerRegistry σ) (ipa : U64) : Option (MemoryAccessHandlerMatch σ) :=
  match binarySearchBy (compareIpa ipa) self.regions.items with
  | .error _ => none
  | .ok index =>
    match self.regions.items[index]? with
    | none => none
    | some region => some { region := region, offset := region.offsetOf ipa }

end MemoryAccessHandlerRegistry

/-! ## The builder -/

structure Stage2Config (M σ : Type) where
  idmap : M
  memoryAccessHandlers : MemoryAccessHandlerRegistry σ

structure Stage2Builder (M σ : Type) where
  idmap : M
  memoryAccessHandlers : MemoryAccessHandlerRegistry σ
  allowedRanges : ArrayVec Stage2Range maxAllowedRanges

namespace Stage2Builder

variable {M : Type}

def new [IdMap M] : Stage2Builder M σ := ⟨IdMap.new, MemoryAccessHandlerRegistry.new, ArrayVec.new⟩

def checkAllowedRangeCapacity (self : Stage2Builder M σ) : Except Stage2ConfigError Unit :=
  if maxAllowedRanges ≤ self.allowedRanges.items.length then .error .tooManyAllowedRanges else .ok ()

def trackAllowedRange (self : Stage2Builder M σ) (range : Stage2Range) : Option (Stage2Builder M σ) :=
  match self.allowedRanges.push range with
  | none => none
  | some allowedRanges => some { self with allowedRanges := allowedRanges }

def checkNoRegisteredOverlap (self : Stage2Builder M σ) (range : Stage2Range) : Except Stage2ConfigError Unit :=
  if self.memoryAccessHandlers.regions.items.any (fun region => region.overlapsRange range) then
    .error .allowedRangeOverlapsMemoryAccessHandler
  else .ok ()

def checkNoAllowedOverlap (self : Stage2Builder M σ) (range : Stage2Range) : Except Stage2ConfigError Unit :=
  if self.allowedRanges.items.any (fun existing => range.overlaps existing) then .error .allowedRangeOverlap
  else .ok ()

/-- The checks `allow_range` makes before it maps, in their order. -/
def checkAllow (self : Stage2Builder M σ) (baseIpa size : U64) : Except Stage2ConfigError Stage2Range := do
  let range ← Stage2Range.new baseIpa size
  self.checkAllowedRangeCapacity
  self.checkNoAllowedOverlap range
  self.checkNoRegisteredOverlap range
  return range

/-- Allows the guest to access a byte range directly.  A `usize` holds every `u64` address here, so neither conversion
to `usize` fails. -/
def allowRange [IdMap M] (self : Stage2Builder M σ) (baseIpa size : U64) (attributes : Stage2Attributes) :
    Option (Except Stage2ConfigError Unit × Stage2Builder M σ) :=
  match self.checkAllow baseIpa size with
  | .error e => some (.error e, self)
  | .ok range =>
    match IdMap.mapRange self.idmap ⟨baseIpa, range.endIpa⟩ attributes with
    | (.error e, idmap) => some (.error (.mapRange e), { self with idmap := idmap })
    | (.ok _, idmap) =>
      match trackAllowedRange { self with idmap := idmap } range with
      | none => none
      | some self' => some (.ok (), self')

def checkHandle (self : Stage2Builder M σ) (baseIpa size : U64) : Except Stage2ConfigError Stage2Range := do
  let range ← Stage2Range.new baseIpa size
  self.checkNoAllowedOverlap range
  return range

def handleRange (self : Stage2Builder M σ) (baseIpa size : U64) (handler : MemoryAccessHandler σ) :
    Option (Except Stage2ConfigError Unit × Stage2Builder M σ) :=
  match self.checkHandle baseIpa size with
  | .error e => some (.error e, self)
  | .ok range =>
    match self.memoryAccessHandlers.register (MemoryAccessRegion.new range handler) with
    | none => none
    | some (result, memoryAccessHandlers) => some (result, { self with memoryAccessHandlers := memoryAccessHandlers })

def build (self : Stage2Builder M σ) : Stage2Config M σ := ⟨self.idmap, self.memoryAccessHandlers⟩

end Stage2Builder

/-! ## Rounding addresses to pages -/

def alignDownToPage (address : Nat) : Nat := address / pageSize * pageSize

/-- `usize::next_multiple_of`; the result fits wherever a page-aligned bound above the address does. -/
def alignUpToPage (address : Nat) : Nat := (address + (pageSize - 1)) / pageSize * pageSize

end Ritm
