import Ritm.Hypervisor
import Ritm.Stage2Order
/-!
# Qemu — the QEMU virt platform: its memory policy and its test device

Where the image is linked (`RITM_IMAGE_ADDRESS`) and where the linker puts the `SHARED_HEAP` static are the fields of an
`Image`.  The filtered MMIO page has a device behind it whose state is the counter.
-/
namespace Ritm

variable {M : Type}

def stage2DeviceAttributes : Stage2Attributes := (1#64 <<< 0) ||| (0b11#64 <<< 6) ||| (1#64 <<< 10)

def stage2MemoryAttributes : Stage2Attributes :=
  (1#64 <<< 0) ||| (0b11#64 <<< 4) ||| (0b11#64 <<< 2) ||| (0b11#64 <<< 6) ||| (1#64 <<< 10) ||| (0b11#64 <<< 8)

def toIpa (address : Nat) : U64 := BitVec.ofNat 64 address

namespace Qemu

def maxCores : Nat := 8
def sharedHeapSize : Nat := 16 * pageSize
def dramStart : Nat := 0x40000000
def filteredMmioBase : Nat := 0x0f000000
def filteredMmioSize : Nat := pageSize

/-- The size of the static: the bytes of the heap behind a lock of one byte. -/
def sharedHeapStaticSize : Nat := 1 + sharedHeapSize

structure Image where
  ritmStart : Nat
  sharedHeap : Nat
  start_le : ritmStart ≤ sharedHeap
  le_end : sharedHeap + sharedHeapStaticSize ≤ ritmStart + 4 * 1024 * 1024

def Image.ritmEnd (image : Image) : Nat := image.ritmStart + 4 * 1024 * 1024

theorem Image.ritmStart_lt_ritmEnd (image : Image) : image.ritmStart < image.ritmEnd :=
  Nat.lt_add_of_pos_right (by decide)

/-! ## The filtered MMIO device -/

def readFilteredMmio : MemoryReadHandler U64 := fun access counter =>
  if access.width ≠ .u64 then (.fault, counter)
  else if access.offset = 0 then (.value 0xfeedfacecafebeef, counter)
  else if access.offset = 16 then (.value counter, counter + 1)
  else if access.offset = 24 then (.value 0x1111222233334444, counter)
  else if access.offset = 32 then (.value 0x5555666677778888, counter)
  else if access.offset = 40 then (.value 0x9999aaaabbbbcccc, counter)
  else (.fault, counter)

def writeFilteredMmio : MemoryWriteHandler U64 := fun access counter =>
  if access.offset = 8 ∧ access.width = .u64 ∧ access.value = 0x123456789abcdef0 then (.handled, counter)
  else (.fault, counter)

def filteredMmioHandler : MemoryAccessHandler U64 := .readWrite readFilteredMmio writeFilteredMmio

/-! ## The memory policy -/

def andThen (r : Option (Except Stage2ConfigError Unit × Stage2Builder M U64))
    (next : Stage2Builder M U64 → Option (Except Stage2ConfigError Unit × Stage2Builder M U64)) :
    Option (Except Stage2ConfigError Unit × Stage2Builder M U64) :=
  match r with
  | none => none
  | some (.error e, builder) => some (.error e, builder)
  | some (.ok (), builder) => next builder

/-- A checked subtraction of sizes: one that underflows panics. -/
def checkedSub {α : Type} (a b : Nat) (next : Nat → Option α) : Option α := if b ≤ a then next (a - b) else none

def configureMemoryAccess [IdMap M] (image : Image) (builder : Stage2Builder M U64) :
    Option (Except Stage2ConfigError Unit × Stage2Builder M U64) :=
  -- device memory before the filtered MMIO test page, the page, and device memory after it
  andThen (builder.allowRange 0 (toIpa filteredMmioBase) stage2DeviceAttributes) fun builder =>
  andThen (builder.handleRange (toIpa filteredMmioBase) (toIpa filteredMmioSize) filteredMmioHandler) fun builder =>
  checkedSub dramStart (filteredMmioBase + filteredMmioSize) fun size =>
  andThen (builder.allowRange (toIpa (filteredMmioBase + filteredMmioSize)) (toIpa size) stage2DeviceAttributes)
    fun builder =>
  -- normal memory before and after the RITM image
  checkedSub image.ritmStart dramStart fun size =>
  andThen (builder.allowRange (toIpa dramStart) (toIpa size) stage2MemoryAttributes) fun builder =>
  checkedSub 0x100000000 image.ritmEnd fun size =>
  andThen (builder.allowRange (toIpa image.ritmEnd) (toIpa size) stage2MemoryAttributes) fun builder =>
  -- high PCIe ECAM and high MMIO
  andThen (builder.allowRange 0x4010000000 (toIpa (0x4020000000 - 0x4010000000)) stage2DeviceAttributes) fun builder =>
  andThen (builder.allowRange 0x8000000000 (toIpa (0x10000000000 - 0x8000000000)) stage2DeviceAttributes) fun builder =>
  -- the shared heap
  let sharedStart := image.sharedHeap
  let sharedEnd := sharedStart + sharedHeapSize
  let sharedStart := alignDownToPage sharedStart
  let sharedEnd := alignUpToPage sharedEnd
  checkedSub sharedEnd sharedStart fun size =>
  builder.allowRange (toIpa sharedStart) (toIpa size) stage2MemoryAttributes

def handleHvc (functionId : U64) (_args : List U64) : HvcResult :=
  if functionId = 0xFF000000 then .handled (.ok (HvcResponse.ofU64 0x123456789ABCDEF0)) else .unhandled

def env (config : Stage2Config M U64) (psci : PsciDecoder) (rt : Runtime maxCores) : Env M U64 :=
  { config := config, handleHvc := handleHvc, maxCores := maxCores, psci := psci, rt := rt }

end Qemu
end Ritm
