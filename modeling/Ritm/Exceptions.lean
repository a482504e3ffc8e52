import Ritm.MemoryAccess
/-!
# Exceptions — the guest's saved registers, and the responses written to them

`aarch64_rt` saves x0–x18, x29, x30, ELR and SPSR; RITM's wrapper saves x19–x28 in a frame of its own.
`GuestRegisterState` is the two frames together, read and written by register number.  Over it stands the register file
as the guest knows it, `gprs`: a write through the split frame is a write of that one register (`writeGpr_of_lt`).
-/
namespace Ritm

/-- `aarch64_rt`'s frame; its field `sp` holds x30. -/
structure VolatileRegisters where
  registers : Vector U64 19
  fp : U64
  sp : U64
  elr : U64
  spsr : U64
  deriving DecidableEq, Repr, Inhabited

/-- The frame of x19–x28 that the `sync_lower` wrapper saves. -/
structure NonVolatileRegisters where
  registers : Vector U64 10
  deriving DecidableEq, Repr, Inhabited

structure GuestRegisterState where
  volatile : VolatileRegisters
  nonvolatile : NonVolatileRegisters
  deriving DecidableEq, Repr, Inhabited

namespace GuestRegisterState

def volatileGprs (rs : GuestRegisterState) : Vector U64 19 := rs.volatile.registers

def readGpr (rs : GuestRegisterState) (index : Nat) : Option U64 :=
  if h : index < 19 then some rs.volatile.registers[index]
  else if h : 19 ≤ index ∧ index < 29 then some rs.nonvolatile.registers[index - 19]
  else if index = 29 then some rs.volatile.fp
  else if index = 30 then some rs.volatile.sp
  else if index = 31 then some 0
  else none

/-- Updates a register; the flag says whether there is one of that number. -/
def writeGpr (rs : GuestRegisterState) (index : Nat) (value : U64) : Bool × GuestRegisterState :=
  if h : index < 19 then
    (true, { rs with volatile := { rs.volatile with registers := rs.volatile.registers.set index value } })
  else if h : 19 ≤ index ∧ index < 29 then
    (true, { rs with nonvolatile := ⟨rs.nonvolatile.registers.set (index - 19) value⟩ })
  else if index = 29 then (true, { rs with volatile := { rs.volatile with fp := value } })
  else if index = 30 then (true, { rs with volatile := { rs.volatile with sp := value } })
  else if index = 31 then (true, rs)
  else (false, rs)

def exceptionReturn (rs : GuestRegisterState) : U64 × U64 := (rs.volatile.elr, rs.volatile.spsr)

/-- Advances the return address; `none` is the overflow panic of a checked addition. -/
def advancePc (rs : GuestRegisterState) (byteCount : U64) : Option GuestRegisterState :=
  if rs.volatile.elr.toNat + byteCount.toNat < 2 ^ 64 then
    some { rs with volatile := { rs.volatile with elr := rs.volatile.elr + byteCount } }
  else none

def setExceptionReturn (rs : GuestRegisterState) (elr spsr : U64) : GuestRegisterState :=
  { rs with volatile := { rs.volatile with elr := elr, spsr := spsr } }

/-! ## The register file -/

def gprs (rs : GuestRegisterState) (i : Fin 31) : U64 := (rs.readGpr i).getD 0

def setGpr (g : Fin 31 → U64) (index : Nat) (value : U64) : Fin 31 → U64 := fun i => if i.val = index then value else g i

theorem readGpr_lt (rs : GuestRegisterState) {index : Nat} (h : index < 31) :
    rs.readGpr index = some (rs.gprs ⟨index, h⟩) := by
  unfold gprs
  cases hr : rs.readGpr index with
  | some v => simp
  | none =>
    unfold readGpr at hr
    split at hr
    · cases hr
    split at hr
    · cases hr
    split at hr
    · cases hr
    split at hr
    · cases hr
    · omega

@[simp] theorem readGpr_31 (rs : GuestRegisterState) : rs.readGpr 31 = some 0 := rfl

theorem gprs_eq_of_frames {rs rs' : GuestRegisterState} (hr : rs'.volatile.registers = rs.volatile.registers)
    (hf : rs'.volatile.fp = rs.volatile.fp) (hs : rs'.volatile.sp = rs.volatile.sp)
    (hn : rs'.nonvolatile = rs.nonvolatile) : rs'.gprs = rs.gprs := by
  funext i
  simp only [gprs, readGpr, hr, hf, hs, hn]

@[simp] theorem gprs_setExceptionReturn (rs : GuestRegisterState) (elr spsr : U64) :
    (rs.setExceptionReturn elr spsr).gprs = rs.gprs := gprs_eq_of_frames rfl rfl rfl rfl

theorem advancePc_of_lt (rs : GuestRegisterState) (byteCount : U64)
    (h : rs.volatile.elr.toNat + byteCount.toNat < 2 ^ 64) :
    ∃ rs', rs.advancePc byteCount = some rs' ∧ rs'.gprs = rs.gprs ∧
      rs'.exceptionReturn = (rs.volatile.elr + byteCount, rs.volatile.spsr) := by
  unfold advancePc
  rw [if_pos h]
  exact ⟨_, rfl, gprs_eq_of_frames rfl rfl rfl rfl, rfl⟩

theorem advancePc_gprs {rs rs' : GuestRegisterState} {byteCount : U64} (h : rs.advancePc byteCount = some rs') :
    rs'.gprs = rs.gprs := by
  unfold advancePc at h
  split at h
  · cases h
    exact gprs_eq_of_frames rfl rfl rfl rfl
  · cases h

theorem advancePc_spsr {rs rs' : GuestRegisterState} {byteCount : U64} (h : rs.advancePc byteCount = some rs') :
    rs'.volatile.spsr = rs.volatile.spsr := by
  unfold advancePc at h
  split at h
  · cases h
    rfl
  · cases h

theorem writeGpr_exceptionReturn (rs : GuestRegisterState) (index : Nat) (value : U64) :
    (rs.writeGpr index value).2.exceptionReturn = rs.exceptionReturn := by
  unfold writeGpr
  split
  · rfl
  split
  · rfl
  split
  · rfl
  split
  · rfl
  split <;> rfl

theorem writeGpr_spsr {rs rs' : GuestRegisterState} {index : Nat} {value : U64} {known : Bool}
    (h : rs.writeGpr index value = (known, rs')) : rs'.volatile.spsr = rs.volatile.spsr := by
  have hr := congrArg Prod.snd (writeGpr_exceptionReturn rs index value)
  rw [h] at hr
  exact hr

theorem gprs_writeGpr (rs : GuestRegisterState) (index : Nat) (value : U64) :
    (rs.writeGpr index value).2.gprs = setGpr rs.gprs index value := by
  funext i
  have hi := i.isLt
  -- which frame the written register is in, then which frame the read one is in
  unfold writeGpr
  split
  · simp only [gprs, setGpr, readGpr, Vector.getElem_set]
    grind
  split
  · simp only [gprs, setGpr, readGpr, Vector.getElem_set]
    grind
  split
  · simp only [gprs, setGpr, readGpr]
    grind
  split
  · simp only [gprs, setGpr, readGpr]
    grind
  have hne : i.val ≠ index := by omega
  split <;> simp only [setGpr, if_neg hne]

/-- **A write of a register the syndrome can name succeeds and changes that register only.** -/
theorem writeGpr_of_lt (rs : GuestRegisterState) {index : Nat} (h : index < 32) (value : U64) :
    ∃ rs', rs.writeGpr index value = (true, rs') ∧ rs'.gprs = setGpr rs.gprs index value ∧
      rs'.exceptionReturn = rs.exceptionReturn := by
  refine ⟨(rs.writeGpr index value).2, ?_, gprs_writeGpr rs index value, writeGpr_exceptionReturn rs index value⟩
  have hfst : (rs.writeGpr index value).1 = true := by
    unfold writeGpr
    split
    · rfl
    split
    · rfl
    split
    · rfl
    split
    · rfl
    split
    · rfl
    · omega
  exact Prod.ext hfst rfl

end GuestRegisterState

/-! ## Responses to hypervisor calls -/

inductive ArchError where
  | notSupported
  | notRequired
  | invalidParameter
  | unknown (code : U32)
  deriving DecidableEq, Repr

def ArchError.toI32 : ArchError → U32
  | notSupported => -1
  | notRequired => -2
  | invalidParameter => -3
  | unknown code => code

def ArchError.ofI32 (code : U32) : ArchError :=
  if code = -1 then .notSupported
  else if code = -2 then .notRequired
  else if code = -3 then .invalidParameter
  else .unknown code

@[simp] theorem ArchError.toI32_ofI32 (code : U32) : (ArchError.ofI32 code).toI32 = code := by
  unfold ofI32
  split
  · rename_i h
    rw [h, toI32]
  split
  · rename_i h
    rw [h, toI32]
  split
  · rename_i h
    rw [h, toI32]
  · rfl

inductive HvcResponse where
  | success (results : Vector U64 4)
  | successLarge (results : Vector U64 18)
  deriving DecidableEq, Repr

def HvcResponse.ofU64 (value : U64) : HvcResponse := .success #v[value, 0, 0, 0]

inductive HvcResult where
  | unhandled
  | handled (result : Except ArchError HvcResponse)

def errorToU64 (error : ArchError) : U64 := error.toI32.signExtend 64

def writeResponseRegisters (rs : GuestRegisterState) (results : List U64) : GuestRegisterState :=
  results.zipIdx.foldl (fun rs r => (rs.writeGpr r.2 r.1).2) rs

def HvcResult.modifyRegisterState (result : HvcResult) (rs : GuestRegisterState) : GuestRegisterState :=
  match result with
  | .handled (.ok (.success results)) => writeResponseRegisters rs results.toList
  | .handled (.ok (.successLarge results)) => writeResponseRegisters rs results.toList
  | .handled (.error error) => (rs.writeGpr 0 (errorToU64 error)).2
  | .unhandled => (rs.writeGpr 0 (errorToU64 .notSupported)).2

theorem foldl_writeGpr_exceptionReturn : ∀ (results : List (U64 × Nat)) (rs : GuestRegisterState),
    (results.foldl (fun rs r => (rs.writeGpr r.2 r.1).2) rs).exceptionReturn = rs.exceptionReturn
  | [], _ => rfl
  | r :: results, rs => by
    rw [List.foldl_cons, foldl_writeGpr_exceptionReturn results, GuestRegisterState.writeGpr_exceptionReturn]

theorem HvcResult.modifyRegisterState_exceptionReturn (result : HvcResult) (rs : GuestRegisterState) :
    (result.modifyRegisterState rs).exceptionReturn = rs.exceptionReturn := by
  match result with
  | .handled (.ok (.success results)) => exact foldl_writeGpr_exceptionReturn _ rs
  | .handled (.ok (.successLarge results)) => exact foldl_writeGpr_exceptionReturn _ rs
  | .handled (.error error) => exact GuestRegisterState.writeGpr_exceptionReturn rs 0 _
  | .unhandled => exact GuestRegisterState.writeGpr_exceptionReturn rs 0 _

end Ritm
