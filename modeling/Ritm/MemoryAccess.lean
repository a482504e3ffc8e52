import Mathlib.Algebra.Ring.Nat
/-!
# MemoryAccess — the `memory_access` crate

A data abort's syndrome decoded into a guest memory access, and a read value extended to its target register.  The
syndrome's fields are read here by shifts and masks, as the crate reads them; `issIsv` … `issWnr` name the same bits as
the architecture does, and the `decode…_eq` lemmas relate the two.
-/
namespace Ritm

abbrev U8 := BitVec 8
abbrev U32 := BitVec 32
abbrev U64 := BitVec 64

inductive MemoryAccessWidth where
  | u8
  | u16
  | u32
  | u64
  deriving DecidableEq, Repr

namespace MemoryAccessWidth

def bits : MemoryAccessWidth → Nat
  | u8 => 8
  | u16 => 16
  | u32 => 32
  | u64 => 64

def mask : MemoryAccessWidth → U64
  | u8 => 0xff
  | u16 => 0xffff
  | u32 => 0xffffffff
  | u64 => 0xffffffffffffffff

def bytes : MemoryAccessWidth → Nat
  | u8 => 1
  | u16 => 2
  | u32 => 4
  | u64 => 8

end MemoryAccessWidth

/-- Read or write direction of a trapped access; a write carries the value masked to the access width. -/
inductive DecodedMemoryAccessKind where
  | read
  | write (value : U64)
  deriving DecidableEq, Repr

structure DecodedMemoryAccess where
  ipa : U64
  width : MemoryAccessWidth
  kind : DecodedMemoryAccessKind
  registerIndex : Nat
  signExtend : Bool
  registerWidth64 : Bool
  deriving DecidableEq, Repr

def dataAbortIssIsv : U32 := 1#32 <<< 24
def dataAbortIssSasShift : Nat := 22
def dataAbortIssSasMask : U32 := 0b11
def dataAbortIssSse : U32 := 1#32 <<< 21
def dataAbortIssSrtShift : Nat := 16
def dataAbortIssSrtMask : U32 := 0b11111
def dataAbortIssSf : U32 := 1#32 <<< 15
def dataAbortIssWnr : U32 := 1#32 <<< 6

def faultIpaPageShift : Nat := 12
def faultIpaPageOffsetMask : U64 := (1#64 <<< faultIpaPageShift) - 1

def decodeValidInstructionSyndrome (iss : U32) : Bool := iss &&& dataAbortIssIsv != 0

theorem sas_lt (iss : U32) : ((iss >>> dataAbortIssSasShift) &&& dataAbortIssSasMask).toNat < 4 := by
  rw [BitVec.toNat_and]
  exact Nat.lt_of_le_of_lt Nat.and_le_right (by decide)

/-- The two size bits; the bound leaves no case for the `unreachable!()` arm. -/
def decodeMemoryAccessWidth (iss : U32) : MemoryAccessWidth :=
  match (⟨((iss >>> dataAbortIssSasShift) &&& dataAbortIssSasMask).toNat, sas_lt iss⟩ : Fin 4) with
  | 0 => .u8
  | 1 => .u16
  | 2 => .u32
  | 3 => .u64

def decodeMemoryAccessRegisterIndex (iss : U32) : Nat :=
  ((iss >>> dataAbortIssSrtShift) &&& dataAbortIssSrtMask).toNat

def decodeMemoryAccessIsWrite (iss : U32) : Bool := iss &&& dataAbortIssWnr != 0

def decodeMemoryAccessSignExtend (iss : U32) : Bool := iss &&& dataAbortIssSse != 0

def decodeMemoryAccessRegisterWidth64 (iss : U32) : Bool := iss &&& dataAbortIssSf != 0

def decodeMemoryAccessKind (iss : U32) (registerIndex : Nat) (width : MemoryAccessWidth)
    (readRegister : Nat → Option U64) : Option DecodedMemoryAccessKind :=
  if decodeMemoryAccessIsWrite iss then
    match readRegister registerIndex with
    | none => none
    | some v => some (.write (v &&& width.mask))
  else some .read

def decodeFaultIpa (hpfarFipa farVa : U64) : U64 :=
  (hpfarFipa <<< faultIpaPageShift) ||| (farVa &&& faultIpaPageOffsetMask)

def decodeMemoryAccess (iss : U32) (hpfarFipa farVa : U64) (readRegister : Nat → Option U64) :
    Option DecodedMemoryAccess :=
  if !decodeValidInstructionSyndrome iss then none
  else
    let width := decodeMemoryAccessWidth iss
    let registerIndex := decodeMemoryAccessRegisterIndex iss
    match decodeMemoryAccessKind iss registerIndex width readRegister with
    | none => none
    | some kind => some {
        ipa := decodeFaultIpa hpfarFipa farVa
        width := width
        kind := kind
        registerIndex := registerIndex
        signExtend := decodeMemoryAccessSignExtend iss
        registerWidth64 := decodeMemoryAccessRegisterWidth64 iss }

def extendReadResult (value : U64) (width : MemoryAccessWidth) (signExtend registerWidth64 : Bool) : U64 :=
  if signExtend && width != .u64 then
    let shift := 64 - width.bits
    let extended := ((value &&& width.mask) <<< shift).sshiftRight shift
    if registerWidth64 then extended else extended &&& 0xffffffff
  else if registerWidth64 then value &&& width.mask
  else value &&& width.mask &&& 0xffffffff

/-! ## The fields as the architecture names them -/

-- ISV: the syndrome describes the access. SAS: its size. SSE: a load is sign-extended.
-- SRT: the register. SF: the register is 64 bits wide. WnR: the access is a write.
def issIsv (iss : U32) : Bool := iss.getLsbD 24
def issSas (iss : U32) : BitVec 2 := iss.extractLsb' 22 2
def issSse (iss : U32) : Bool := iss.getLsbD 21
def issSrt (iss : U32) : BitVec 5 := iss.extractLsb' 16 5
def issSf (iss : U32) : Bool := iss.getLsbD 15
def issWnr (iss : U32) : Bool := iss.getLsbD 6

def MemoryAccessWidth.sas : MemoryAccessWidth → BitVec 2
  | .u8 => 0
  | .u16 => 1
  | .u32 => 2
  | .u64 => 3

theorem and_one_shiftLeft_ne_zero (x : U32) (i : Nat) (hi : i < 32) : (x &&& (1#32 <<< i) != 0) = x.getLsbD i := by
  rw [← BitVec.twoPow_eq, BitVec.and_twoPow]
  cases hx : x.getLsbD i with
  | false => simp
  | true =>
    have hne : BitVec.twoPow 32 i ≠ 0#32 := fun h0 => by
      have := congrArg (fun y => BitVec.getLsbD y i) h0
      simp [hi] at this
    simp [hne]

@[simp] theorem decodeValidInstructionSyndrome_eq (iss : U32) : decodeValidInstructionSyndrome iss = issIsv iss :=
  and_one_shiftLeft_ne_zero iss 24 (by decide)

@[simp] theorem decodeMemoryAccessIsWrite_eq (iss : U32) : decodeMemoryAccessIsWrite iss = issWnr iss :=
  and_one_shiftLeft_ne_zero iss 6 (by decide)

@[simp] theorem decodeMemoryAccessSignExtend_eq (iss : U32) : decodeMemoryAccessSignExtend iss = issSse iss :=
  and_one_shiftLeft_ne_zero iss 21 (by decide)

@[simp] theorem decodeMemoryAccessRegisterWidth64_eq (iss : U32) :
    decodeMemoryAccessRegisterWidth64 iss = issSf iss :=
  and_one_shiftLeft_ne_zero iss 15 (by decide)

@[simp] theorem decodeMemoryAccessRegisterIndex_eq (iss : U32) :
    decodeMemoryAccessRegisterIndex iss = (issSrt iss).toNat := by
  unfold decodeMemoryAccessRegisterIndex issSrt dataAbortIssSrtShift dataAbortIssSrtMask
  rw [BitVec.toNat_and, BitVec.extractLsb'_toNat, BitVec.toNat_ushiftRight]
  exact Nat.and_two_pow_sub_one_eq_mod _ 5

theorem decodeMemoryAccessKind_eq (iss : U32) (registerIndex : Nat) (width : MemoryAccessWidth)
    (readRegister : Nat → Option U64) :
    decodeMemoryAccessKind iss registerIndex width readRegister =
      if issWnr iss then (readRegister registerIndex).map fun v => .write (v &&& width.mask) else some .read := by
  unfold decodeMemoryAccessKind
  rw [decodeMemoryAccessIsWrite_eq]
  cases issWnr iss with
  | false => rfl
  | true => cases readRegister registerIndex <;> rfl

theorem decodeMemoryAccess_eq (iss : U32) (hpfarFipa farVa : U64) (readRegister : Nat → Option U64) :
    decodeMemoryAccess iss hpfarFipa farVa readRegister =
      if issIsv iss then
        (decodeMemoryAccessKind iss (issSrt iss).toNat (decodeMemoryAccessWidth iss) readRegister).map fun kind => {
          ipa := decodeFaultIpa hpfarFipa farVa
          width := decodeMemoryAccessWidth iss
          kind := kind
          registerIndex := (issSrt iss).toNat
          signExtend := issSse iss
          registerWidth64 := issSf iss }
      else none := by
  unfold decodeMemoryAccess
  simp only [decodeValidInstructionSyndrome_eq, decodeMemoryAccessRegisterIndex_eq, decodeMemoryAccessSignExtend_eq,
    decodeMemoryAccessRegisterWidth64_eq]
  cases issIsv iss with
  | false => rfl
  | true =>
    simp only [Bool.not_true, Bool.false_eq_true, if_false, if_true]
    cases decodeMemoryAccessKind iss (issSrt iss).toNat (decodeMemoryAccessWidth iss) readRegister <;> rfl

theorem toNat_decodeFaultIpa (hpfarFipa farVa : U64) :
    (decodeFaultIpa hpfarFipa farVa).toNat = hpfarFipa.toNat * 4096 % 2 ^ 64 + farVa.toNat % 4096 := by
  have hmask : faultIpaPageOffsetMask.toNat = 2 ^ 12 - 1 := rfl
  unfold decodeFaultIpa faultIpaPageShift
  rw [BitVec.toNat_or, BitVec.toNat_and, hmask, Nat.and_two_pow_sub_one_eq_mod, BitVec.toNat_shiftLeft,
    Nat.shiftLeft_eq]
  -- the page number is a multiple of the page size, so the two parts share no bit
  have hpage : hpfarFipa.toNat * 2 ^ 12 % 2 ^ 64 = 2 ^ 12 * (hpfarFipa.toNat % 2 ^ 52) := by omega
  rw [hpage, ← Nat.two_pow_add_eq_or_of_lt (Nat.mod_lt _ (by decide))]
  omega

theorem decodeMemoryAccess_eq_some {iss : U32} {hpfarFipa farVa : U64} {readRegister : Nat → Option U64}
    {decoded : DecodedMemoryAccess} (h : decodeMemoryAccess iss hpfarFipa farVa readRegister = some decoded) :
    decoded.ipa = decodeFaultIpa hpfarFipa farVa ∧ decoded.registerIndex = (issSrt iss).toNat := by
  rw [decodeMemoryAccess_eq] at h
  split at h
  · obtain ⟨kind, -, rfl⟩ := Option.map_eq_some_iff.1 h
    exact ⟨rfl, rfl⟩
  · cases h

theorem sas_eq (iss : U32) :
    ((iss >>> dataAbortIssSasShift) &&& dataAbortIssSasMask).toNat = (issSas iss).toNat := by
  unfold issSas dataAbortIssSasShift dataAbortIssSasMask
  rw [BitVec.toNat_and, BitVec.extractLsb'_toNat, BitVec.toNat_ushiftRight]
  exact Nat.and_two_pow_sub_one_eq_mod _ 2

/-- **The decoded width is the one whose encoding the syndrome holds.** -/
theorem sas_decodeMemoryAccessWidth (iss : U32) : (decodeMemoryAccessWidth iss).sas = issSas iss := by
  have h := sas_eq iss
  unfold decodeMemoryAccessWidth
  split <;> rename_i heq <;> rw [Fin.mk.injEq, h] at heq <;> exact (BitVec.eq_of_toNat_eq heq).symm

theorem MemoryAccessWidth.sas_injective {w w' : MemoryAccessWidth} (h : w.sas = w'.sas) : w = w' := by
  cases w <;> cases w' <;> first | rfl | exact absurd h (by decide)

/-! ## Reads, as extensions of bit vectors -/

theorem MemoryAccessWidth.bits_le (width : MemoryAccessWidth) : width.bits ≤ 64 := by cases width <;> decide

theorem MemoryAccessWidth.bits_pos (width : MemoryAccessWidth) : 0 < width.bits := by cases width <;> decide

theorem MemoryAccessWidth.bits_eq (width : MemoryAccessWidth) : width.bits = 8 * width.bytes := by cases width <;> rfl

theorem toNat_and_mask (value : U64) (width : MemoryAccessWidth) :
    (value &&& width.mask).toNat = value.toNat % 2 ^ width.bits := by
  have hmask : width.mask.toNat = 2 ^ width.bits - 1 := by cases width <;> rfl
  rw [BitVec.toNat_and, hmask, Nat.and_two_pow_sub_one_eq_mod]

theorem and_mask (value : U64) (width : MemoryAccessWidth) :
    value &&& width.mask = (value.setWidth width.bits).setWidth 64 := by
  have hlt : value.toNat % 2 ^ width.bits < 2 ^ 64 :=
    Nat.lt_of_lt_of_le (Nat.mod_lt _ (Nat.two_pow_pos _)) (Nat.pow_le_pow_right (by decide) width.bits_le)
  apply BitVec.eq_of_toNat_eq
  rw [toNat_and_mask, BitVec.toNat_setWidth, BitVec.toNat_setWidth, Nat.mod_eq_of_lt hlt]

theorem and_u32_max (value : U64) : value &&& 0xffffffff = (value.setWidth 32).setWidth 64 :=
  and_mask value .u32

theorem shiftLeft_sshiftRight (n : Nat) (hn : 0 < n) (hn' : n ≤ 64) (x : BitVec n) :
    ((x.setWidth 64) <<< (64 - n)).sshiftRight (64 - n) = x.signExtend 64 := by
  apply BitVec.eq_of_getLsbD_eq
  intro i hi
  rw [BitVec.getLsbD_sshiftRight, BitVec.getLsbD_signExtend, BitVec.msb_eq_getLsbD_last, BitVec.msb_eq_getLsbD_last]
  simp only [BitVec.getLsbD_shiftLeft, BitVec.getLsbD_setWidth]
  by_cases hin : i < n
  · have h1 : 64 - n + i < 64 := by omega
    have h2 : 64 - n + i - (64 - n) = i := by omega
    have h3 : ¬ 64 - n + i < 64 - n := by omega
    have h4 : ¬ 64 ≤ i := by omega
    simp [hi, hin, h1, h2, h3, h4]
  · have h1 : ¬ 64 - n + i < 64 := by omega
    have h2 : 63 - (64 - n) = n - 1 := by omega
    have h3 : ¬ 63 < 64 - n := by omega
    have h4 : n - 1 < 64 := by omega
    simp [hi, hin, h1, h2, h3, h4]

theorem setWidth_signExtend {n m k : Nat} (x : BitVec n) (hk : k ≤ m) :
    (x.signExtend m).setWidth k = x.signExtend k := by
  apply BitVec.eq_of_getLsbD_eq
  intro i hi
  have him : i < m := by omega
  simp [BitVec.getElem_signExtend, hi, him]

/-- A loaded value as the architecture extends it to a register of `size` bits. -/
def extendTo (size : Nat) (signed : Bool) {n : Nat} (data : BitVec n) : BitVec size :=
  if signed then data.signExtend size else data.setWidth size

/-- **A read result is the low bits of the value, extended to the target register and cleared above it.** -/
theorem extendReadResult_eq (value : U64) (width : MemoryAccessWidth) (signExtend registerWidth64 : Bool) :
    extendReadResult value width signExtend registerWidth64 =
      (extendTo (if registerWidth64 then 64 else 32) signExtend (value.setWidth width.bits)).setWidth 64 := by
  unfold extendReadResult extendTo
  simp only [and_mask, and_u32_max, shiftLeft_sshiftRight _ width.bits_pos width.bits_le]
  cases signExtend with
  | false => cases registerWidth64 <;> simp
  | true =>
    by_cases hw : width = .u64
    · subst hw
      cases registerWidth64 with
      | false => simp [MemoryAccessWidth.bits, BitVec.signExtend_eq_setWidth_of_le]
      | true => simp [MemoryAccessWidth.bits]
    · cases registerWidth64 with
      | false => simp [hw, setWidth_signExtend]
      | true => simp [hw]

theorem extendTo_setWidth_min (value : U64) (width : MemoryAccessWidth) (signed registerWidth64 : Bool) :
    extendTo (if registerWidth64 then 64 else 32) signed
        (value.setWidth (min width.bits (if registerWidth64 then 64 else 32))) =
      extendTo (if registerWidth64 then 64 else 32) signed (value.setWidth width.bits) := by
  -- the minimum is the width itself, but for a 64-bit read into a 32-bit register
  cases width <;> cases registerWidth64 <;> first | rfl | skip
  cases signed with
  | false => simp [extendTo, MemoryAccessWidth.bits]
  | true => simp [extendTo, MemoryAccessWidth.bits, BitVec.signExtend_eq_setWidth_of_le]

theorem setWidth_extendTo {n size : Nat} (h : n ≤ size) (signed : Bool) (data : BitVec n) :
    (extendTo size signed data).setWidth n = data := by
  cases signed with
  | false => simp [extendTo, h]
  | true => simp [extendTo, setWidth_signExtend data h]

/-- **A read result is exact**: it is the low `k` bits of the value, extended to the register and cleared above it,
where `k` is the smaller of the two sizes.  No other bit counts, so extending a result again leaves it alone. -/
theorem extendReadResult_exact (value : U64) (width : MemoryAccessWidth) (signExtend registerWidth64 : Bool) :
    let size := if registerWidth64 then 64 else 32
    let k := min width.bits size
    extendReadResult value width signExtend registerWidth64 =
        (extendTo size signExtend (value.setWidth k)).setWidth 64 ∧
      (∀ value' : U64, value'.setWidth k = value.setWidth k →
        extendReadResult value' width signExtend registerWidth64 =
          extendReadResult value width signExtend registerWidth64) ∧
      extendReadResult (extendReadResult value width signExtend registerWidth64) width signExtend registerWidth64 =
        extendReadResult value width signExtend registerWidth64 := by
  intro size k
  have hexact : ∀ value : U64, extendReadResult value width signExtend registerWidth64 =
      (extendTo size signExtend (value.setWidth k)).setWidth 64 := by
    intro value
    rw [extendReadResult_eq, ← extendTo_setWidth_min]
  have hlow : ∀ value' : U64, value'.setWidth k = value.setWidth k →
      extendReadResult value' width signExtend registerWidth64 =
        extendReadResult value width signExtend registerWidth64 := by
    intro value' h
    rw [hexact, hexact, h]
  refine ⟨hexact value, hlow, hlow _ ?_⟩
  have hk : k ≤ size := Nat.min_le_right _ _
  have hsize : size ≤ 64 := by
    show (if registerWidth64 then 64 else 32) ≤ 64
    split <;> decide
  rw [hexact, BitVec.setWidth_setWidth_of_le _ (Nat.le_trans hk hsize), setWidth_extendTo hk]

theorem extendReadResult_exact_negative_byte :
    (0xdead80#64).setWidth 8 = (0x80#64).setWidth 8 ∧
      extendReadResult 0xdead80 .u8 true false = extendReadResult 0x80 .u8 true false ∧
      extendReadResult 0x80 .u8 true false = 0xffffff80 :=
  ⟨by decide, (extendReadResult_exact 0x80 .u8 true false).2.1 0xdead80 (by decide), by decide⟩

end Ritm
