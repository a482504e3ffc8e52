import Ritm.Lib.Prog
import Ritm.MemoryAccess
/-!
# Syndrome — decoding inverts the architecture's encoding

`read_register` is a closure with a state of its own, so the decoder is given here once more as the tree of calls it
makes on it.  Run against any closure the tree returns what `decodeMemoryAccess` returns, with at most one call.
-/
namespace Ritm

open Lib (Prog)
open Lib.Prog (exec)

/-! ## Encoding -/

/-- A syndrome with its fields filled in, as the crate's tests build it (`tests::iss`). -/
def encodeIss (width : MemoryAccessWidth) (registerIndex flags : U32) : U32 :=
  dataAbortIssIsv ||| (width.sas.setWidth 32 <<< dataAbortIssSasShift) |||
    ((registerIndex &&& dataAbortIssSrtMask) <<< dataAbortIssSrtShift) ||| flags

namespace DecodedMemoryAccess

def flags (access : DecodedMemoryAccess) : U32 :=
  (if access.signExtend then dataAbortIssSse else 0) ||| (if access.registerWidth64 then dataAbortIssSf else 0) |||
    (match access.kind with
      | .read => 0
      | .write _ => dataAbortIssWnr)

def encode (access : DecodedMemoryAccess) : U32 :=
  encodeIss access.width (BitVec.ofNat 32 access.registerIndex) access.flags

end DecodedMemoryAccess

/-- The bits of a syndrome that the decoder's fields occupy: ISV, SAS, SSE, SRT, SF and WnR. -/
def issFields : U32 :=
  dataAbortIssIsv ||| (dataAbortIssSasMask <<< dataAbortIssSasShift) |||
    (dataAbortIssSrtMask <<< dataAbortIssSrtShift) ||| (dataAbortIssSse ||| dataAbortIssSf ||| dataAbortIssWnr)

example : issFields = 0x01ff8040 := by decide

theorem ite_flag (x : U32) (i : Nat) : (if x.getLsbD i then 1#32 <<< i else 0) = x &&& (1#32 <<< i) := by
  rw [← BitVec.twoPow_eq, BitVec.and_twoPow]
  rfl

theorem extractLsb'_shiftLeft (x : U32) (start len : Nat) :
    (x.extractLsb' start len).setWidth 32 <<< start = x &&& ((BitVec.allOnes len).setWidth 32 <<< start) := by
  apply BitVec.eq_of_getLsbD_eq
  intro i hi
  by_cases h : i < start
  · simp [h]
  · have hadd : start + (i - start) = i := by omega
    simp [h, hi, hadd, Bool.and_comm]

theorem sas_shiftLeft (iss : U32) :
    (decodeMemoryAccessWidth iss).sas.setWidth 32 <<< dataAbortIssSasShift =
      iss &&& (dataAbortIssSasMask <<< dataAbortIssSasShift) := by
  rw [sas_decodeMemoryAccessWidth]
  exact extractLsb'_shiftLeft iss 22 2

theorem srt_shiftLeft (iss : U32) :
    (BitVec.ofNat 32 (issSrt iss).toNat &&& dataAbortIssSrtMask) <<< dataAbortIssSrtShift =
      iss &&& (dataAbortIssSrtMask <<< dataAbortIssSrtShift) := by
  have hmask : BitVec.ofNat 32 (issSrt iss).toNat &&& dataAbortIssSrtMask = (issSrt iss).setWidth 32 := by
    apply BitVec.eq_of_toNat_eq
    have hsrt := (issSrt iss).isLt
    have h32 : dataAbortIssSrtMask.toNat = 2 ^ 5 - 1 := rfl
    rw [BitVec.toNat_and, h32, Nat.and_two_pow_sub_one_eq_mod, BitVec.toNat_ofNat, BitVec.toNat_setWidth]
    omega
  rw [hmask]
  exact extractLsb'_shiftLeft iss 16 5

theorem and_isv {iss : U32} (h : issIsv iss = true) : iss &&& dataAbortIssIsv = dataAbortIssIsv := by
  have hflag := ite_flag iss 24
  rw [show iss.getLsbD 24 = true from h, if_pos rfl] at hflag
  exact hflag.symm

theorem flags_decoded {iss : U32} {access : DecodedMemoryAccess} (hsse : access.signExtend = issSse iss)
    (hsf : access.registerWidth64 = issSf iss) {registerIndex : Nat} {width : MemoryAccessWidth}
    {readRegister : Nat → Option U64}
    (hkind : decodeMemoryAccessKind iss registerIndex width readRegister = some access.kind) :
    access.flags = iss &&& (dataAbortIssSse ||| dataAbortIssSf ||| dataAbortIssWnr) := by
  have hwnr : (match access.kind with
      | .read => 0
      | .write _ => dataAbortIssWnr) = if issWnr iss then dataAbortIssWnr else 0 := by
    rw [decodeMemoryAccessKind_eq] at hkind
    split at hkind
    · obtain ⟨v, -, hv⟩ := Option.map_eq_some_iff.1 hkind
      rw [← hv]
      simp [*]
    · rw [← Option.some.inj hkind]
      simp [*]
  unfold DecodedMemoryAccess.flags
  rw [hwnr, hsse, hsf, BitVec.and_or_distrib_left, BitVec.and_or_distrib_left]
  exact congrArg₂ (· ||| ·) (congrArg₂ (· ||| ·) (ite_flag iss 21) (ite_flag iss 15)) (ite_flag iss 6)

/-! ## Only the fields count -/

theorem getLsbD_of_fields {iss iss' : U32} (h : iss' &&& issFields = iss &&& issFields) {i : Nat}
    (hi : issFields.getLsbD i = true) : iss'.getLsbD i = iss.getLsbD i := by
  have hbit := congrArg (fun x => BitVec.getLsbD x i) h
  simpa [hi] using hbit

theorem extractLsb'_of_fields {iss iss' : U32} (h : iss' &&& issFields = iss &&& issFields) {start len : Nat}
    (hfield : ∀ i < len, issFields.getLsbD (start + i) = true) :
    iss'.extractLsb' start len = iss.extractLsb' start len := by
  apply BitVec.eq_of_getLsbD_eq
  intro i hi
  simp [hi, getLsbD_of_fields h (hfield i hi)]

theorem and_mask_eq_iff (v v' : U64) (width : MemoryAccessWidth) :
    v' &&& width.mask = v &&& width.mask ↔ v'.setWidth width.bits = v.setWidth width.bits := by
  rw [and_mask, and_mask]
  refine ⟨fun h => ?_, fun h => by rw [h]⟩
  have := congrArg (BitVec.setWidth width.bits) h
  simpa [BitVec.setWidth_setWidth_of_le _ width.bits_le] using this

theorem decodeMemoryAccessKind_congr {iss iss' : U32} (hwnr : issWnr iss' = issWnr iss) {registerIndex : Nat}
    {width : MemoryAccessWidth} {readRegister readRegister' : Nat → Option U64}
    (hregister : issWnr iss = true →
      (readRegister' registerIndex).map (BitVec.setWidth width.bits) =
        (readRegister registerIndex).map (BitVec.setWidth width.bits)) :
    decodeMemoryAccessKind iss' registerIndex width readRegister' =
      decodeMemoryAccessKind iss registerIndex width readRegister := by
  rw [decodeMemoryAccessKind_eq, decodeMemoryAccessKind_eq, hwnr]
  cases hw : issWnr iss with
  | false => rfl
  | true =>
    have hr := hregister hw
    cases hv : readRegister registerIndex <;> cases hv' : readRegister' registerIndex <;> simp [hv, hv'] at hr ⊢
    exact (and_mask_eq_iff _ _ _).2 hr

theorem decodeMemoryAccess_congr {iss iss' : U32} (hiss : iss' &&& issFields = iss &&& issFields) (hpfarFipa : U64)
    {farVa farVa' : U64} (hfar : farVa'.toNat % 4096 = farVa.toNat % 4096) {readRegister readRegister' : Nat → Option U64}
    (hregister : issWnr iss = true →
      (readRegister' (issSrt iss).toNat).map (BitVec.setWidth (decodeMemoryAccessWidth iss).bits) =
        (readRegister (issSrt iss).toNat).map (BitVec.setWidth (decodeMemoryAccessWidth iss).bits)) :
    decodeMemoryAccess iss' hpfarFipa farVa' readRegister' = decodeMemoryAccess iss hpfarFipa farVa readRegister := by
  have hisv : issIsv iss' = issIsv iss := getLsbD_of_fields hiss (by decide)
  have hsse : issSse iss' = issSse iss := getLsbD_of_fields hiss (by decide)
  have hsf : issSf iss' = issSf iss := getLsbD_of_fields hiss (by decide)
  have hwnr : issWnr iss' = issWnr iss := getLsbD_of_fields hiss (by decide)
  have hsrt : issSrt iss' = issSrt iss := extractLsb'_of_fields hiss (by decide)
  have hsas : issSas iss' = issSas iss := extractLsb'_of_fields hiss (by decide)
  have hwidth : decodeMemoryAccessWidth iss' = decodeMemoryAccessWidth iss :=
    MemoryAccessWidth.sas_injective (by rw [sas_decodeMemoryAccessWidth, sas_decodeMemoryAccessWidth, hsas])
  have hipa : decodeFaultIpa hpfarFipa farVa' = decodeFaultIpa hpfarFipa farVa :=
    BitVec.eq_of_toNat_eq (by rw [toNat_decodeFaultIpa, toNat_decodeFaultIpa, hfar])
  rw [decodeMemoryAccess_eq, decodeMemoryAccess_eq, hisv, hsse, hsf, hsrt, hwidth, hipa,
    decodeMemoryAccessKind_congr hwnr hregister]

/-! ## The calls on the closure -/

/-- `read_register`: called with a register's index it may answer with a value, and may change what it has captured. -/
abbrev RegisterReader (S : Type) := S → Nat → Option U64 × S

def RegisterReader.handler {S : Type} (readRegister : RegisterReader S) : Prog.Handler Nat (fun _ => Option U64) S :=
  fun s registerIndex => some (readRegister s registerIndex)

def decodeMemoryAccessKindCalls (iss : U32) (registerIndex : Nat) (width : MemoryAccessWidth) :
    Prog Nat (fun _ => Option U64) (Option DecodedMemoryAccessKind) :=
  if decodeMemoryAccessIsWrite iss then do
    match ← Prog.call registerIndex with
    | none => pure none
    | some v => pure (some (.write (v &&& width.mask)))
  else pure (some .read)

def decodeMemoryAccessCalls (iss : U32) (hpfarFipa farVa : U64) :
    Prog Nat (fun _ => Option U64) (Option DecodedMemoryAccess) :=
  if !decodeValidInstructionSyndrome iss then pure none
  else do
    let width := decodeMemoryAccessWidth iss
    let registerIndex := decodeMemoryAccessRegisterIndex iss
    match ← decodeMemoryAccessKindCalls iss registerIndex width with
    | none => pure none
    | some kind => pure (some {
        ipa := decodeFaultIpa hpfarFipa farVa
        width := width
        kind := kind
        registerIndex := registerIndex
        signExtend := decodeMemoryAccessSignExtend iss
        registerWidth64 := decodeMemoryAccessRegisterWidth64 iss })

theorem exec_decodeMemoryAccessKindCalls {S : Type} (readRegister : RegisterReader S) (s : S) (iss : U32)
    (registerIndex : Nat) (width : MemoryAccessWidth) :
    exec readRegister.handler s (decodeMemoryAccessKindCalls iss registerIndex width) =
      some (decodeMemoryAccessKind iss registerIndex width (fun i => (readRegister s i).1),
        if issWnr iss then ((readRegister s registerIndex).2, [⟨registerIndex, (readRegister s registerIndex).1⟩])
        else (s, [])) := by
  unfold decodeMemoryAccessKindCalls
  rw [decodeMemoryAccessIsWrite_eq, decodeMemoryAccessKind_eq]
  cases issWnr iss with
  | false => rfl
  | true =>
    simp only [if_true, Prog.call_bind]
    rw [Prog.exec_step _ (show readRegister.handler s registerIndex = some (readRegister s registerIndex) from rfl)]
    cases (readRegister s registerIndex).1 <;> rfl

/-- **The decoder calls the closure for a write, once, at SRT, and never otherwise.** -/
theorem exec_decodeMemoryAccessCalls {S : Type} (readRegister : RegisterReader S) (s : S) (iss : U32)
    (hpfarFipa farVa : U64) :
    exec readRegister.handler s (decodeMemoryAccessCalls iss hpfarFipa farVa) =
      some (decodeMemoryAccess iss hpfarFipa farVa (fun i => (readRegister s i).1),
        if issIsv iss && issWnr iss then
          ((readRegister s (issSrt iss).toNat).2, [⟨(issSrt iss).toNat, (readRegister s (issSrt iss).toNat).1⟩])
        else (s, [])) := by
  unfold decodeMemoryAccessCalls
  rw [decodeValidInstructionSyndrome_eq, decodeMemoryAccess_eq]
  cases issIsv iss with
  | false => rfl
  | true =>
    simp only [Bool.not_true, Bool.false_eq_true, if_false, if_true, Bool.true_and, decodeMemoryAccessRegisterIndex_eq,
      decodeMemoryAccessSignExtend_eq, decodeMemoryAccessRegisterWidth64_eq]
    rw [Prog.exec_bind _ (exec_decodeMemoryAccessKindCalls readRegister s iss _ _)]
    cases decodeMemoryAccessKind iss (issSrt iss).toNat (decodeMemoryAccessWidth iss) fun i => (readRegister s i).1 <;>
      cases issWnr iss <;> rfl

/-! ## The inverse -/

/-- What an access decoded from a syndrome and a fault address says of them. -/
structure DecodedMemoryAccess.Inverts (iss : U32) (hpfarFipa farVa : U64) (readRegister : Nat → Option U64)
    (access : DecodedMemoryAccess) : Prop where
  encode : access.encode = iss &&& issFields
  page : access.ipa.toNat / 4096 = hpfarFipa.toNat
  pageOffset : access.ipa.toNat % 4096 = farVa.toNat % 4096
  value : ∀ v, access.kind = .write v →
    ∃ register, readRegister (issSrt iss).toNat = some register ∧ v.toNat = register.toNat % 2 ^ access.width.bits

theorem isSome_decodeMemoryAccess (iss : U32) (hpfarFipa farVa : U64) (readRegister : Nat → Option U64) :
    (decodeMemoryAccess iss hpfarFipa farVa readRegister).isSome = true ↔
      issIsv iss = true ∧ (issWnr iss = false ∨ (readRegister (issSrt iss).toNat).isSome = true) := by
  rw [decodeMemoryAccess_eq, decodeMemoryAccessKind_eq]
  cases issIsv iss <;> cases issWnr iss <;> simp

theorem decodeMemoryAccess_inverts {iss : U32} {hpfarFipa farVa : U64} (hfipa : hpfarFipa.toNat < 2 ^ 52)
    {readRegister : Nat → Option U64} {access : DecodedMemoryAccess}
    (h : decodeMemoryAccess iss hpfarFipa farVa readRegister = some access) :
    access.Inverts iss hpfarFipa farVa readRegister := by
  rw [decodeMemoryAccess_eq] at h
  split at h
  case isFalse => cases h
  rename_i hisv
  obtain ⟨kind, hkind, rfl⟩ := Option.map_eq_some_iff.1 h
  refine ⟨?_, ?_, ?_, ?_⟩
  · unfold DecodedMemoryAccess.encode encodeIss issFields
    rw [flags_decoded rfl rfl hkind, sas_shiftLeft, srt_shiftLeft]
    simp only [BitVec.and_or_distrib_left, and_isv hisv]
  · show (decodeFaultIpa hpfarFipa farVa).toNat / 4096 = _
    rw [toNat_decodeFaultIpa]
    omega
  · show (decodeFaultIpa hpfarFipa farVa).toNat % 4096 = _
    rw [toNat_decodeFaultIpa]
    omega
  · intro v hv
    cases hv
    rw [decodeMemoryAccessKind_eq] at hkind
    split at hkind
    · obtain ⟨register, hregister, hv⟩ := Option.map_eq_some_iff.1 hkind
      cases hv
      exact ⟨register, hregister, toNat_and_mask register _⟩
    · cases hkind

/-- **Decoding inverts the encoding**: an access is decoded exactly from a valid syndrome with its operand at hand, its
fields put back are the syndrome's, and nothing else of the syndrome, the fault address or the register has an effect.
The closure is called for a write alone, at the index in SRT. -/
theorem decodeMemoryAccess_inverts_encoding (iss : U32) (hpfarFipa farVa : U64) (hfipa : hpfarFipa.toNat < 2 ^ 52)
    (readRegister : Nat → Option U64) :
    ((decodeMemoryAccess iss hpfarFipa farVa readRegister).isSome = true ↔
      issIsv iss = true ∧ (issWnr iss = false ∨ (readRegister (issSrt iss).toNat).isSome = true)) ∧
    (∀ access, decodeMemoryAccess iss hpfarFipa farVa readRegister = some access →
      access.Inverts iss hpfarFipa farVa readRegister) ∧
    (∀ (iss' : U32) (farVa' : U64) (readRegister' : Nat → Option U64), iss' &&& issFields = iss &&& issFields →
      farVa'.toNat % 4096 = farVa.toNat % 4096 →
      (issWnr iss = true →
        (readRegister' (issSrt iss).toNat).map (BitVec.setWidth (decodeMemoryAccessWidth iss).bits) =
          (readRegister (issSrt iss).toNat).map (BitVec.setWidth (decodeMemoryAccessWidth iss).bits)) →
      decodeMemoryAccess iss' hpfarFipa farVa' readRegister' = decodeMemoryAccess iss hpfarFipa farVa readRegister) ∧
    (∀ (S : Type) (closure : RegisterReader S) (s : S), ∃ s' log,
      exec closure.handler s (decodeMemoryAccessCalls iss hpfarFipa farVa) =
        some (decodeMemoryAccess iss hpfarFipa farVa (fun i => (closure s i).1), s', log) ∧
      log.map Sigma.fst = (if issIsv iss && issWnr iss then [(issSrt iss).toNat] else []) ∧
      (issSrt iss).toNat ≤ 31) := by
  refine ⟨isSome_decodeMemoryAccess .., fun _ => decodeMemoryAccess_inverts hfipa,
    fun _ _ _ hiss hfar => decodeMemoryAccess_congr hiss hpfarFipa hfar, fun S closure s => ?_⟩
  refine ⟨_, _, exec_decodeMemoryAccessCalls closure s iss hpfarFipa farVa, ?_, Nat.le_of_lt_succ (issSrt iss).isLt⟩
  cases issIsv iss && issWnr iss <;> rfl

theorem decodeMemoryAccess_inverts_encoding_store :
    decodeMemoryAccess 0x01470040 0x12345 0xffff000000000abc (fun _ => some 0xffffffffffff1234) =
        some ⟨0x12345abc, .u16, .write 0x1234, 7, false, false⟩ ∧
      (⟨0x12345abc, .u16, .write 0x1234, 7, false, false⟩ : DecodedMemoryAccess).Inverts 0x01470040 0x12345
        0xffff000000000abc (fun _ => some 0xffffffffffff1234) ∧
      decodeMemoryAccess 0x0147004f 0x12345 0xabc (fun _ => some 0x1234) =
        decodeMemoryAccess 0x01470040 0x12345 0xffff000000000abc (fun _ => some 0xffffffffffff1234) := by
  have h := decodeMemoryAccess_inverts_encoding 0x01470040 0x12345 0xffff000000000abc (by decide)
    (fun _ => some 0xffffffffffff1234)
  have hdecoded : decodeMemoryAccess 0x01470040 0x12345 0xffff000000000abc (fun _ => some 0xffffffffffff1234) =
      some ⟨0x12345abc, .u16, .write 0x1234, 7, false, false⟩ := by decide
  exact ⟨hdecoded, h.2.1 _ hdecoded, h.2.2.1 _ _ _ (by decide) (by decide) (by decide)⟩

end Ritm
