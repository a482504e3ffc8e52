import Ritm.MemoryAccess
/-!
# Psci — PSCI functions, their decoder, and result codes

The decoder is `arm_psci`'s, which is not part of this repository: `PsciDecoder` is any function that decodes the calls it
accepts as the PSCI specification defines them.  `specDecoder` is one; it refuses arguments the specification reserves.
-/
namespace Ritm

inductive EntryPoint where
  | entry32 (entryPointAddress contextId : U32)
  | entry64 (entryPointAddress contextId : U64)
  deriving DecidableEq, Repr

namespace EntryPoint

def entryPointAddress : EntryPoint → U64
  | entry32 address _ => address.setWidth 64
  | entry64 address _ => address

def contextId : EntryPoint → U64
  | entry32 _ contextId => contextId.setWidth 64
  | entry64 _ contextId => contextId

end EntryPoint

/-- `arm_psci::Function`, with the arguments RITM reads. -/
inductive PsciFunction where
  | version
  | cpuSuspend (state : U32) (entry : EntryPoint)
  | cpuOff
  | cpuOn (targetCpu : U64) (entry : EntryPoint)
  | affinityInfo
  | migrate
  | migrateInfoType
  | migrateInfoUpCpu
  | systemOff
  | systemOff2
  | systemReset
  | systemReset2
  | memProtect
  | memProtectCheckRange
  | features
  | cpuFreeze
  | cpuDefaultSuspend (entry : EntryPoint)
  | nodeHwState
  | systemSuspend (entry : EntryPoint)
  | setSuspendMode
  | statResidency
  | statCount
  deriving DecidableEq, Repr

/-- The function identifiers the specification gives a function, 32-bit and 64-bit. -/
def PsciFunction.functionIds : PsciFunction → List U64
  | version => [0x84000000]
  | cpuSuspend .. => [0x84000001, 0xC4000001]
  | cpuOff => [0x84000002]
  | cpuOn .. => [0x84000003, 0xC4000003]
  | affinityInfo => [0x84000004, 0xC4000004]
  | migrate => [0x84000005, 0xC4000005]
  | migrateInfoType => [0x84000006]
  | migrateInfoUpCpu => [0x84000007, 0xC4000007]
  | systemOff => [0x84000008]
  | systemReset => [0x84000009]
  | features => [0x8400000A]
  | cpuFreeze => [0x8400000B]
  | cpuDefaultSuspend .. => [0x8400000C, 0xC400000C]
  | nodeHwState => [0x8400000D, 0xC400000D]
  | systemSuspend .. => [0x8400000E, 0xC400000E]
  | setSuspendMode => [0x8400000F]
  | statResidency => [0x84000010, 0xC4000010]
  | statCount => [0x84000011, 0xC4000011]
  | systemReset2 => [0x84000012, 0xC4000012]
  | memProtect => [0x84000013]
  | memProtectCheckRange => [0x84000014, 0xC4000014]
  | systemOff2 => [0x84000015, 0xC4000015]

def isPsciFunctionId (functionId : U64) : Bool :=
  decide (0x84000000 ≤ functionId ∧ functionId ≤ 0x8400001F ∨ 0xC4000000 ≤ functionId ∧ functionId ≤ 0xC400001F)

def cpuOnIds : List U64 := [0x84000003, 0xC4000003]

def cpuSuspendIds : List U64 := [0x84000001, 0xC4000001]

/-- The identifiers that suspend with the entry point in the first argument: CPU_DEFAULT_SUSPEND and SYSTEM_SUSPEND. -/
def defaultSuspendIds : List U64 := [0x8400000C, 0xC400000C, 0x8400000E, 0xC400000E]

def affinityMask : U64 := 0xff00ffffff

def affinityOf (mpidr : U64) : U64 := mpidr &&& affinityMask

def isSmc64 (fnId : U64) : Bool := fnId.getLsbD 30

def narrow (fnId arg : U64) : U64 := if isSmc64 fnId then arg else (arg.setWidth 32).setWidth 64

def entryPointOf (fnId address contextId : U64) : EntryPoint :=
  if isSmc64 fnId then .entry64 address contextId else .entry32 (address.setWidth 32) (contextId.setWidth 32)

/-- **What the specification says a call means.** -/
def PsciFunction.Decodes (f : PsciFunction) (fnId arg0 arg1 arg2 : U64) : Prop :=
  fnId ∈ f.functionIds ∧
    match f with
    | cpuOn targetCpu entry =>
      targetCpu = narrow fnId arg0 ∧ affinityOf targetCpu = targetCpu ∧ entry = entryPointOf fnId arg1 arg2
    | cpuSuspend state entry => state = arg0.setWidth 32 ∧ entry = entryPointOf fnId arg1 arg2
    | cpuDefaultSuspend entry => entry = entryPointOf fnId arg0 arg1
    | systemSuspend entry => entry = entryPointOf fnId arg0 arg1
    | _ => True

/-- **What is relied on** of `Function::try_from`: of the calls with a PSCI identifier it decodes those it accepts as
specified.  An error is the code `ErrorCode` gives it. -/
structure PsciDecoder where
  tryFrom : U64 → U64 → U64 → U64 → Except U32 PsciFunction
  tryFrom_ok {fnId arg0 arg1 arg2 : U64} {f : PsciFunction} (hid : isPsciFunctionId fnId = true)
    (h : tryFrom fnId arg0 arg1 arg2 = .ok f) : f.Decodes fnId arg0 arg1 arg2

def psciCandidates (fnId arg0 arg1 arg2 : U64) : List PsciFunction :=
  [.version, .cpuSuspend (arg0.setWidth 32) (entryPointOf fnId arg1 arg2), .cpuOff,
    .cpuOn (narrow fnId arg0) (entryPointOf fnId arg1 arg2), .affinityInfo, .migrate, .migrateInfoType,
    .migrateInfoUpCpu, .systemOff, .systemOff2, .systemReset, .systemReset2, .memProtect, .memProtectCheckRange,
    .features, .cpuFreeze, .cpuDefaultSuspend (entryPointOf fnId arg0 arg1), .nodeHwState,
    .systemSuspend (entryPointOf fnId arg0 arg1), .setSuspendMode, .statResidency, .statCount]

def psciIds : List U64 := (psciCandidates 0 0 0 0).flatMap PsciFunction.functionIds

def PsciFunction.admits (fnId arg0 arg1 : U64) : PsciFunction → Bool
  | cpuOn targetCpu _ => decide (affinityOf targetCpu = targetCpu)
  | cpuSuspend state _ => decide (state &&& 0xfcfe0000 = 0)
  | affinityInfo => decide (affinityOf (narrow fnId arg0) = narrow fnId arg0 ∧ narrow fnId arg1 ≤ 3)
  | migrate | nodeHwState | statResidency | statCount => decide (affinityOf (narrow fnId arg0) = narrow fnId arg0)
  | features => (0x80000000 :: psciIds).contains ((arg0.setWidth 32).setWidth 64)
  | memProtect | setSuspendMode | systemOff2 => decide (arg0.setWidth 32 ≤ 1#32)
  | systemReset2 => arg0.getLsbD 31 || decide (arg0.setWidth 32 = 0#32)
  | _ => true

/-- Arguments without a meaning are INVALID_PARAMETERS, an unknown identifier is NOT_SUPPORTED. -/
def specTryFrom (fnId arg0 arg1 arg2 : U64) : Except U32 PsciFunction :=
  match (psciCandidates fnId arg0 arg1 arg2).find? (fun f => f.functionIds.contains fnId) with
  | none => .error (-1)
  | some f => if f.admits fnId arg0 arg1 then .ok f else .error (-2)

def specDecoder : PsciDecoder where
  tryFrom := specTryFrom
  tryFrom_ok {fnId arg0 arg1 arg2 f} _ h := by
    unfold specTryFrom at h
    split at h
    · cases h
    rename_i g hf
    split at h
    · rename_i hadmits
      cases h
      have hmem := List.mem_of_find?_eq_some hf
      refine ⟨by simpa using List.find?_some hf, ?_⟩
      cases f with
      | cpuOn targetCpu entry =>
        simp only [psciCandidates, List.mem_cons, PsciFunction.cpuOn.injEq, reduceCtorEq, false_or, or_false,
          List.not_mem_nil] at hmem
        exact ⟨hmem.1, of_decide_eq_true hadmits, hmem.2⟩
      | cpuSuspend state entry =>
        simpa only [psciCandidates, List.mem_cons, PsciFunction.cpuSuspend.injEq, reduceCtorEq, false_or, or_false,
          List.not_mem_nil] using hmem
      | cpuDefaultSuspend entry =>
        simpa only [psciCandidates, List.mem_cons, PsciFunction.cpuDefaultSuspend.injEq, reduceCtorEq, false_or,
          or_false, List.not_mem_nil] using hmem
      | systemSuspend entry =>
        simpa only [psciCandidates, List.mem_cons, PsciFunction.systemSuspend.injEq, reduceCtorEq, false_or,
          or_false, List.not_mem_nil] using hmem
      | _ => trivial
    · cases h

/-! ## Result codes -/

inductive PsciError where
  | notSupported
  | invalidParameters
  | denied
  | alreadyOn
  | onPending
  | internalFailure
  | notPresent
  | disabled
  | invalidAddress
  | unknown (code : U64)
  deriving DecidableEq, Repr

def PsciError.toI64 : PsciError → U64
  | notSupported => -1
  | invalidParameters => -2
  | denied => -3
  | alreadyOn => -4
  | onPending => -5
  | internalFailure => -6
  | notPresent => -7
  | disabled => -8
  | invalidAddress => -9
  | unknown code => code

def PsciError.named : List PsciError :=
  [notSupported, invalidParameters, denied, alreadyOn, onPending, internalFailure, notPresent, disabled, invalidAddress]

def PsciError.ofI64 (code : U64) : PsciError := (named.find? (fun e => decide (e.toI64 = code))).getD (.unknown code)

@[simp] theorem PsciError.toI64_ofI64 (code : U64) : (PsciError.ofI64 code).toI64 = code := by
  unfold ofI64
  cases h : named.find? (fun e => decide (e.toI64 = code)) with
  | none => rfl
  | some e => simpa using List.find?_some h

def successOrError (x0 : U64) : Except PsciError Unit := if x0 = 0 then .ok () else .error (.ofI64 x0)

def psciResultToU64 : Except PsciError Unit → U64
  | .ok () => 0
  | .error e => e.toI64

/-- **The guest gets the code firmware returned.** -/
@[simp] theorem psciResultToU64_successOrError (x0 : U64) : psciResultToU64 (successOrError x0) = x0 := by
  unfold successOrError
  split
  · rename_i h
    exact h.symm
  · exact PsciError.toI64_ofI64 x0

end Ritm
