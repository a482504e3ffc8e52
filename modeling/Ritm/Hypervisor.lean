import Ritm.Lib.Prog
import Ritm.Exceptions
import Ritm.Psci
import Ritm.SimpleMap
import Ritm.Stage2
/-!
# Hypervisor — the code that runs at EL2

The trap handler, the PSCI mediation and the entry to EL1, as program trees: what a core does to its own registers is
computed purely, and what it does to anything other cores or firmware can see is a call (`Eff`).  Between two calls of
one core, other cores may make theirs.  A critical section under a lock is one call.

A core's system registers are a `SysRegs`, its trapped guest's registers a `GuestRegisterState`; both are passed through.
Checked arithmetic that overflows panics.
-/
namespace Ritm

open Lib (Prog)

def aarch64InstructionLength : U64 := 4
def ecDataAbortLowerEl : U8 := 0x24
def ecDataAbortSameEl : U8 := 0x25
def spsrEl1h : U64 := 5
def t0szMaxSize : U64 := 64

/-! ## System registers -/

structure SysRegs where
  mpidrEl1 : U64
  -- What the trap reported: the syndrome, the faulting IPA's page number and the faulting VA.
  esrEl2 : U64
  hpfarFipa : U64
  farEl2 : U64
  vbarEl1 : U64
  elrEl1 : U64
  spsrEl1 : U64
  farEl1 : U64
  esrEl1 : U64
  ttbr0El1 : U64
  tcrEl1 : U64
  mairEl1 : U64
  spEl1 : U64
  sctlrEl1 : U64
  hcrEl2 : U64
  vtcrEl2 : U64
  vttbrEl2 : U64
  cntvoffEl2 : U64
  cnthctlEl2 : U64
  iccSreEl2 : U64
  spsrEl2 : U64
  elrEl2 : U64
  deriving DecidableEq, Repr, Inhabited

def setBit (x : U64) (i : Nat) : U64 := x ||| (1#64 <<< i)

def clearBit (x : U64) (i : Nat) : U64 := x &&& ~~~(1#64 <<< i)

def setField (x : U64) (low width : Nat) (value : U64) : U64 :=
  (x &&& ~~~(((1#64 <<< width) - 1) <<< low)) ||| ((value &&& ((1#64 <<< width) - 1)) <<< low)

def esrEc (esr : U64) : U8 := (esr.extractLsb' 26 6).setWidth 8

def esrIss (esr : U64) : U32 := (esr.extractLsb' 0 25).setWidth 32

def esrSetEc (esr : U64) (ec : U8) : U64 := setField esr 26 6 (ec.setWidth 64)

def maskDaif (spsr : U64) : U64 := setBit (setBit (setBit (setBit spsr 9) 8) 7) 6

inductive ExceptionClass where
  | hvcTrappedInAArch64
  | smcTrappedInAArch64
  | dataAbortLowerEL
  | unknown (value : U8)
  deriving DecidableEq, Repr

def ExceptionClass.ofU8 (value : U8) : ExceptionClass :=
  if value = 0x16 then .hvcTrappedInAArch64
  else if value = 0x17 then .smcTrappedInAArch64
  else if value = ecDataAbortLowerEl then .dataAbortLowerEL
  else .unknown value

/-! ## Calls -/

structure SuspendCoreData where
  entryPoint : U64
  contextId : U64
  deriving DecidableEq, Repr

structure StartClosure where
  fnId : U64
  mpidr : U64
  entry : EntryPoint
  deriving DecidableEq, Repr

/-- What a core does that others can see. -/
inductive Eff (σ : Type) where
  | callRead (handler : MemoryReadHandler σ) (access : MemoryReadAccess)
  | callWrite (handler : MemoryWriteHandler σ) (access : MemoryWriteAccess)
  -- The body of `get_secondary_stack`, under the lock of `SECONDARY_STACKS`.
  | getSecondaryStack (mpidr : U64)
  -- `start_core` stores the closure in the stack, `secondary_entry` loads it; a stack is named by its end.
  | writeStartClosure (stackEnd : U64) (closure : StartClosure)
  | readStartClosure (stackEnd : U64)
  -- `SUSPEND_CONTEXTS.lock().insert` and `.remove`.
  | suspendInsert (mpidr : U64) (context : SuspendCoreData)
  | suspendRemove (mpidr : U64)
  | smc (functionId : U32) (args : List U64)
  | panic (message : String)

/-- The answer to a call: for a stack its slot, for an SMC the first result register, which is all RITM reads. -/
def Eff.Resp {σ : Type} : Eff σ → Type
  | callRead .. => MemoryReadResult
  | callWrite .. => MemoryWriteResult
  | getSecondaryStack _ => Nat
  | writeStartClosure .. => Unit
  | readStartClosure _ => StartClosure
  | suspendInsert .. => Unit
  | suspendRemove _ => Option SuspendCoreData
  | smc .. => U64
  | panic _ => Empty

abbrev Hyp (σ : Type) := Prog (Eff σ) Eff.Resp

variable {M σ : Type}

def callRead (handler : MemoryReadHandler σ) (access : MemoryReadAccess) : Hyp σ MemoryReadResult :=
  Prog.call (Eff.callRead handler access)

def callWrite (handler : MemoryWriteHandler σ) (access : MemoryWriteAccess) : Hyp σ MemoryWriteResult :=
  Prog.call (Eff.callWrite handler access)

def getSecondaryStack (mpidr : U64) : Hyp σ Nat := Prog.call (Eff.getSecondaryStack mpidr)

def writeStartClosure (stackEnd : U64) (closure : StartClosure) : Hyp σ Unit :=
  Prog.call (Eff.writeStartClosure stackEnd closure)

def readStartClosure (stackEnd : U64) : Hyp σ StartClosure := Prog.call (Eff.readStartClosure stackEnd)

def suspendInsert (mpidr : U64) (context : SuspendCoreData) : Hyp σ Unit :=
  Prog.call (Eff.suspendInsert mpidr context)

def suspendRemove (mpidr : U64) : Hyp σ (Option SuspendCoreData) := Prog.call (Eff.suspendRemove mpidr)

def smc (functionId : U32) (args : List U64) : Hyp σ U64 := Prog.call (Eff.smc functionId args)

section Bind

variable {α : Type}

@[simp] theorem callRead_bind (handler : MemoryReadHandler σ) (access : MemoryReadAccess)
    (k : MemoryReadResult → Hyp σ α) : (callRead handler access >>= k) = .step (.callRead handler access) k := rfl

@[simp] theorem callWrite_bind (handler : MemoryWriteHandler σ) (access : MemoryWriteAccess)
    (k : MemoryWriteResult → Hyp σ α) : (callWrite handler access >>= k) = .step (.callWrite handler access) k := rfl

@[simp] theorem getSecondaryStack_bind (mpidr : U64) (k : Nat → Hyp σ α) :
    (getSecondaryStack mpidr >>= k) = .step (.getSecondaryStack mpidr) k := rfl

@[simp] theorem writeStartClosure_bind (stackEnd : U64) (closure : StartClosure) (k : Unit → Hyp σ α) :
    (writeStartClosure stackEnd closure >>= k) = .step (.writeStartClosure stackEnd closure) k := rfl

@[simp] theorem readStartClosure_bind (stackEnd : U64) (k : StartClosure → Hyp σ α) :
    (readStartClosure stackEnd >>= k) = .step (.readStartClosure stackEnd) k := rfl

@[simp] theorem suspendInsert_bind (mpidr : U64) (context : SuspendCoreData) (k : Unit → Hyp σ α) :
    (suspendInsert mpidr context >>= k) = .step (.suspendInsert mpidr context) k := rfl

@[simp] theorem suspendRemove_bind (mpidr : U64) (k : Option SuspendCoreData → Hyp σ α) :
    (suspendRemove mpidr >>= k) = .step (.suspendRemove mpidr) k := rfl

@[simp] theorem smc_bind (functionId : U32) (args : List U64) (k : U64 → Hyp σ α) :
    (smc functionId args >>= k) = .step (.smc functionId args) k := rfl

end Bind

def panic {α : Type} (message : String) : Hyp σ α := .step (.panic message) Empty.elim

/-! ## What the code is linked with -/

/-- `aarch64_rt`'s own entry points for a started and a resumed core, where the stacks of the slots end, and where
`suspend_core` leaves what a core that is to resume on such a stack needs. -/
structure Runtime (maxCores : Nat) where
  secondaryEntry : U64
  resumeEntry : U64
  entry_ne : secondaryEntry ≠ resumeEntry
  suspendContext : Nat → U64
  stackEnd : Nat → U64
  stackEnd_injective : ∀ i j, i < maxCores → j < maxCores → stackEnd i = stackEnd j → i = j

/-- A runtime whose stacks lie one after the other, with the contexts on them. -/
def Runtime.contiguous {maxCores : Nat} (secondaryEntry resumeEntry : U64) (hne : secondaryEntry ≠ resumeEntry)
    (base size : Nat) (hsize : 0 < size) (hbound : base + maxCores * size < 2 ^ 64) : Runtime maxCores where
  secondaryEntry := secondaryEntry
  resumeEntry := resumeEntry
  entry_ne := hne
  suspendContext i := BitVec.ofNat 64 (base + i * size)
  stackEnd i := BitVec.ofNat 64 (base + (i + 1) * size)
  stackEnd_injective i j hi hj h := by
    have hi' : (i + 1) * size ≤ maxCores * size := Nat.mul_le_mul_right size hi
    have hj' : (j + 1) * size ≤ maxCores * size := Nat.mul_le_mul_right size hj
    have h' := congrArg BitVec.toNat h
    rw [BitVec.toNat_ofNat, BitVec.toNat_ofNat, Nat.mod_eq_of_lt (by omega), Nat.mod_eq_of_lt (by omega)] at h'
    have := Nat.eq_of_mul_eq_mul_right hsize (Nat.add_left_cancel h')
    omega

def eightStacks : Runtime 8 := .contiguous 0x40200000 0x40200100 (by decide) 0x40300000 0x8000 (by decide) (by decide)
structure Env (M σ : Type) where
  -- What `stage2_config()` built before the payload started.
  config : Stage2Config M σ
  -- The platform's `handle_hvc` and `MAX_CORES`.
  handleHvc : U64 → List U64 → HvcResult
  maxCores : Nat
  psci : PsciDecoder
  rt : Runtime maxCores

/-! ## Entering EL1 -/

def setupStage2 [IdMap M] (env : Env M σ) (sys : SysRegs) : SysRegs :=
  let vtcr := setField 0 16 3 2
  let vtcr := setField vtcr 14 2 0
  let vtcr := setField vtcr 12 2 3
  let vtcr := setField vtcr 10 2 1
  let vtcr := setField vtcr 8 2 1
  let vtcr := setField vtcr 6 2 2
  let vtcr := setField vtcr 0 6 (t0szMaxSize - 40)
  { sys with vttbrEl2 := IdMap.rootAddress env.config.idmap, vtcrEl2 := vtcr }

/-- The registers `eret_to_el1` leaves: its arguments, and zeros over what RITM held. -/
def eretGprs (x0 x1 x2 x3 : U64) : Fin 31 → U64 := fun i =>
  if i = 0 then x0 else if i = 1 then x1 else if i = 2 then x2 else if i = 3 then x3 else 0

abbrev El1Entry := SysRegs × (Fin 31 → U64)

def entryPointEl1 [IdMap M] (env : Env M σ) (sys : SysRegs) (arg0 arg1 arg2 arg3 entryPoint : U64) : El1Entry :=
  let sys := setupStage2 env sys
  -- RW, TSC and VM set, IMO clear
  let hcr := clearBit (setBit (setBit (setBit 0 31) 19) 0) 4
  let cnthctl := setBit (setBit sys.cnthctlEl2 0) 1
  let iccSre := setBit (setBit (setBit (setBit sys.iccSreEl2 0) 1) 2) 3
  let spsr := maskDaif (setField sys.spsrEl2 0 4 spsrEl1h)
  -- EOS, TSCXT, EIS, SPAN, NTLSMD, LSMAOE
  let sctlr := setBit (setBit (setBit (setBit (setBit (setBit 0 11) 20) 22) 23) 28) 29
  ({ sys with
      hcrEl2 := hcr
      cntvoffEl2 := 0
      cnthctlEl2 := cnthctl
      iccSreEl2 := iccSre
      spsrEl2 := spsr
      elrEl2 := entryPoint
      ttbr0El1 := 0
      tcrEl1 := 0
      vbarEl1 := 0
      mairEl1 := 0
      spEl1 := 0
      sctlrEl1 := sctlr },
    eretGprs arg0 arg1 arg2 arg3)

/-! ## Stacks -/

/-- `get_secondary_stack` under its lock: the slot of the core's stack, a new one if it has none; `none` is the panic of
`insert`. -/
def secondaryStackSlot {capacity : Nat} (stackMap : SimpleMap U64 Unit capacity) (mpidr : U64) :
    Option (Nat × SimpleMap U64 Unit capacity) :=
  match stackMap.getMut mpidr with
  | some slot => some (slot, stackMap)
  | none => stackMap.insert mpidr ()

/-! ## PSCI -/

def smcCpuSuspend64 : U32 := 0xC4000001
def smcCpuOn64 : U32 := 0xC4000003

def smcArgs (arg0 arg1 arg2 : U64) : List U64 := arg0 :: arg1 :: arg2 :: List.replicate 14 0

/-- `aarch64_rt::start_core`: the closure goes to the stack, then firmware starts the core at the runtime's entry. -/
def startCore (env : Env M σ) (mpidr : U64) (stack : Nat) (closure : StartClosure) :
    Hyp σ (Except PsciError Unit) := do
  writeStartClosure (env.rt.stackEnd stack) closure
  let x0 ← smc smcCpuOn64 (smcArgs mpidr env.rt.secondaryEntry (env.rt.stackEnd stack))
  return successOrError x0

/-- `aarch64_rt::suspend_core`: firmware is to resume the core at the runtime's entry, with the context for the given
stack. -/
def suspendCore (env : Env M σ) (powerState : U32) (stack : Nat) : Hyp σ (Except PsciError Unit) := do
  let x0 ← smc smcCpuSuspend64 (smcArgs (powerState.setWidth 64) env.rt.resumeEntry (env.rt.suspendContext stack))
  return successOrError x0

def psciCpuOn (env : Env M σ) (fnId mpidr : U64) (entry : EntryPoint) : Hyp σ (Except PsciError Unit) := do
  let stack ← getSecondaryStack mpidr
  startCore env mpidr stack { fnId := fnId, mpidr := mpidr, entry := entry }

def psciCpuSuspend (env : Env M σ) (sys : SysRegs) (powerState : U32) (entry : EntryPoint) :
    Hyp σ (Except PsciError Unit) := do
  let mpidr := sys.mpidrEl1
  let context : SuspendCoreData := { entryPoint := entry.entryPointAddress, contextId := entry.contextId }
  suspendInsert mpidr context
  let stack ← getSecondaryStack mpidr
  let result ← suspendCore env powerState stack
  -- the core is back: the suspend failed or was not a power down
  let _ ← suspendRemove mpidr
  return result

def forwardPsci (fnId arg0 arg1 arg2 : U64) : Hyp σ (Except U32 U64) := do
  let x0 ← smc (fnId.setWidth 32) (smcArgs arg0 arg1 arg2)
  return .ok x0

def handlePsci (env : Env M σ) (sys : SysRegs) (fnId arg0 arg1 arg2 : U64) : Hyp σ (Except U32 U64) :=
  match env.psci.tryFrom fnId arg0 arg1 arg2 with
  | .error e => return .error e
  | .ok f =>
    match f with
    | .version | .cpuOff | .affinityInfo | .migrate | .migrateInfoType | .migrateInfoUpCpu | .systemOff | .systemOff2
    | .systemReset | .systemReset2 | .memProtect | .memProtectCheckRange | .features | .cpuFreeze
    | .cpuDefaultSuspend _ | .nodeHwState | .systemSuspend _ | .setSuspendMode | .statResidency | .statCount =>
      forwardPsci fnId arg0 arg1 arg2
    | .cpuOn targetCpu entry => do
      let result ← psciCpuOn env fnId targetCpu entry
      return .ok (psciResultToU64 result)
    | .cpuSuspend state entry => do
      let result ← psciCpuSuspend env sys state entry
      return .ok (psciResultToU64 result)

def tryHandlePsci (env : Env M σ) (sys : SysRegs) (fnId arg0 arg1 arg2 : U64) :
    Hyp σ (Except ArchError HvcResponse) := do
  match ← handlePsci env sys fnId arg0 arg1 arg2 with
  | .ok value => return .ok (HvcResponse.ofU64 value)
  | .error code => return .error (ArchError.ofI32 code)

def secondaryMain [IdMap M] (env : Env M σ) (sys : SysRegs) (stackEnd : U64) : Hyp σ El1Entry := do
  let closure ← readStartClosure stackEnd
  return entryPointEl1 env sys closure.entry.contextId 0 0 0 closure.entry.entryPointAddress

def restoreFromSuspend [IdMap M] (env : Env M σ) (sys : SysRegs) : Hyp σ El1Entry := do
  match ← suspendRemove sys.mpidrEl1 with
  | none => panic "context not found for resuming CPU"
  | some context => return entryPointEl1 env sys context.contextId 0 0 0 context.entryPoint

/-! ## Data aborts -/

def advanceGuestPc (rs : GuestRegisterState) : Hyp σ GuestRegisterState :=
  match rs.advancePc aarch64InstructionLength with
  | some rs' => return rs'
  | none => panic "attempt to add with overflow"

/-- Emulates the trapped access; the registers are returned on success and on error. -/
def tryMemoryAccessHandler (env : Env M σ) (sys : SysRegs) (rs : GuestRegisterState) :
    Hyp σ (Except Unit Unit × GuestRegisterState) :=
  match decodeMemoryAccess (esrIss sys.esrEl2) sys.hpfarFipa sys.farEl2 rs.readGpr with
  | none => return (.error (), rs)
  | some decoded =>
    match env.config.memoryAccessHandlers.find decoded.ipa with
    | none => return (.error (), rs)
    | some handlerMatch =>
      match decoded.kind with
      | .read =>
        match handlerMatch.region.handler.read with
        | none => return (.error (), rs)
        | some readHandler => do
          match ← callRead readHandler
              { ipa := decoded.ipa, offset := handlerMatch.offset, width := decoded.width } with
          | .value value =>
            match rs.writeGpr decoded.registerIndex
                (extendReadResult value decoded.width decoded.signExtend decoded.registerWidth64) with
            | (false, rs) => return (.error (), rs)
            | (true, rs) =>
              let rs ← advanceGuestPc rs
              return (.ok (), rs)
          | .fault => return (.error (), rs)
      | .write value =>
        match handlerMatch.region.handler.write with
        | none => return (.error (), rs)
        | some writeHandler => do
          match ← callWrite writeHandler
              { ipa := decoded.ipa, offset := handlerMatch.offset, width := decoded.width, value := value } with
          | .handled =>
            let rs ← advanceGuestPc rs
            return (.ok (), rs)
          | .fault => return (.error (), rs)

def afterRead (rs : GuestRegisterState) (decoded : DecodedMemoryAccess) :
    MemoryReadResult → Hyp σ (Except Unit Unit × GuestRegisterState)
  | .value value => do
    let rs ← advanceGuestPc (rs.writeGpr decoded.registerIndex
      (extendReadResult value decoded.width decoded.signExtend decoded.registerWidth64)).2
    return (.ok (), rs)
  | .fault => return (.error (), rs)

def afterWrite (rs : GuestRegisterState) : MemoryWriteResult → Hyp σ (Except Unit Unit × GuestRegisterState)
  | .handled => do
    let rs ← advanceGuestPc rs
    return (.ok (), rs)
  | .fault => return (.error (), rs)

section Dispatch

variable {env : Env M σ} {sys : SysRegs} {rs : GuestRegisterState} {decoded : DecodedMemoryAccess}
  {m : MemoryAccessHandlerMatch σ}

theorem tryMemoryAccessHandler_read {handler : MemoryReadHandler σ}
    (hdec : decodeMemoryAccess (esrIss sys.esrEl2) sys.hpfarFipa sys.farEl2 rs.readGpr = some decoded)
    (hfind : env.config.memoryAccessHandlers.find decoded.ipa = some m) (hk : decoded.kind = .read)
    (hh : m.region.handler.read = some handler) : tryMemoryAccessHandler env sys rs =
      .step (.callRead handler ⟨decoded.ipa, m.offset, decoded.width⟩) (afterRead rs decoded) := by
  unfold tryMemoryAccessHandler
  simp only [hdec, hfind, hk, hh, callRead_bind]
  congr 1
  funext r
  cases r with
  | fault => rfl
  | value value =>
    obtain ⟨rs', hw, -, -⟩ := rs.writeGpr_of_lt ((decodeMemoryAccess_eq_some hdec).2 ▸ (issSrt _).isLt)
      (extendReadResult value decoded.width decoded.signExtend decoded.registerWidth64)
    simp only [hw, afterRead]

theorem tryMemoryAccessHandler_write {handler : MemoryWriteHandler σ} {value : U64}
    (hdec : decodeMemoryAccess (esrIss sys.esrEl2) sys.hpfarFipa sys.farEl2 rs.readGpr = some decoded)
    (hfind : env.config.memoryAccessHandlers.find decoded.ipa = some m) (hk : decoded.kind = .write value)
    (hh : m.region.handler.write = some handler) : tryMemoryAccessHandler env sys rs =
      .step (.callWrite handler ⟨decoded.ipa, m.offset, decoded.width, value⟩) (afterWrite rs) := by
  unfold tryMemoryAccessHandler
  simp only [hdec, hfind, hk, hh, callWrite_bind]
  congr 1

def MemoryAccessHandler.handles (handler : MemoryAccessHandler σ) : DecodedMemoryAccessKind → Bool
  | .read => handler.read.isSome
  | .write _ => handler.write.isSome

/-- **The three ways a data abort is dispatched**: not at all, to a read callback or to a write callback. -/
inductive Dispatch (env : Env M σ) (sys : SysRegs) (rs : GuestRegisterState) : Prop
  | refused (heq : tryMemoryAccessHandler env sys rs = .ret (.error (), rs))
      (hno : ∀ decoded m, decodeMemoryAccess (esrIss sys.esrEl2) sys.hpfarFipa sys.farEl2 rs.readGpr = some decoded →
        env.config.memoryAccessHandlers.find decoded.ipa = some m → m.region.handler.handles decoded.kind = false)
  | read (decoded : DecodedMemoryAccess) (m : MemoryAccessHandlerMatch σ) (handler : MemoryReadHandler σ)
      (hdec : decodeMemoryAccess (esrIss sys.esrEl2) sys.hpfarFipa sys.farEl2 rs.readGpr = some decoded)
      (hfind : env.config.memoryAccessHandlers.find decoded.ipa = some m) (hk : decoded.kind = .read)
      (hh : m.region.handler.read = some handler)
  | write (decoded : DecodedMemoryAccess) (m : MemoryAccessHandlerMatch σ) (handler : MemoryWriteHandler σ) (value : U64)
      (hdec : decodeMemoryAccess (esrIss sys.esrEl2) sys.hpfarFipa sys.farEl2 rs.readGpr = some decoded)
      (hfind : env.config.memoryAccessHandlers.find decoded.ipa = some m) (hk : decoded.kind = .write value)
      (hh : m.region.handler.write = some handler)

theorem dispatch (env : Env M σ) (sys : SysRegs) (rs : GuestRegisterState) : Dispatch env sys rs := by
  cases hdec : decodeMemoryAccess (esrIss sys.esrEl2) sys.hpfarFipa sys.farEl2 rs.readGpr with
  | none =>
    refine .refused ?_ fun decoded m hdec' _ => by cases hdec.symm.trans hdec'
    simp only [tryMemoryAccessHandler, hdec, Prog.pure_eq]
  | some decoded =>
    cases hfind : env.config.memoryAccessHandlers.find decoded.ipa with
    | none =>
      refine .refused ?_ fun decoded' m hdec' hfind' => ?_
      · simp only [tryMemoryAccessHandler, hdec, hfind, Prog.pure_eq]
      · cases hdec.symm.trans hdec'
        cases hfind.symm.trans hfind'
    | some m =>
      have hrefused : m.region.handler.handles decoded.kind = false → ∀ decoded' m',
          decodeMemoryAccess (esrIss sys.esrEl2) sys.hpfarFipa sys.farEl2 rs.readGpr = some decoded' →
          env.config.memoryAccessHandlers.find decoded'.ipa = some m' →
          m'.region.handler.handles decoded'.kind = false := fun hno decoded' m' hdec' hfind' => by
        cases hdec.symm.trans hdec'
        cases hfind.symm.trans hfind'
        exact hno
      cases hk : decoded.kind with
      | read =>
        cases hh : m.region.handler.read with
        | some handler => exact .read decoded m handler hdec hfind hk hh
        | none =>
          refine .refused ?_ (hrefused (by rw [hk, MemoryAccessHandler.handles, hh]; rfl))
          simp only [tryMemoryAccessHandler, hdec, hfind, hk, hh, Prog.pure_eq]
      | write value =>
        cases hh : m.region.handler.write with
        | some handler => exact .write decoded m handler value hdec hfind hk hh
        | none =>
          refine .refused ?_ (hrefused (by rw [hk, MemoryAccessHandler.handles, hh]; rfl))
          simp only [tryMemoryAccessHandler, hdec, hfind, hk, hh, Prog.pure_eq]

end Dispatch

def injectDataAbort (sys : SysRegs) (rs : GuestRegisterState) : Hyp σ (SysRegs × GuestRegisterState) :=
  let vbar := sys.vbarEl1
  if vbar = 0 then panic "Guest VBAR_EL1 is 0, cannot inject data abort."
  else if 2 ^ 64 ≤ vbar.toNat + 0x200 then panic "attempt to add with overflow"
  else
    let handler := vbar + 0x200
    let (elr, spsr) := rs.exceptionReturn
    let guestEsr := if esrEc sys.esrEl2 = ecDataAbortLowerEl then esrSetEc sys.esrEl2 ecDataAbortSameEl else sys.esrEl2
    return ({ sys with elrEl1 := elr, spsrEl1 := spsr, farEl1 := sys.farEl2, esrEl1 := guestEsr },
      rs.setExceptionReturn handler (maskDaif (setField 0 0 4 spsrEl1h)))

theorem injectDataAbort_cases (sys : SysRegs) (rs : GuestRegisterState) :
    (∃ message ∈ ["Guest VBAR_EL1 is 0, cannot inject data abort.", "attempt to add with overflow"],
      injectDataAbort (σ := σ) sys rs = panic message) ∨
    ∃ guestEsr, injectDataAbort (σ := σ) sys rs = .ret
      ({ sys with elrEl1 := rs.volatile.elr, spsrEl1 := rs.volatile.spsr, farEl1 := sys.farEl2, esrEl1 := guestEsr },
        rs.setExceptionReturn (sys.vbarEl1 + 0x200) (maskDaif (setField 0 0 4 spsrEl1h))) := by
  by_cases hvbar : sys.vbarEl1 = 0
  · exact .inl ⟨_, List.mem_cons_self, if_pos hvbar⟩
  by_cases hvector : 2 ^ 64 ≤ sys.vbarEl1.toNat + 0x200
  · exact .inl ⟨_, List.mem_cons_of_mem _ List.mem_cons_self, (if_neg hvbar).trans (if_pos hvector)⟩
  · exact .inr ⟨_, (if_neg hvbar).trans (if_neg hvector)⟩

/-! ## The trap handler -/

structure GuestCall where
  fnId : U64
  arg0 : U64
  arg1 : U64
  arg2 : U64
  deriving DecidableEq, Repr, Inhabited

def GuestCall.ofRegisters (rs : GuestRegisterState) : GuestCall :=
  ⟨rs.volatileGprs[0], rs.volatileGprs[1], rs.volatileGprs[2], rs.volatileGprs[3]⟩

/-- An HVC or a trapped SMC: PSCI is mediated, the rest is the platform's. -/
def handleCall (env : Env M σ) (sys : SysRegs) (rs : GuestRegisterState) : Hyp σ GuestRegisterState := do
  let gprs := rs.volatileGprs
  let functionId := gprs[0]
  let result ←
    if isPsciFunctionId functionId then do
      let r ← tryHandlePsci env sys functionId gprs[1] gprs[2] gprs[3]
      pure (HvcResult.handled r)
    else pure (env.handleHvc functionId (gprs.toList.drop 1 |>.take 17))
  return result.modifyRegisterState rs

def handleSyncLower (env : Env M σ) (sys : SysRegs) (rs : GuestRegisterState) : Hyp σ (SysRegs × GuestRegisterState) :=
  match ExceptionClass.ofU8 (esrEc sys.esrEl2) with
  | .hvcTrappedInAArch64 => do
    let rs ← handleCall env sys rs
    return (sys, rs)
  | .smcTrappedInAArch64 => do
    let rs ← handleCall env sys rs
    -- a trapped SMC returns to itself, an HVC to the next instruction
    let rs ← advanceGuestPc rs
    return (sys, rs)
  | .dataAbortLowerEL => do
    let (result, rs) ← tryMemoryAccessHandler env sys rs
    match result with
    | .ok () => return (sys, rs)
    | .error () => injectDataAbort sys rs
  | .unknown _ => panic "Unexpected sync_lower"

end Ritm
