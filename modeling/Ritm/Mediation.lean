import Ritm.Hypervisor
/-!
# Mediation — what the code at EL2 may call, and when

One protocol describes all of it.  Its phases follow a core through a trap it serves, through a CPU_ON or a CPU_SUSPEND
of its guest, and through the entry to EL1 of a core that was started or resumed; `Phase.Allows` says which calls a phase
admits, with which arguments.  The handler, the started core and the resumed core obey it whatever their calls are
answered (`serveTrap_serves`, `startedCode_serves`, `resumedCode_serves`); what happens on a machine of many cores is derived
from the protocol and never from the code again.
-/
namespace Ritm

open Lib (Prog)
open Lib.Prog (Obeys Protocol obeys_bind obeys_ret obeys_step)

variable {M σ : Type}

/-! ## Guest calls -/

namespace GuestCall

def target (call : GuestCall) : U64 := narrow call.fnId call.arg0

def entry (call : GuestCall) : EntryPoint := entryPointOf call.fnId call.arg1 call.arg2

def closure (call : GuestCall) : StartClosure := { fnId := call.fnId, mpidr := call.target, entry := call.entry }

def context (call : GuestCall) : SuspendCoreData :=
  { entryPoint := call.entry.entryPointAddress, contextId := call.entry.contextId }

structure Forwarded (call : GuestCall) (functionId : U32) (args : List U64) : Prop where
  id_eq : functionId.setWidth 64 = call.fnId
  args_eq : args = smcArgs call.arg0 call.arg1 call.arg2
  not_cpuOn : call.fnId ∉ cpuOnIds
  not_cpuSuspend : call.fnId ∉ cpuSuspendIds

end GuestCall

def SysRegs.isCall (sys : SysRegs) : Bool :=
  match ExceptionClass.ofU8 (esrEc sys.esrEl2) with
  | .hvcTrappedInAArch64 | .smcTrappedInAArch64 => true
  | _ => false

/-- The registers a guest leaves, with those that only EL2 can change as they were. -/
def SysRegs.el2Of (guest sys : SysRegs) : SysRegs :=
  { guest with
    mpidrEl1 := sys.mpidrEl1
    hcrEl2 := sys.hcrEl2
    vtcrEl2 := sys.vtcrEl2
    vttbrEl2 := sys.vttbrEl2
    cntvoffEl2 := sys.cntvoffEl2
    cnthctlEl2 := sys.cnthctlEl2
    iccSreEl2 := sys.iccSreEl2 }

/-! ## Leaving EL2 -/

/-- How code at EL2 ends: by the exception return to the trapped guest, or by `eret_to_el1`. -/
inductive Exit where
  | resume (sys : SysRegs) (rs : GuestRegisterState)
  | enter (sys : SysRegs) (gprs : Fin 31 → U64)

/-- The system registers at the `eret`; the exception return restores the two of the saved frame. -/
def Exit.sysRegs : Exit → SysRegs
  | resume sys rs => { sys with elrEl2 := rs.volatile.elr, spsrEl2 := rs.volatile.spsr }
  | enter sys _ => sys

def LowerEl (spsr : U64) : Prop := spsr.getLsbD 3 = false

instance (spsr : U64) : Decidable (LowerEl spsr) := inferInstanceAs (Decidable (_ = _))

theorem lowerEl_el1h (spsr : U64) : LowerEl (maskDaif (setField spsr 0 4 spsrEl1h)) := by
  simp [LowerEl, maskDaif, setBit, setField, spsrEl1h]

/-- **The registers guest code runs under**: stage-2 translation on, with the configured tables, and an `eret` below
EL2. -/
structure GuestReady [IdMap M] (env : Env M σ) (mpidr : U64) (sys : SysRegs) : Prop where
  mpidr : sys.mpidrEl1 = mpidr
  vm : sys.hcrEl2.getLsbD 0 = true
  tables : sys.vttbrEl2 = IdMap.rootAddress env.config.idmap
  lower : LowerEl sys.spsrEl2

/-- The registers are those `entry_point_el1` leaves on the core, called with the entry point and its argument. -/
def EntersThrough [IdMap M] (env : Env M σ) (mpidr entryPoint contextId : U64) (sys : SysRegs) (gprs : Fin 31 → U64) :
    Prop :=
  ∃ sys₀ x1 x2 x3, sys₀.mpidrEl1 = mpidr ∧ (sys, gprs) = entryPointEl1 env sys₀ contextId x1 x2 x3 entryPoint

/-! ## The protocol -/

inductive Phase where
  | trapped
  -- A CPU_ON whose target's stack is in `slot`, before and after the closure is written.
  | onStack (slot : Nat)
  | onWritten (slot : Nat)
  -- A CPU_SUSPEND, after the insertion, with the core's stack in `slot`, and back from firmware.
  | suspendInserted
  | suspendStack (slot : Nat)
  | suspendReturned
  | finished
  | started (stackEnd : U64)
  -- A resumed core, before it takes its context, and one that found none.
  | restoring
  | lost
  | entering (entryPoint contextId : U64)
  deriving DecidableEq, Repr

/-- The panics of a trap: checked arithmetic, a guest without vectors, an exception that is none of the three. -/
def trapPanics : List String :=
  ["attempt to add with overflow", "Guest VBAR_EL1 is 0, cannot inject data abort.", "Unexpected sync_lower"]

def contextNotFound : String := "context not found for resuming CPU"

namespace Phase

/-- The calls a phase admits, on the core with the given MPIDR, for the given guest call. -/
def Allows (env : Env M σ) (mpidr : U64) (call : GuestCall) : Phase → Eff σ → Prop
  | trapped, .callRead .. => True
  | trapped, .callWrite .. => True
  | trapped, .getSecondaryStack key => call.fnId ∈ cpuOnIds ∧ key = call.target ∧ affinityOf key = key
  | trapped, .suspendInsert key context => call.fnId ∈ cpuSuspendIds ∧ key = mpidr ∧ context = call.context
  | trapped, .smc functionId args => call.Forwarded functionId args
  | trapped, .panic message => message ∈ trapPanics
  | onStack slot, .writeStartClosure stackEnd closure => stackEnd = env.rt.stackEnd slot ∧ closure = call.closure
  | onWritten slot, .smc functionId args =>
    functionId = smcCpuOn64 ∧ args = smcArgs call.target env.rt.secondaryEntry (env.rt.stackEnd slot)
  | suspendInserted, .getSecondaryStack key => call.fnId ∈ cpuSuspendIds ∧ key = mpidr
  | suspendStack slot, .smc functionId args =>
    functionId = smcCpuSuspend64 ∧ ∃ state, args = smcArgs state env.rt.resumeEntry (env.rt.suspendContext slot)
  | suspendReturned, .suspendRemove key => key = mpidr
  | finished, .panic message => message ∈ trapPanics
  | started stackEnd, .readStartClosure stackEnd' => stackEnd' = stackEnd
  | restoring, .suspendRemove key => key = mpidr
  | lost, .panic message => message = contextNotFound
  | _, _ => False

def next : Phase → (e : Eff σ) → e.Resp → Phase
  | trapped, .getSecondaryStack _, slot => onStack slot
  | trapped, .suspendInsert .., _ => suspendInserted
  | onStack slot, .writeStartClosure .., _ => onWritten slot
  | suspendInserted, .getSecondaryStack _, slot => suspendStack slot
  | suspendStack _, .smc .., _ => suspendReturned
  | started _, .readStartClosure _, closure => entering closure.entry.entryPointAddress closure.entry.contextId
  | restoring, .suspendRemove _, some context => entering context.entryPoint context.contextId
  | restoring, .suspendRemove _, none => lost
  | _, _, _ => finished

def Leaves [IdMap M] (env : Env M σ) (mpidr : U64) : Phase → Exit → Prop
  | trapped, .resume sys rs => GuestReady env mpidr (Exit.resume sys rs).sysRegs
  | finished, .resume sys rs => GuestReady env mpidr (Exit.resume sys rs).sysRegs
  | entering entryPoint contextId, .enter sys gprs => EntersThrough env mpidr entryPoint contextId sys gprs
  | _, _ => False

def Idle (phase : Phase) : Prop := phase = trapped ∨ phase = finished

end Phase

def protocol (env : Env M σ) (mpidr : U64) (call : GuestCall) : Protocol (Eff σ) Eff.Resp Phase where
  allow := Phase.Allows env mpidr call
  next := Phase.next

/-- **The code keeps to the protocol** from the given phase on. -/
def Serves [IdMap M] (env : Env M σ) (mpidr : U64) (call : GuestCall) (phase : Phase) (p : Hyp σ Exit) : Prop :=
  Obeys (protocol env mpidr call) (Phase.Leaves env mpidr) phase p

/-! ## Which phase makes which call -/

namespace Phase.Allows

variable {env : Env M σ} {mpidr : U64} {call : GuestCall} {phase : Phase} {key stackEnd : U64}

theorem getSecondaryStack (h : phase.Allows env mpidr call (.getSecondaryStack key)) :
    (phase = .trapped ∧ call.fnId ∈ cpuOnIds ∧ key = call.target ∧ affinityOf key = key) ∨
      (phase = .suspendInserted ∧ call.fnId ∈ cpuSuspendIds ∧ key = mpidr) := by
  cases phase with
  | trapped => exact .inl ⟨rfl, h⟩
  | suspendInserted => exact .inr ⟨rfl, h⟩
  | _ => cases h

theorem writeStartClosure {closure : StartClosure} (h : phase.Allows env mpidr call (.writeStartClosure stackEnd closure)) :
    ∃ slot, phase = .onStack slot ∧ stackEnd = env.rt.stackEnd slot ∧ closure = call.closure := by
  cases phase with
  | onStack slot => exact ⟨slot, rfl, h⟩
  | _ => cases h

theorem readStartClosure (h : phase.Allows env mpidr call (.readStartClosure stackEnd)) : phase = .started stackEnd := by
  cases phase with
  | started => exact congrArg Phase.started (Eq.symm h)
  | _ => cases h

theorem suspendInsert {context : SuspendCoreData} (h : phase.Allows env mpidr call (.suspendInsert key context)) :
    phase = .trapped ∧ call.fnId ∈ cpuSuspendIds ∧ key = mpidr ∧ context = call.context := by
  cases phase with
  | trapped => exact ⟨rfl, h⟩
  | _ => cases h

theorem suspendRemove (h : phase.Allows env mpidr call (.suspendRemove key)) :
    (phase = .suspendReturned ∨ phase = .restoring) ∧ key = mpidr := by
  cases phase with
  | suspendReturned => exact ⟨.inl rfl, h⟩
  | restoring => exact ⟨.inr rfl, h⟩
  | _ => cases h

theorem smc {functionId : U32} {args : List U64} (h : phase.Allows env mpidr call (.smc functionId args)) :
    (phase = .trapped ∧ call.Forwarded functionId args) ∨
    (∃ slot, phase = .onWritten slot ∧ functionId = smcCpuOn64 ∧
      args = smcArgs call.target env.rt.secondaryEntry (env.rt.stackEnd slot)) ∨
    (∃ slot, phase = .suspendStack slot ∧ functionId = smcCpuSuspend64 ∧
      ∃ state, args = smcArgs state env.rt.resumeEntry (env.rt.suspendContext slot)) := by
  cases phase with
  | trapped => exact .inl ⟨rfl, h⟩
  | onWritten slot => exact .inr (.inl ⟨slot, rfl, h⟩)
  | suspendStack slot => exact .inr (.inr ⟨slot, rfl, h⟩)
  | _ => cases h

theorem panic {message : String} (h : phase.Allows env mpidr call (.panic message)) :
    message ∈ trapPanics ∨ (phase = .lost ∧ message = contextNotFound) := by
  cases phase with
  | trapped | finished => exact .inl h
  | lost => exact .inr ⟨rfl, h⟩
  | _ => cases h

end Phase.Allows

def serveTrap (env : Env M σ) (sys : SysRegs) (rs : GuestRegisterState) : Hyp σ Exit := do
  let (sys, rs) ← handleSyncLower env sys rs
  return .resume sys rs

def startedCode [IdMap M] (env : Env M σ) (sys : SysRegs) (stackEnd : U64) : Hyp σ Exit := do
  let (sys, gprs) ← secondaryMain env sys stackEnd
  return .enter sys gprs

def resumedCode [IdMap M] (env : Env M σ) (sys : SysRegs) : Hyp σ Exit := do
  let (sys, gprs) ← restoreFromSuspend env sys
  return .enter sys gprs

/-! ## PSCI -/

section Code

variable {env : Env M σ} {mpidr : U64} {call : GuestCall}

theorem forwardPsci_obeys {functionId : U32} (hid : functionId = call.fnId.setWidth 32)
    (h : call.Forwarded functionId (smcArgs call.arg0 call.arg1 call.arg2)) :
    Obeys (protocol env mpidr call) (fun phase _ => phase.Idle) .trapped
      (forwardPsci call.fnId call.arg0 call.arg1 call.arg2) := by
  subst hid
  exact ⟨h, fun _ => .inr rfl⟩

theorem psciCpuOn_obeys (hid : call.fnId ∈ cpuOnIds) (haff : affinityOf call.target = call.target) :
    Obeys (protocol env mpidr call) (fun phase _ => phase.Idle) .trapped
      (psciCpuOn env call.fnId call.target call.entry) :=
  ⟨⟨hid, rfl, haff⟩, fun _ => ⟨⟨rfl, rfl⟩, fun _ => ⟨⟨rfl, rfl⟩, fun _ => .inr rfl⟩⟩⟩

theorem psciCpuSuspend_obeys {sys : SysRegs} (hm : sys.mpidrEl1 = mpidr) (hid : call.fnId ∈ cpuSuspendIds)
    (powerState : U32) :
    Obeys (protocol env mpidr call) (fun phase _ => phase.Idle) .trapped
      (psciCpuSuspend env sys powerState call.entry) :=
  ⟨⟨hid, hm, rfl⟩, fun _ => ⟨⟨hid, hm⟩, fun _ => ⟨⟨rfl, _, rfl⟩, fun _ => ⟨hm, fun _ => .inr rfl⟩⟩⟩⟩

theorem forwarded_of_decodes {f : PsciFunction} (h : call.fnId ∈ f.functionIds)
    (hon : ∀ t e, f ≠ .cpuOn t e) (hsuspend : ∀ s e, f ≠ .cpuSuspend s e) :
    call.Forwarded (call.fnId.setWidth 32) (smcArgs call.arg0 call.arg1 call.arg2) := by
  have hids : ∀ id ∈ f.functionIds, (id.setWidth 32).setWidth 64 = id ∧ id ∉ cpuOnIds ∧ id ∉ cpuSuspendIds := by
    cases f with
    | cpuOn t e => exact absurd rfl (hon t e)
    | cpuSuspend s e => exact absurd rfl (hsuspend s e)
    | _ => simp [PsciFunction.functionIds, cpuOnIds, cpuSuspendIds]
  obtain ⟨hw, hnon, hnsus⟩ := hids _ h
  exact ⟨hw, rfl, hnon, hnsus⟩

theorem handlePsci_obeys {sys : SysRegs} (hm : sys.mpidrEl1 = mpidr) (hpsci : isPsciFunctionId call.fnId = true) :
    Obeys (protocol env mpidr call) (fun phase _ => phase.Idle) .trapped
      (handlePsci env sys call.fnId call.arg0 call.arg1 call.arg2) := by
  unfold handlePsci
  split
  · exact .inl rfl
  · rename_i f hf
    have hdec := env.psci.tryFrom_ok hpsci hf
    split
    case h_21 targetCpu entry =>
      obtain ⟨hid, rfl, haff, rfl⟩ := hdec
      rw [obeys_bind]
      exact psciCpuOn_obeys hid haff
    case h_22 state entry =>
      obtain ⟨hid, rfl, rfl⟩ := hdec
      rw [obeys_bind]
      exact psciCpuSuspend_obeys hm hid _
    all_goals exact forwardPsci_obeys rfl (forwarded_of_decodes hdec.1 (fun _ _ => nofun) (fun _ _ => nofun))

theorem tryHandlePsci_obeys {sys : SysRegs} (hm : sys.mpidrEl1 = mpidr) (hpsci : isPsciFunctionId call.fnId = true) :
    Obeys (protocol env mpidr call) (fun phase _ => phase.Idle) .trapped
      (tryHandlePsci env sys call.fnId call.arg0 call.arg1 call.arg2) := by
  rw [tryHandlePsci, obeys_bind]
  refine Obeys.mono (fun phase r h => ?_) _ _ (handlePsci_obeys hm hpsci)
  cases r <;> exact h

/-! ## Traps -/

theorem handleCall_obeys {sys : SysRegs} (hm : sys.mpidrEl1 = mpidr) {rs : GuestRegisterState}
    (hcall : call = .ofRegisters rs) :
    Obeys (protocol env mpidr call) (fun phase rs' => phase.Idle ∧ rs'.volatile.spsr = rs.volatile.spsr) .trapped
      (handleCall env sys rs) := by
  subst hcall
  rw [handleCall]
  split
  · rename_i hpsci
    rw [obeys_bind]
    refine Obeys.mono (fun phase r h => ?_) _ _ (tryHandlePsci_obeys hm hpsci)
    exact ⟨h, congrArg Prod.snd (HvcResult.modifyRegisterState_exceptionReturn _ rs)⟩
  · exact ⟨.inl rfl, congrArg Prod.snd (HvcResult.modifyRegisterState_exceptionReturn _ rs)⟩

theorem panic_obeys {α : Type} {phase : Phase} (h : phase.Idle) {message : String} (hmsg : message ∈ trapPanics)
    (Q : Phase → α → Prop) : Obeys (protocol env mpidr call) Q phase (panic message) := by
  rcases h with rfl | rfl <;> exact ⟨hmsg, nofun⟩

theorem advanceGuestPc_obeys {phase : Phase} (h : phase.Idle) (rs : GuestRegisterState) :
    Obeys (protocol env mpidr call) (fun phase rs' => phase.Idle ∧ rs'.volatile.spsr = rs.volatile.spsr) phase
      (advanceGuestPc rs) := by
  unfold advanceGuestPc
  split
  · rename_i rs' hrs
    exact ⟨h, GuestRegisterState.advancePc_spsr hrs⟩
  · exact panic_obeys h (by simp [trapPanics]) _

theorem tryMemoryAccessHandler_obeys (sys : SysRegs) (rs : GuestRegisterState) :
    Obeys (protocol env mpidr call) (fun phase r => phase.Idle ∧ r.2.volatile.spsr = rs.volatile.spsr) .trapped
      (tryMemoryAccessHandler env sys rs) := by
  cases dispatch env sys rs with
  | refused heq =>
    rw [heq]
    exact ⟨.inl rfl, rfl⟩
  | read decoded m handler hdec hfind hk hh =>
    rw [tryMemoryAccessHandler_read hdec hfind hk hh]
    refine ⟨trivial, fun r => ?_⟩
    cases r with
    | fault => exact ⟨.inr rfl, rfl⟩
    | value v =>
      rw [afterRead, obeys_bind]
      exact Obeys.mono (fun _ _ h => ⟨h.1, h.2.trans (GuestRegisterState.writeGpr_spsr rfl)⟩) _ _
        (advanceGuestPc_obeys (.inr rfl) _)
  | write decoded m handler value hdec hfind hk hh =>
    rw [tryMemoryAccessHandler_write hdec hfind hk hh]
    refine ⟨trivial, fun r => ?_⟩
    cases r with
    | fault => exact ⟨.inr rfl, rfl⟩
    | handled =>
      rw [afterWrite, obeys_bind]
      exact advanceGuestPc_obeys (.inr rfl) rs

theorem injectDataAbort_obeys {phase : Phase} (h : phase.Idle) (sys : SysRegs) (rs : GuestRegisterState) :
    Obeys (protocol env mpidr call)
      (fun phase r => phase.Idle ∧ r.1 = r.1.el2Of sys ∧ LowerEl r.2.volatile.spsr) phase
      (injectDataAbort sys rs) := by
  rcases injectDataAbort_cases (σ := σ) sys rs with ⟨message, hmessage, heq⟩ | ⟨guestEsr, heq⟩
  · rw [heq]
    refine panic_obeys h ?_ _
    have hpanics : ∀ message ∈ ["Guest VBAR_EL1 is 0, cannot inject data abort.", "attempt to add with overflow"],
        message ∈ trapPanics := by decide
    exact hpanics message hmessage
  · rw [heq]
    exact ⟨h, rfl, lowerEl_el1h 0⟩

variable [IdMap M]

theorem GuestReady.resume {sys sys' : SysRegs} {rs rs' : GuestRegisterState}
    (h : GuestReady env mpidr (Exit.resume sys rs).sysRegs) (hsys : sys' = sys'.el2Of sys)
    (hrs : LowerEl rs'.volatile.spsr) : GuestReady env mpidr (Exit.resume sys' rs').sysRegs where
  mpidr := (congrArg SysRegs.mpidrEl1 hsys).trans h.mpidr
  vm := (congrArg (fun s => s.hcrEl2.getLsbD 0) hsys).trans h.vm
  tables := (congrArg SysRegs.vttbrEl2 hsys).trans h.tables
  lower := hrs

/-- **A trap is served by the protocol**, and ends in a return to the guest it came from. -/
theorem handleSyncLower_obeys {sys : SysRegs} {rs : GuestRegisterState}
    (h : GuestReady env mpidr (Exit.resume sys rs).sysRegs) (hcall : sys.isCall = true → call = .ofRegisters rs) :
    Obeys (protocol env mpidr call)
      (fun phase r => phase.Idle ∧ GuestReady env mpidr (Exit.resume r.1 r.2).sysRegs) .trapped
      (handleSyncLower env sys rs) := by
  unfold handleSyncLower
  unfold SysRegs.isCall at hcall
  split
  · rename_i hec
    rw [hec] at hcall
    rw [obeys_bind]
    refine Obeys.mono (fun phase rs' hrs => ?_) _ _ (handleCall_obeys h.mpidr (hcall rfl))
    exact ⟨hrs.1, h.resume rfl (hrs.2 ▸ h.lower)⟩
  · rename_i hec
    rw [hec] at hcall
    rw [obeys_bind]
    refine Obeys.mono (fun phase rs' hrs => ?_) _ _ (handleCall_obeys h.mpidr (hcall rfl))
    rw [obeys_bind]
    refine Obeys.mono (fun phase rs'' hrs' => ?_) _ _ (advanceGuestPc_obeys hrs.1 rs')
    exact ⟨hrs'.1, h.resume rfl (hrs'.2.trans hrs.2 ▸ h.lower)⟩
  · rw [obeys_bind]
    refine Obeys.mono (fun phase r hr => ?_) _ _ (tryMemoryAccessHandler_obeys sys rs)
    obtain ⟨result, rs'⟩ := r
    cases result with
    | ok => exact ⟨hr.1, h.resume rfl (hr.2 ▸ h.lower)⟩
    | error =>
      refine Obeys.mono (fun phase r hr' => ?_) _ _ (injectDataAbort_obeys hr.1 sys rs')
      exact ⟨hr'.1, h.resume hr'.2.1 hr'.2.2⟩
  · exact panic_obeys (.inl rfl) (by simp [trapPanics]) _

theorem serveTrap_serves {sys : SysRegs} {rs : GuestRegisterState}
    (h : GuestReady env mpidr (Exit.resume sys rs).sysRegs) (hcall : sys.isCall = true → call = .ofRegisters rs) :
    Serves env mpidr call .trapped (serveTrap env sys rs) := by
  rw [Serves, serveTrap, obeys_bind]
  refine Obeys.mono (fun phase r hr => ?_) _ _ (handleSyncLower_obeys h hcall)
  rcases hr.1 with rfl | rfl <;> exact hr.2

/-! ## Entering EL1 -/

theorem EntersThrough.ready {entryPoint contextId : U64} {sys : SysRegs} {gprs : Fin 31 → U64}
    (h : EntersThrough env mpidr entryPoint contextId sys gprs) : GuestReady env mpidr sys := by
  obtain ⟨sys₀, x1, x2, x3, hm, heq⟩ := h
  cases heq
  exact ⟨hm, by simp [clearBit, setBit], rfl, lowerEl_el1h sys₀.spsrEl2⟩

theorem EntersThrough.entry {entryPoint contextId : U64} {sys : SysRegs} {gprs : Fin 31 → U64}
    (h : EntersThrough env mpidr entryPoint contextId sys gprs) : sys.elrEl2 = entryPoint ∧ gprs 0 = contextId := by
  obtain ⟨sys₀, x1, x2, x3, -, heq⟩ := h
  cases heq
  exact ⟨rfl, rfl⟩

theorem Phase.Leaves.ready {phase : Phase} {exit : Exit} (h : phase.Leaves env mpidr exit) :
    GuestReady env mpidr exit.sysRegs := by
  unfold Phase.Leaves at h
  split at h
  · exact h
  · exact h
  · exact h.ready
  · cases h

theorem Phase.Leaves.entering {phase : Phase} {sys : SysRegs} {gprs : Fin 31 → U64}
    (h : phase.Leaves env mpidr (.enter sys gprs)) :
    ∃ entryPoint contextId, phase = .entering entryPoint contextId ∧
      EntersThrough env mpidr entryPoint contextId sys gprs := by
  cases phase with
  | entering entryPoint contextId => exact ⟨entryPoint, contextId, rfl, h⟩
  | _ => cases h

theorem Serves.entering {entryPoint contextId : U64} {code : Hyp σ Exit}
    (h : Serves env mpidr call (.entering entryPoint contextId) code) :
    ∃ sys gprs, code = .ret (.enter sys gprs) ∧ EntersThrough env mpidr entryPoint contextId sys gprs := by
  match code with
  | .ret (.enter sys gprs) => exact ⟨sys, gprs, rfl, h⟩
  | .ret (.resume sys rs) => cases h
  | .step e k => exact absurd h.1 (by cases e <;> exact id)

theorem Serves.started {stackEnd : U64} {code : Hyp σ Exit} (h : Serves env mpidr call (.started stackEnd) code) :
    ∃ k, code = .step (.readStartClosure stackEnd) k ∧ ∀ closure : StartClosure, ∃ sys gprs,
      k closure = .ret (.enter sys gprs) ∧
        EntersThrough env mpidr closure.entry.entryPointAddress closure.entry.contextId sys gprs := by
  match code with
  | .ret exit => cases h
  | .step e k =>
    cases e with
    | readStartClosure stackEnd' =>
      obtain ⟨rfl, hk⟩ := h
      exact ⟨k, rfl, fun closure => Serves.entering (hk closure)⟩
    | _ => cases h.1

theorem Serves.restoring {code : Hyp σ Exit} (h : Serves env mpidr call .restoring code) :
    ∃ k, code = .step (.suspendRemove mpidr) k ∧ ∀ context : SuspendCoreData, ∃ sys gprs,
      k (some context) = .ret (.enter sys gprs) ∧
        EntersThrough env mpidr context.entryPoint context.contextId sys gprs := by
  match code with
  | .ret exit => cases h
  | .step e k =>
    cases e with
    | suspendRemove key =>
      obtain ⟨rfl, hk⟩ := h
      exact ⟨k, rfl, fun context => Serves.entering (hk (some context))⟩
    | _ => cases h.1

theorem startedCode_serves {sys : SysRegs} (hm : sys.mpidrEl1 = mpidr) (stackEnd : U64) :
    Serves env mpidr call (.started stackEnd) (startedCode env sys stackEnd) :=
  ⟨rfl, fun _ => ⟨sys, 0, 0, 0, hm, rfl⟩⟩

theorem resumedCode_serves {sys : SysRegs} (hm : sys.mpidrEl1 = mpidr) :
    Serves env mpidr call .restoring (resumedCode env sys) := by
  refine ⟨hm, fun r => ?_⟩
  cases r with
  | none => exact ⟨rfl, nofun⟩
  | some context => exact ⟨sys, 0, 0, 0, hm, rfl⟩

end Code

end Ritm
