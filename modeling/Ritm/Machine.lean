import Ritm.Lib.Reach
import Ritm.Mediation
/-!
# Machine — the cores, what they share, and firmware

A machine of `n` cores.  A core is off, runs its guest, runs code at EL2, or is with firmware; code at EL2 makes its
calls one at a time, and between two calls of one core any other core may take a step.  Firmware answers the SMCs: it
refuses or returns, starts a core that is off, powers a core down and later resumes it.  It enters EL2 at the address the
SMC carried, whatever that is; at an address that is none of the runtime's own the core is lost to whoever supplied it
(`Mode.rogue`).

`Machine.step` is one step, named by a `Choice`; `Step` lists what a step can be.  A machine also carries its history
(`Core.phase`, `call`, `start` and `inFlight`, `Machine.lookups` and `writer`), which no step reads.
-/
namespace Ritm

open Lib (Prog run Meets)

variable {M σ : Type} {n maxCores : Nat}

/-- The MPIDRs of the cores: bit 31 is RES1, and no two cores have the same affinity. -/
structure Topology (n : Nat) where
  mpidr : Fin n → U64
  res1 : ∀ i, (mpidr i).getLsbD 31 = true
  affinity_injective : ∀ i j, affinityOf (mpidr i) = affinityOf (mpidr j) → i = j

theorem Topology.mpidr_injective (topo : Topology n) {i j : Fin n} (h : topo.mpidr i = topo.mpidr j) : i = j :=
  topo.affinity_injective i j (congrArg affinityOf h)

/-! ## State -/

structure Shared (σ : Type) (maxCores : Nat) where
  -- `SECONDARY_STACKS` and `SUSPEND_CONTEXTS`.
  stackMap : SimpleMap U64 Unit maxCores
  contexts : SimpleMap U64 SuspendCoreData maxCores
  closures : U64 → StartClosure
  device : σ

inductive Mode (σ : Type) where
  | off
  | guest
  | el2 (code : Hyp σ Exit)
  -- Firmware is to enter EL2 at `entry`, now or when the core wakes.
  | entering (entry contextId : U64)
  | poweredDown (entry contextId : U64)
  -- At EL2, at an address that is not RITM's.
  | rogue (entry : U64)
  | panicked (message : String)

/-- Why firmware last entered EL2 on a core: it booted, a call started it, or it is back from a call of its own. -/
inductive Start where
  | boot
  | on (call : GuestCall)
  | resume (call : GuestCall)
  deriving DecidableEq, Repr

def Start.isOn : Start → Bool
  | .on _ => true
  | _ => false

theorem Start.isOn_of_eq {start : Start} {call : GuestCall} (h : start = .on call) : start.isOn = true := by
  rw [h, isOn]

structure Core (σ : Type) where
  sys : SysRegs
  mode : Mode σ
  -- History: where its code is in the protocol, the guest's latest call, and why the core is running.
  phase : Phase
  call : GuestCall
  start : Start
  -- History: what the core has inserted in `SUSPEND_CONTEXTS` and not yet removed.
  inFlight : Option SuspendCoreData

/-- A call of `get_secondary_stack`: the core that made it and the guest call it was made for, the key, and the slot it
gave, `none` for the panic. -/
structure StackLookup (n : Nat) where
  caller : Fin n
  call : GuestCall
  key : U64
  slot : Option Nat
  deriving DecidableEq, Repr

structure Machine (σ : Type) (maxCores n : Nat) where
  cores : Fin n → Core σ
  shared : Shared σ maxCores
  -- History: the calls of `get_secondary_stack`.
  lookups : List (StackLookup n)
  -- History: the core that last wrote the closure of a stack.
  writer : U64 → Option (Fin n)

/-! ## Calls -/

def capacityExceeded : String := "maximum capacity exceeded"

/-- One call: its answer or its panic; an SMC waits for firmware.  A callback is made in one step, as those of QEMU are,
whose only state is an atomic counter. -/
def Shared.perform (s : Shared σ maxCores) : (e : Eff σ) → Option (Except String (e.Resp × Shared σ maxCores))
  | .callRead handler access => some (.ok ((handler access s.device).1, { s with device := (handler access s.device).2 }))
  | .callWrite handler access =>
    some (.ok ((handler access s.device).1, { s with device := (handler access s.device).2 }))
  | .getSecondaryStack mpidr =>
    match secondaryStackSlot s.stackMap mpidr with
    | some (slot, stackMap) => some (.ok (slot, { s with stackMap := stackMap }))
    | none => some (.error capacityExceeded)
  | .writeStartClosure stackEnd closure =>
    some (.ok ((), { s with closures := Function.update s.closures stackEnd closure }))
  | .readStartClosure stackEnd => some (.ok (s.closures stackEnd, s))
  | .suspendInsert mpidr context =>
    match s.contexts.insert mpidr context with
    | some (_, contexts) => some (.ok ((), { s with contexts := contexts }))
    | none => some (.error capacityExceeded)
  | .suspendRemove mpidr => some (.ok ((s.contexts.remove mpidr).1, { s with contexts := (s.contexts.remove mpidr).2 }))
  | .smc .. => none
  | .panic message => some (.error message)

namespace Eff

def lookup (i : Fin n) (call : GuestCall) : (e : Eff σ) → Option e.Resp → List (StackLookup n)
  | getSecondaryStack mpidr, slot => [⟨i, call, mpidr, slot⟩]
  | _, _ => []

def writerAfter (writer : U64 → Option (Fin n)) (i : Fin n) : Eff σ → U64 → Option (Fin n)
  | writeStartClosure stackEnd _ => Function.update writer stackEnd (some i)
  | _ => writer

def inFlightAfter (inFlight : Option SuspendCoreData) : Eff σ → Option SuspendCoreData
  | suspendInsert _ context => some context
  | suspendRemove _ => none
  | _ => inFlight

end Eff

/-! ## Steps -/

/-- The entry address and context an SMC asks firmware to resume or start a core with. -/
def carriedEntry (functionId : U32) (args : List U64) : Option (U64 × U64) :=
  let id := functionId.setWidth 64
  if id ∈ cpuOnIds ∨ id ∈ cpuSuspendIds then some (narrow id (args.getD 1 0), narrow id (args.getD 2 0))
  else if id ∈ defaultSuspendIds then some (narrow id (args.getD 0 0), narrow id (args.getD 1 0))
  else none

def isCpuOn (functionId : U32) : Bool := decide (functionId.setWidth 64 ∈ cpuOnIds)

def smcCpuOff : U32 := 0x84000002

inductive Choice (n : Nat) where
  -- The guest of core `i` has run, left the given registers and trapped.
  | trap (i : Fin n) (guest : SysRegs) (rs : GuestRegisterState)
  -- Core `i`'s code at EL2 makes its next call, or leaves EL2.
  | run (i : Fin n)
  -- Firmware answers core `i`'s SMC: it returns, starts core `j`, powers `i` down, or turns `i` off.
  | smcReturn (i : Fin n) (x0 : U64)
  | smcCpuOn (i j : Fin n)
  | smcPowerDown (i : Fin n)
  | smcOff (i : Fin n)
  -- Core `i` wakes; firmware enters EL2 on it, with registers of its own.
  | wake (i : Fin n)
  | enterEl2 (i : Fin n) (sys : SysRegs)

namespace Core

def takeTrap (env : Env M σ) (core : Core σ) (guest : SysRegs) (rs : GuestRegisterState) : Core σ :=
  let sys := guest.el2Of core.sys
  { core with
    sys := sys
    mode := .el2 (serveTrap env sys rs)
    phase := .trapped
    call := if sys.isCall then .ofRegisters rs else core.call }

def answer (core : Core σ) (e : Eff σ) (k : e.Resp → Hyp σ Exit) (r : e.Resp) : Core σ :=
  { core with
    mode := .el2 (k r)
    phase := core.phase.next e r
    inFlight := e.inFlightAfter core.inFlight }

def enterEl2 [IdMap M] (env : Env M σ) (mpidr : U64) (core : Core σ) (sys : SysRegs) (entry contextId : U64) : Core σ :=
  let sys := { sys with mpidrEl1 := mpidr }
  if entry = env.rt.secondaryEntry then
    { core with sys := sys, mode := .el2 (startedCode env sys contextId), phase := .started contextId }
  else if entry = env.rt.resumeEntry then
    { core with sys := sys, mode := .el2 (resumedCode env sys), phase := .restoring }
  else { core with sys := sys, mode := .rogue entry }

theorem enterEl2_history [IdMap M] (env : Env M σ) (mpidr : U64) (core : Core σ) (sys : SysRegs)
    (entry contextId : U64) :
    (core.enterEl2 env mpidr sys entry contextId).call = core.call ∧
      (core.enterEl2 env mpidr sys entry contextId).start = core.start ∧
      (core.enterEl2 env mpidr sys entry contextId).inFlight = core.inFlight := by
  unfold enterEl2
  dsimp only
  split
  · exact ⟨rfl, rfl, rfl⟩
  split <;> exact ⟨rfl, rfl, rfl⟩

end Core

namespace Machine

def setCore (m : Machine σ maxCores n) (i : Fin n) (core : Core σ) : Machine σ maxCores n :=
  { m with cores := Function.update m.cores i core }

@[simp] theorem setCore_cores (m : Machine σ maxCores n) (i : Fin n) (core : Core σ) :
    (m.setCore i core).cores = Function.update m.cores i core := rfl

theorem forall_setCore {m : Machine σ maxCores n} {P : Fin n → Core σ → Prop} {i : Fin n} {core : Core σ}
    (h : ∀ j, P j (m.cores j)) (hi : P i core) (j : Fin n) : P j ((m.setCore i core).cores j) := by
  rw [setCore_cores]
  by_cases hj : j = i
  · subst hj
    rw [Function.update_self]
    exact hi
  · rw [Function.update_of_ne hj]
    exact h j

def step [IdMap M] (env : Env M σ) (topo : Topology n) (m : Machine σ env.maxCores n) :
    Choice n → Option (Machine σ env.maxCores n)
  | .trap i guest rs =>
    match (m.cores i).mode with
    | .guest => if LowerEl rs.volatile.spsr then some (m.setCore i ((m.cores i).takeTrap env guest rs)) else none
    | _ => none
  | .run i =>
    match (m.cores i).mode with
    | .el2 (.ret exit) => some (m.setCore i { m.cores i with sys := exit.sysRegs, mode := .guest })
    | .el2 (.step e k) =>
      match m.shared.perform e with
      | some (.ok (r, shared)) => some { m.setCore i ((m.cores i).answer e k r) with
          shared := shared, lookups := m.lookups ++ e.lookup i (m.cores i).call (some r), writer := e.writerAfter m.writer i }
      | some (.error message) => some { m.setCore i { m.cores i with mode := .panicked message } with
          lookups := m.lookups ++ e.lookup i (m.cores i).call none }
      | none => none
    | _ => none
  | .smcReturn i x0 =>
    match (m.cores i).mode with
    | .el2 (.step (.smc functionId args) k) =>
      -- a CPU_ON that returns success has started its target
      if isCpuOn functionId ∧ x0 = 0 then none else some (m.setCore i ((m.cores i).answer (.smc functionId args) k x0))
    | _ => none
  | .smcCpuOn i j =>
    match (m.cores i).mode, (m.cores j).mode with
    | .el2 (.step (.smc functionId args) k), .off =>
      match carriedEntry functionId args with
      | some (entry, contextId) =>
        if isCpuOn functionId ∧ narrow (functionId.setWidth 64) (args.getD 0 0) = affinityOf (topo.mpidr j) then
          some ((m.setCore i ((m.cores i).answer (.smc functionId args) k (0 : U64))).setCore j
            { m.cores j with mode := .entering entry contextId, start := .on (m.cores i).call })
        else none
      | none => none
    | _, _ => none
  | .smcPowerDown i =>
    match (m.cores i).mode with
    | .el2 (.step (.smc functionId args) _) =>
      match carriedEntry functionId args with
      | some (entry, contextId) =>
        if isCpuOn functionId then none
        else some (m.setCore i
          { m.cores i with mode := .poweredDown entry contextId, start := .resume (m.cores i).call })
      | none => none
    | _ => none
  | .smcOff i =>
    match (m.cores i).mode with
    | .el2 (.step (.smc functionId _) _) =>
      if functionId = smcCpuOff then some (m.setCore i { m.cores i with mode := .off }) else none
    | _ => none
  | .wake i =>
    match (m.cores i).mode with
    | .poweredDown entry contextId => some (m.setCore i { m.cores i with mode := .entering entry contextId })
    | _ => none
  | .enterEl2 i sys =>
    match (m.cores i).mode with
    | .entering entry contextId => some (m.setCore i ((m.cores i).enterEl2 env (topo.mpidr i) sys entry contextId))
    | _ => none

end Machine

def Choice.Calls (P : GuestCall → Prop) : Choice n → Prop
  | .trap _ guest rs => guest.isCall = true → P (.ofRegisters rs)
  | _ => True

def Choice.guestCall : Choice n → Option (Fin n × GuestCall)
  | .trap i guest rs => if guest.isCall then some (i, .ofRegisters rs) else none
  | _ => none

instance Choice.decidableCalls (P : GuestCall → Prop) [DecidablePred P] : (choice : Choice n) → Decidable (choice.Calls P)
  | .trap _ guest rs => inferInstanceAs (Decidable (guest.isCall = true → P (.ofRegisters rs)))
  | .run _ | .smcReturn _ _ | .smcCpuOn _ _ | .smcPowerDown _ | .smcOff _ | .wake _ | .enterEl2 _ _ => isTrue trivial

/-- How a machine boots: one core has run `main` up to the payload, the others are off. -/
structure Boot (σ : Type) (n : Nat) where
  core : Fin n
  sys : SysRegs
  x0 : U64
  x1 : U64
  x2 : U64
  x3 : U64
  payload : U64
  closures : U64 → StartClosure
  device : σ

def Boot.exit [IdMap M] (env : Env M σ) (topo : Topology n) (b : Boot σ n) : Exit :=
  let entry := entryPointEl1 env { b.sys with mpidrEl1 := topo.mpidr b.core } b.x0 b.x1 b.x2 b.x3 b.payload
  .enter entry.1 entry.2

def Machine.boot [IdMap M] (env : Env M σ) (topo : Topology n) (b : Boot σ n) : Machine σ env.maxCores n where
  cores i := {
    sys := b.sys
    mode := if i = b.core then .el2 (.ret (b.exit env topo)) else .off
    phase := .entering b.payload b.x0
    call := default
    start := .boot
    inFlight := none }
  shared := { stackMap := .new, contexts := .new, closures := b.closures, device := b.device }
  lookups := []
  writer _ := none

namespace Shared

variable {s s' : Shared σ maxCores}

theorem perform_getSecondaryStack {key : U64} {slot : Nat}
    (h : s.perform (.getSecondaryStack key) = some (.ok (slot, s'))) :
    ∃ stackMap, secondaryStackSlot s.stackMap key = some (slot, stackMap) ∧ s' = { s with stackMap := stackMap } := by
  rw [perform] at h
  split at h
  · rename_i slot' stackMap hs
    cases h
    exact ⟨stackMap, hs, rfl⟩
  · cases h

theorem perform_suspendInsert {key : U64} {context : SuspendCoreData} {r : Unit}
    (h : s.perform (.suspendInsert key context) = some (.ok (r, s'))) :
    ∃ slot contexts, s.contexts.insert key context = some (slot, contexts) ∧ s' = { s with contexts := contexts } := by
  rw [perform] at h
  split at h
  · rename_i slot contexts hs
    cases h
    exact ⟨slot, contexts, hs, rfl⟩
  · cases h

theorem perform_error {e : Eff σ} {message : String} (h : s.perform e = some (.error message)) :
    message = capacityExceeded ∨ e = .panic message := by
  cases e with
  | getSecondaryStack | suspendInsert =>
    rw [perform] at h
    split at h
    · cases h
    · cases h
      exact .inl rfl
  | panic =>
    cases h
    exact .inr rfl
  | _ => cases h

section Frame

variable {e : Eff σ} {r : e.Resp} (h : s.perform e = some (.ok (r, s')))
include h

theorem perform_stacks_eq (hne : ∀ key, e ≠ .getSecondaryStack key) : s'.stackMap = s.stackMap := by
  cases e with
  | getSecondaryStack key => exact absurd rfl (hne key)
  | suspendInsert =>
    obtain ⟨_, _, -, rfl⟩ := perform_suspendInsert h
    rfl
  | _ => cases h <;> rfl

theorem perform_contexts_eq (hinsert : ∀ key context, e ≠ .suspendInsert key context)
    (hremove : ∀ key, e ≠ .suspendRemove key) : s'.contexts = s.contexts := by
  cases e with
  | suspendInsert key context => exact absurd rfl (hinsert key context)
  | suspendRemove key => exact absurd rfl (hremove key)
  | getSecondaryStack =>
    obtain ⟨_, -, rfl⟩ := perform_getSecondaryStack h
    rfl
  | _ => cases h <;> rfl

theorem perform_closures_eq (hne : ∀ stackEnd closure, e ≠ .writeStartClosure stackEnd closure) :
    s'.closures = s.closures := by
  cases e with
  | writeStartClosure stackEnd closure => exact absurd rfl (hne stackEnd closure)
  | getSecondaryStack =>
    obtain ⟨_, -, rfl⟩ := perform_getSecondaryStack h
    rfl
  | suspendInsert =>
    obtain ⟨_, _, -, rfl⟩ := perform_suspendInsert h
    rfl
  | _ => cases h <;> rfl

end Frame

end Shared

/-! ## What a step can be -/

open Machine in
inductive Step [IdMap M] (env : Env M σ) (topo : Topology n) (m : Machine σ env.maxCores n) :
    Choice n → Machine σ env.maxCores n → Prop
  | trap {i : Fin n} {guest : SysRegs} {rs : GuestRegisterState} (hmode : (m.cores i).mode = .guest)
      (hspsr : LowerEl rs.volatile.spsr) :
      Step env topo m (.trap i guest rs) (m.setCore i ((m.cores i).takeTrap env guest rs))
  | leave {i : Fin n} {exit : Exit} (hmode : (m.cores i).mode = .el2 (.ret exit)) :
      Step env topo m (.run i) (m.setCore i { m.cores i with sys := exit.sysRegs, mode := .guest })
  | call {i : Fin n} {e : Eff σ} {k : e.Resp → Hyp σ Exit} {r : e.Resp} {shared : Shared σ env.maxCores}
      (hmode : (m.cores i).mode = .el2 (.step e k)) (hp : m.shared.perform e = some (.ok (r, shared))) :
      Step env topo m (.run i) { m.setCore i ((m.cores i).answer e k r) with
        shared := shared, lookups := m.lookups ++ e.lookup i (m.cores i).call (some r), writer := e.writerAfter m.writer i }
  | fail {i : Fin n} {e : Eff σ} {k : e.Resp → Hyp σ Exit} {message : String}
      (hmode : (m.cores i).mode = .el2 (.step e k)) (hp : m.shared.perform e = some (.error message)) :
      Step env topo m (.run i) { m.setCore i { m.cores i with mode := .panicked message } with
        lookups := m.lookups ++ e.lookup i (m.cores i).call none }
  | smcReturn {i : Fin n} {functionId : U32} {args : List U64} {k : U64 → Hyp σ Exit} {x0 : U64}
      (hmode : (m.cores i).mode = .el2 (.step (.smc functionId args) k)) :
      Step env topo m (.smcReturn i x0) (m.setCore i ((m.cores i).answer (.smc functionId args) k x0))
  | smcCpuOn {i j : Fin n} {functionId : U32} {args : List U64} {k : U64 → Hyp σ Exit} {entry contextId : U64}
      (hmode : (m.cores i).mode = .el2 (.step (.smc functionId args) k)) (hoff : (m.cores j).mode = .off)
      (hcarried : carriedEntry functionId args = some (entry, contextId)) (hon : isCpuOn functionId = true)
      (htarget : narrow (functionId.setWidth 64) (args.getD 0 0) = affinityOf (topo.mpidr j)) :
      Step env topo m (.smcCpuOn i j)
        ((m.setCore i ((m.cores i).answer (.smc functionId args) k (0 : U64))).setCore j
          { m.cores j with mode := .entering entry contextId, start := .on (m.cores i).call })
  | smcPowerDown {i : Fin n} {functionId : U32} {args : List U64} {k : U64 → Hyp σ Exit} {entry contextId : U64}
      (hmode : (m.cores i).mode = .el2 (.step (.smc functionId args) k))
      (hcarried : carriedEntry functionId args = some (entry, contextId)) (hon : isCpuOn functionId = false) :
      Step env topo m (.smcPowerDown i)
        (m.setCore i { m.cores i with mode := .poweredDown entry contextId, start := .resume (m.cores i).call })
  | smcOff {i : Fin n} {args : List U64} {k : U64 → Hyp σ Exit}
      (hmode : (m.cores i).mode = .el2 (.step (.smc smcCpuOff args) k)) :
      Step env topo m (.smcOff i) (m.setCore i { m.cores i with mode := .off })
  | wake {i : Fin n} {entry contextId : U64} (hmode : (m.cores i).mode = .poweredDown entry contextId) :
      Step env topo m (.wake i) (m.setCore i { m.cores i with mode := .entering entry contextId })
  | enterEl2 {i : Fin n} {sys : SysRegs} {entry contextId : U64}
      (hmode : (m.cores i).mode = .entering entry contextId) :
      Step env topo m (.enterEl2 i sys)
        (m.setCore i ((m.cores i).enterEl2 env (topo.mpidr i) sys entry contextId))

namespace Machine

variable [IdMap M] {env : Env M σ} {topo : Topology n} {m m' : Machine σ env.maxCores n}

/-- **What a step did.** -/
theorem step_cases {choice : Choice n} (h : m.step env topo choice = some m') : Step env topo m choice m' := by
  unfold step at h
  split at h
  case h_1 i guest rs =>
    split at h
    · rename_i hmode
      split at h
      · rename_i hspsr
        cases h
        exact .trap hmode hspsr
      · cases h
    · cases h
  case h_2 i =>
    split at h
    · rename_i exit hmode
      cases h
      exact .leave hmode
    · rename_i e k hmode
      split at h
      · rename_i r shared hp
        cases h
        exact .call hmode hp
      · rename_i message hp
        cases h
        exact .fail hmode hp
      · cases h
    · cases h
  case h_3 i x0 =>
    split at h
    · rename_i functionId args k hmode
      split at h
      · cases h
      · cases h
        exact .smcReturn hmode
    · cases h
  case h_4 i j =>
    split at h
    · rename_i functionId args k hmode hoff
      split at h
      · rename_i entry contextId hcarried
        split at h
        · rename_i hon
          cases h
          exact .smcCpuOn hmode hoff hcarried hon.1 hon.2
        · cases h
      · cases h
    · cases h
  case h_5 i =>
    split at h
    · rename_i functionId args k hmode
      split at h
      · rename_i entry contextId hcarried
        split at h
        · cases h
        · rename_i hon
          cases h
          exact .smcPowerDown hmode hcarried (by simpa using hon)
      · cases h
    · cases h
  case h_6 i =>
    split at h
    · rename_i functionId args k hmode
      split at h
      · rename_i hid
        cases h
        subst hid
        exact .smcOff hmode
      · cases h
    · cases h
  case h_7 i =>
    split at h
    · rename_i entry contextId hmode
      cases h
      exact .wake hmode
    · cases h
  case h_8 i sys =>
    split at h
    · rename_i entry contextId hmode
      cases h
      exact .enterEl2 hmode
    · cases h

theorem guestCalls_step {P : Fin n → GuestCall → Prop} {choice : Choice n} (hc : ∀ c ∈ choice.guestCall, P c.1 c.2)
    (h : ∀ i, P i (m.cores i).call) (hstep : Step env topo m choice m') (i : Fin n) : P i (m'.cores i).call := by
  have key : ∀ {m : Machine σ env.maxCores n} {i : Fin n} {core : Core σ}, (∀ i, P i (m.cores i).call) → P i core.call →
      ∀ j, P j ((m.setCore i core).cores j).call := fun h hi =>
    forall_setCore (P := fun j core => P j core.call) h hi
  cases hstep with
  | @trap i guest rs =>
    refine key h ?_ _
    rw [Core.takeTrap]
    dsimp only
    split
    · rename_i hcall
      exact hc (i, .ofRegisters rs) (if_pos hcall)
    · exact h i
  | @smcCpuOn i j =>
    refine key (m := m.setCore i _) (key h ?_) ?_ _
    · exact h i
    · exact h j
  | @enterEl2 i =>
    refine key h ?_ _
    rw [(Core.enterEl2_history ..).1]
    exact h i
  | @leave i | @call i | @fail i | @smcReturn i | @smcPowerDown i | @smcOff i | @wake i =>
    refine key h ?_ _
    exact h i

theorem calls_step {P : GuestCall → Prop} {choice : Choice n} (hc : choice.Calls P) (h : ∀ i, P (m.cores i).call)
    (hstep : Step env topo m choice m') : ∀ i, P (m'.cores i).call := by
  refine guestCalls_step (P := fun _ => P) (fun c hmem => ?_) h hstep
  cases choice with
  | trap i guest rs =>
    rw [Option.mem_def, Choice.guestCall] at hmem
    by_cases hcall : guest.isCall = true
    · rw [if_pos hcall] at hmem
      cases hmem
      exact hc hcall
    · rw [if_neg hcall] at hmem
      cases hmem
  | _ => cases hmem

theorem step_call (topo : Topology n) {i : Fin n} {e : Eff σ} {k : e.Resp → Hyp σ Exit} {r : e.Resp}
    {shared : Shared σ env.maxCores} (hmode : (m.cores i).mode = .el2 (.step e k)) (hp : m.shared.perform e = some (.ok (r, shared))) :
    ∃ m', m.step env topo (.run i) = some m' ∧ m'.cores i = (m.cores i).answer e k r := by
  refine ⟨{ m.setCore i ((m.cores i).answer e k r) with
    shared := shared, lookups := m.lookups ++ e.lookup i (m.cores i).call (some r), writer := e.writerAfter m.writer i }, ?_,
    Function.update_self i _ m.cores⟩
  rw [step]
  simp only [hmode, hp]

end Machine

/-! ## Every core's code keeps to the protocol -/

/-- What every core keeps, whatever its guest and firmware do. -/
def Core.Serving [IdMap M] (env : Env M σ) (mpidr : U64) (core : Core σ) : Prop :=
  match core.mode with
  | .el2 code => Serves env mpidr core.call core.phase code
  | .guest => GuestReady env mpidr core.sys
  | _ => True

section Serving

variable [IdMap M] {env : Env M σ} {mpidr : U64} {core : Core σ}

theorem Core.Serving.of_el2 {code : Hyp σ Exit} (h : core.Serving env mpidr) (hmode : core.mode = .el2 code) :
    Serves env mpidr core.call core.phase code := by
  unfold Core.Serving at h
  rw [hmode] at h
  exact h

theorem Core.Serving.allows {e : Eff σ} {k : e.Resp → Hyp σ Exit} (h : core.Serving env mpidr)
    (hmode : core.mode = .el2 (.step e k)) : core.phase.Allows env mpidr core.call e := (h.of_el2 hmode).1

theorem Core.Serving.answer {e : Eff σ} {k : e.Resp → Hyp σ Exit} (h : core.Serving env mpidr)
    (hmode : core.mode = .el2 (.step e k)) (r : e.Resp) : (core.answer e k r).Serving env mpidr :=
  (h.of_el2 hmode).2 r

theorem Core.Serving.leaves {exit : Exit} (h : core.Serving env mpidr) (hmode : core.mode = .el2 (.ret exit)) :
    core.phase.Leaves env mpidr exit := h.of_el2 hmode

theorem Core.Serving.takeTrap (h : core.Serving env mpidr) (hmode : core.mode = .guest) {guest : SysRegs}
    {rs : GuestRegisterState} (hspsr : LowerEl rs.volatile.spsr) : (core.takeTrap env guest rs).Serving env mpidr := by
  unfold Core.Serving at h
  rw [hmode] at h
  refine serveTrap_serves ⟨h.mpidr, h.vm, h.tables, hspsr⟩ fun hcall => ?_
  rw [Core.takeTrap, if_pos hcall]

theorem Core.serving_enterEl2 (sys : SysRegs) (entry contextId : U64) :
    (core.enterEl2 env mpidr sys entry contextId).Serving env mpidr := by
  unfold Core.enterEl2
  dsimp only
  split
  · refine startedCode_serves (M := M) ?_ contextId
    rfl
  split
  · refine resumedCode_serves (M := M) ?_
    rfl
  · trivial

end Serving

/-! ## The SMCs that carry an entry -/

namespace Phase.Allows

variable {env : Env M σ} {mpidr : U64} {call : GuestCall} {phase : Phase} {functionId : U32} {args : List U64}
  {entry contextId : U64}

/-- **A CPU_ON or a CPU_SUSPEND of RITM's own carries the runtime's entry point**; else it is a guest call that carries
one and is forwarded. -/
theorem carries (h : phase.Allows env mpidr call (.smc functionId args))
    (hcarried : carriedEntry functionId args = some (entry, contextId)) :
    (∃ slot, phase = .onWritten slot ∧ isCpuOn functionId = true ∧ entry = env.rt.secondaryEntry ∧
      contextId = env.rt.stackEnd slot) ∨
    (∃ slot, phase = .suspendStack slot ∧ isCpuOn functionId = false ∧ entry = env.rt.resumeEntry) ∨
    (phase = .trapped ∧ isCpuOn functionId = false ∧ call.fnId ∈ defaultSuspendIds) := by
  rcases h.smc with ⟨rfl, hf⟩ | ⟨slot, rfl, rfl, rfl⟩ | ⟨slot, rfl, rfl, state, rfl⟩
  · have hon : isCpuOn functionId = false := by simpa [isCpuOn, hf.id_eq] using hf.not_cpuOn
    refine .inr (.inr ⟨rfl, hon, ?_⟩)
    by_contra hdefault
    rw [carriedEntry, hf.id_eq, if_neg (not_or.2 ⟨hf.not_cpuOn, hf.not_cpuSuspend⟩), if_neg hdefault] at hcarried
    cases hcarried
  · cases hcarried
    exact .inl ⟨slot, rfl, rfl, rfl, rfl⟩
  · cases hcarried
    exact .inr (.inl ⟨slot, rfl, rfl, rfl⟩)

theorem carries_cpuOn (h : phase.Allows env mpidr call (.smc functionId args))
    (hcarried : carriedEntry functionId args = some (entry, contextId)) (hon : isCpuOn functionId = true) :
    ∃ slot, phase = .onWritten slot ∧ entry = env.rt.secondaryEntry ∧ contextId = env.rt.stackEnd slot := by
  rcases h.carries hcarried with ⟨slot, hphase, -, hentry⟩ | ⟨_, -, hoff, -⟩ | ⟨-, hoff, -⟩
  · exact ⟨slot, hphase, hentry⟩
  · exact absurd (hon.symm.trans hoff) (by decide)
  · exact absurd (hon.symm.trans hoff) (by decide)

theorem carries_suspend (h : phase.Allows env mpidr call (.smc functionId args))
    (hcarried : carriedEntry functionId args = some (entry, contextId)) (hon : isCpuOn functionId = false)
    (hcall : call.fnId ∉ defaultSuspendIds) : ∃ slot, phase = .suspendStack slot ∧ entry = env.rt.resumeEntry := by
  rcases h.carries hcarried with ⟨_, -, hon', -⟩ | ⟨slot, hphase, -, hentry⟩ | ⟨-, -, hdefault⟩
  · exact absurd (hon.symm.trans hon') (by decide)
  · exact ⟨slot, hphase, hentry⟩
  · exact absurd hdefault hcall

theorem cpuOff (h : phase.Allows env mpidr call (.smc smcCpuOff args)) : phase = .trapped := by
  rcases h.smc with ⟨rfl, -⟩ | ⟨slot, -, hid, -⟩ | ⟨slot, -, hid, -⟩
  · rfl
  · exact absurd hid (by decide)
  · exact absurd hid (by decide)

end Phase.Allows

namespace Machine

variable [IdMap M] {env : Env M σ} {topo : Topology n} {m m' : Machine σ env.maxCores n}

theorem serving_boot (b : Boot σ n) (i : Fin n) : ((boot env topo b).cores i).Serving env (topo.mpidr i) := by
  unfold Core.Serving boot
  dsimp only
  split
  · rename_i code hmode
    split at hmode
    · rename_i hi
      cases hmode
      subst hi
      exact ⟨_, b.x1, b.x2, b.x3, rfl, rfl⟩
    · cases hmode
  · rename_i hmode
    split at hmode <;> cases hmode
  · trivial

/-- **The protocol is kept by every step.** -/
theorem serving_step {choice : Choice n} (h : ∀ i, (m.cores i).Serving env (topo.mpidr i))
    (hstep : Step env topo m choice m') (i : Fin n) : (m'.cores i).Serving env (topo.mpidr i) := by
  cases hstep with
  | @trap i _ _ hmode hspsr => exact forall_setCore h ((h i).takeTrap hmode hspsr) _
  | @leave i _ hmode =>
    refine forall_setCore h ?_ _
    exact ((h i).leaves hmode).ready
  | @call i _ _ r _ hmode => exact forall_setCore h ((h i).answer hmode r) _
  | @smcReturn i _ _ _ x0 hmode => exact forall_setCore h ((h i).answer hmode x0) _
  | @smcCpuOn i j _ _ _ _ _ hmode =>
    refine forall_setCore (m := m.setCore i _) (forall_setCore h ?_) ?_ _
    · exact (h i).answer hmode (0 : U64)
    · trivial
  | enterEl2 => exact forall_setCore h (Core.serving_enterEl2 _ _ _) _
  | _ =>
    refine forall_setCore h ?_ _
    trivial

end Machine

/-! ## A machine of three cores -/

def threeCores : Topology 3 where
  mpidr i := BitVec.ofNat 64 (0x80000000 + i)
  res1 := by decide
  affinity_injective := by decide

def bareEnv : Env RegionTable Unit where
  config := Stage2Builder.new.build
  handleHvc _ _ := .unhandled
  maxCores := 8
  psci := specDecoder
  rt := eightStacks

abbrev core0 : Fin 3 := 0
abbrev core1 : Fin 3 := 1
abbrev core2 : Fin 3 := 2

def bareBoot : Boot Unit 3 where
  core := core0
  sys := default
  x0 := 0x44000000
  x1 := 0
  x2 := 0
  x3 := 0
  payload := 0x42000000
  closures _ := { fnId := 0, mpidr := 0, entry := .entry64 0 0 }
  device := ()

def Choice.smcTrap (i : Fin n) (fnId arg0 arg1 arg2 : U64) : Choice n :=
  .trap i { (default : SysRegs) with esrEl2 := 0x5e000000 }
    { (default : GuestRegisterState) with
      volatile := { (default : VolatileRegisters) with
        registers := #v[fnId, arg0, arg1, arg2, 0, 0, 0, 0, 0, 0, 0, 0, 0, 0, 0, 0, 0, 0, 0] } }

def bareRun (choices : List (Choice 3)) : Option (Machine Unit bareEnv.maxCores 3) :=
  run (Machine.step bareEnv threeCores) (.boot bareEnv threeCores bareBoot) choices

end Ritm
