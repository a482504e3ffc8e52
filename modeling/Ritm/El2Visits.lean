import Ritm.Isolation
import Ritm.Lib.Simulation
import Mathlib.Tactic.IntervalCases
/-!
# El2Visits — from a trap to the return

A core comes to EL2 by a trap of its guest or from firmware, makes its calls and leaves.  It makes few of them, since
each call the protocol allows is made in a phase that comes later than the last (`Phase.stepsLeft`), and the core leaves
with the EL2 registers `entry_point_el1` has set.  `keeps_step` is the rule for what all code at EL2 keeps.
-/
namespace Ritm

open Lib (Prog run Meets)
open Lib.Prog (Obeys obeys_bind)

variable {M σ : Type} {n maxCores : Nat}

/-! ## How long a visit is -/

namespace Phase

/-- How many calls are made from a phase on at most, the return counted as one. -/
def stepsLeft : Phase → Nat
  | trapped => 5
  | suspendInserted => 4
  | onStack _ | suspendStack _ => 3
  | onWritten _ | suspendReturned | started _ | restoring => 2
  | finished | lost | entering .. => 1

theorem stepsLeft_pos (phase : Phase) : 0 < phase.stepsLeft := by
  cases phase <;> simp [stepsLeft]

/-- **Every call the protocol allows brings its end nearer.** -/
theorem stepsLeft_next {env : Env M σ} {mpidr : U64} {call : GuestCall} {phase : Phase} {e : Eff σ}
    (h : phase.Allows env mpidr call e) (r : e.Resp) : (phase.next e r).stepsLeft < phase.stepsLeft := by
  cases phase with
  | trapped =>
    cases e with
    | panic => exact r.elim
    | _ => simp [next, stepsLeft]
  | restoring =>
    cases e with
    | suspendRemove key => cases r <;> simp [next, stepsLeft]
    | _ => exact False.elim h
  | finished | lost =>
    cases e with
    | panic => exact r.elim
    | _ => exact False.elim h
  | _ => cases e <;> first | exact False.elim h | simp [next, stepsLeft]

end Phase

def Choice.stepsOf (i : Fin n) : Choice n → Nat
  | .run j | .smcReturn j _ | .smcCpuOn j _ | .smcPowerDown j | .smcOff j => if j = i then 1 else 0
  | .trap .. | .wake _ | .enterEl2 .. => 0

def Choice.enters (i : Fin n) : Choice n → Bool
  | .trap j _ _ | .enterEl2 j _ => j == i
  | _ => false

namespace Core

def VisitWithin (core : Core σ) (k : Nat) : Prop :=
  match core.mode with
  | .el2 _ => core.phase.stepsLeft ≤ k
  | _ => True

end Core

namespace Machine

variable [IdMap M] {env : Env M σ} {topo : Topology n} {m m' : Machine σ env.maxCores n} {i : Fin n} {k : Nat}

omit [IdMap M] in
theorem visitWithin_setCore {j : Fin n} {code : Hyp σ Exit} {core : Core σ} (h : (m.cores i).VisitWithin k)
    (hmode : (m.cores j).mode = .el2 code)
    (hcore : ∀ left, (m.cores j).phase.stepsLeft ≤ left → core.VisitWithin (left - 1)) :
    (if j = i then 1 else 0) ≤ k ∧ ((m.setCore j core).cores i).VisitWithin (k - if j = i then 1 else 0) := by
  by_cases hj : j = i
  · subst hj
    rw [Core.VisitWithin, hmode] at h
    rw [if_pos rfl, setCore_cores, Function.update_self]
    exact ⟨Nat.le_trans (Phase.stepsLeft_pos _) h, hcore k h⟩
  · rw [if_neg hj, setCore_cores, Function.update_of_ne (Ne.symm hj)]
    exact ⟨Nat.zero_le k, h⟩

theorem visitWithin_answer (hserving : ∀ i, (m.cores i).Serving env (topo.mpidr i)) {j : Fin n} {e : Eff σ}
    {c : e.Resp → Hyp σ Exit} (h : (m.cores i).VisitWithin k) (hmode : (m.cores j).mode = .el2 (.step e c)) (r : e.Resp) :
    (if j = i then 1 else 0) ≤ k ∧
      ((m.setCore j ((m.cores j).answer e c r)).cores i).VisitWithin (k - if j = i then 1 else 0) := by
  refine visitWithin_setCore h hmode fun left hleft => ?_
  exact Nat.le_sub_one_of_lt (Nat.lt_of_lt_of_le (Phase.stepsLeft_next ((hserving j).allows hmode) r) hleft)

/-- **A step at EL2 is one less to take.** -/
theorem visitWithin_step {choice : Choice n} (hserving : ∀ i, (m.cores i).Serving env (topo.mpidr i))
    (h : (m.cores i).VisitWithin k) (henters : choice.enters i = false) (hstep : Step env topo m choice m') :
    choice.stepsOf i ≤ k ∧ (m'.cores i).VisitWithin (k - choice.stepsOf i) := by
  cases hstep with
  | @trap j | @enterEl2 j =>
    have hj : j ≠ i := by simpa [Choice.enters] using henters
    refine ⟨Nat.zero_le k, ?_⟩
    rw [setCore_cores, Function.update_of_ne hj.symm]
    exact h
  | leave hmode => exact visitWithin_setCore h hmode fun _ _ => trivial
  | fail hmode => exact visitWithin_setCore h hmode fun _ _ => trivial
  | smcPowerDown hmode => exact visitWithin_setCore h hmode fun _ _ => trivial
  | smcOff hmode => exact visitWithin_setCore h hmode fun _ _ => trivial
  | @call j e c r shared hmode => exact visitWithin_answer hserving h hmode r
  | @smcReturn j functionId args c x0 hmode => exact visitWithin_answer hserving h hmode x0
  | @smcCpuOn j target functionId args c entry contextId hmode hoff =>
    obtain ⟨hle, h'⟩ := visitWithin_answer hserving h hmode (0 : U64)
    refine ⟨hle, forall_setCore (P := fun l core => l = i → core.VisitWithin (k - if j = i then 1 else 0))
      (fun l hl => hl ▸ h') (fun _ => ?_) i rfl⟩
    trivial
  | @wake j entry contextId hmode =>
    refine ⟨Nat.zero_le k,
      forall_setCore (P := fun l core => l = i → core.VisitWithin k) (fun l hl => hl ▸ h) (fun _ => ?_) i rfl⟩
    trivial

theorem serving_of_run (h : ∀ i, (m.cores i).Serving env (topo.mpidr i)) {choices : List (Choice n)}
    (hrun : run (Machine.step env topo) m choices = some m') : ∀ i, (m'.cores i).Serving env (topo.mpidr i) :=
  Lib.invariant (C := fun _ _ => True) (fun _ _ _ h _ hstep => serving_step h (step_cases hstep)) choices _ m' h
    (Lib.meets_of_forall _ fun _ _ => trivial) hrun

end Machine

/-! ## What all code at EL2 keeps -/

/-- `I` holds of the code the core runs at EL2, `G` of the registers its guest runs under. -/
def Core.Keeps (G : SysRegs → Prop) (I : Hyp σ Exit → Prop) (core : Core σ) : Prop :=
  match core.mode with
  | .el2 code => I code
  | .guest => G core.sys
  | _ => True

structure CodeRules [IdMap M] (env : Env M σ) (G : SysRegs → Prop) (I : Hyp σ Exit → Prop) : Prop where
  answer : ∀ e k, I (.step e k) → ∀ r, I (k r)
  leave : ∀ exit, I (.ret exit) → G exit.sysRegs
  trap : ∀ (guest sys : SysRegs) rs, G sys → I (serveTrap env (guest.el2Of sys) rs)
  started : ∀ sys stackEnd, I (startedCode env sys stackEnd)
  resumed : ∀ sys, I (resumedCode env sys)
  boots : ∀ sys x0 x1 x2 x3 payload,
    I (.ret (.enter (entryPointEl1 env sys x0 x1 x2 x3 payload).1 (entryPointEl1 env sys x0 x1 x2 x3 payload).2))

namespace CodeRules

variable [IdMap M] {env : Env M σ} {topo : Topology n} {m m' : Machine σ env.maxCores n} {G : SysRegs → Prop}
  {I : Hyp σ Exit → Prop}

theorem keeps_boot (h : CodeRules env G I) (topo : Topology n) (b : Boot σ n) (i : Fin n) :
    ((Machine.boot env topo b).cores i).Keeps G I := by
  by_cases hi : i = b.core
  · rw [Core.Keeps, Machine.boot]
    simp only [if_pos hi]
    exact h.boots ..
  · rw [Core.Keeps, Machine.boot]
    simp only [if_neg hi]

theorem keeps_enterEl2 (h : CodeRules env G I) (core : Core σ) (mpidr : U64) (sys : SysRegs) (entry contextId : U64) :
    (core.enterEl2 env mpidr sys entry contextId).Keeps G I := by
  unfold Core.enterEl2
  dsimp only
  split
  · exact h.started _ contextId
  split
  · exact h.resumed _
  · trivial

theorem keeps_step (h : CodeRules env G I) {choice : Choice n} (hkeeps : ∀ i, (m.cores i).Keeps G I)
    (hstep : Step env topo m choice m') (i : Fin n) : (m'.cores i).Keeps G I := by
  have hcode : ∀ {j : Fin n} {code : Hyp σ Exit}, (m.cores j).mode = .el2 code → I code := fun {j _} hmode => by
    have := hkeeps j
    rwa [Core.Keeps, hmode] at this
  cases hstep with
  | @trap j guest rs hmode =>
    refine Machine.forall_setCore hkeeps ?_ i
    have := hkeeps j
    rw [Core.Keeps, hmode] at this
    exact h.trap guest _ rs this
  | leave hmode =>
    refine Machine.forall_setCore hkeeps ?_ i
    exact h.leave _ (hcode hmode)
  | @call j e k r shared hmode =>
    refine Machine.forall_setCore hkeeps ?_ i
    exact h.answer e k (hcode hmode) r
  | @smcReturn j functionId args k x0 hmode =>
    refine Machine.forall_setCore hkeeps ?_ i
    exact h.answer (.smc functionId args) k (hcode hmode) x0
  | @smcCpuOn j target functionId args k entry contextId hmode =>
    refine Machine.forall_setCore (m := m.setCore j _) (Machine.forall_setCore hkeeps ?_) ?_ i
    · exact h.answer (.smc functionId args) k (hcode hmode) (0 : U64)
    · trivial
  | enterEl2 => exact Machine.forall_setCore hkeeps (h.keeps_enterEl2 _ _ _ _ _) i
  | fail | smcPowerDown | smcOff | wake =>
    refine Machine.forall_setCore hkeeps ?_ i
    trivial

/-- **What the code at EL2 keeps holds of every core in every run.** -/
theorem keeps_run (h : CodeRules env G I) (b : Boot σ n) {choices : List (Choice n)}
    (hrun : run (Machine.step env topo) (.boot env topo b) choices = some m) (i : Fin n) : (m.cores i).Keeps G I :=
  Lib.invariant (C := fun _ _ => True) (fun _ _ _ hkeeps _ hstep => h.keeps_step hkeeps (Machine.step_cases hstep))
    choices _ m (h.keeps_boot topo b) (Lib.meets_of_forall _ fun _ _ => trivial) hrun i

end CodeRules

/-! ## The registers a guest runs under, and the callbacks its traps may call -/

/-- The EL2 registers as `entry_point_el1` and `setup_stage2` set them. -/
structure GuestConfigured [IdMap M] (env : Env M σ) (sys : SysRegs) : Prop where
  -- RW, TSC and VM: EL1 is AArch64, its SMCs trap, stage 2 translates.
  hcr : sys.hcrEl2 = 0x80080001
  -- 40 bits of physical addresses and of input, a granule of 4 KiB, walks from level 0.
  vtcr : sys.vtcrEl2 = 0x23598
  vttbr : sys.vttbrEl2 = IdMap.rootAddress env.config.idmap
  cntvoff : sys.cntvoffEl2 = 0
  -- EL0PCTEN and EL1PCEN.
  cnthctl : ∀ bit < 2, sys.cnthctlEl2.getLsbD bit = true
  -- SRE, DFB, DIB and ENABLE.
  iccSre : ∀ bit < 4, sys.iccSreEl2.getLsbD bit = true

def Eff.Registered (registry : MemoryAccessHandlerRegistry σ) : Eff σ → Prop
  | .callRead handler _ => ∃ region ∈ registry.regions.items, region.handler.read = some handler
  | .callWrite handler _ => ∃ region ∈ registry.regions.items, region.handler.write = some handler
  | _ => True

theorem MemoryAccessHandlerRegistry.mem_of_find {registry : MemoryAccessHandlerRegistry σ} {ipa : U64}
    {m : MemoryAccessHandlerMatch σ} (h : registry.find ipa = some m) : m.region ∈ registry.regions.items := by
  unfold find at h
  split at h
  · cases h
  · split at h
    · cases h
    · rename_i region hregion
      cases h
      exact List.mem_of_getElem? hregion

section Code

variable (env : Env M σ)

abbrev CallsRegistered {α : Type} (Q : α → Prop) (p : Hyp σ α) : Prop :=
  Obeys (Prog.calls (Eff.Registered env.config.memoryAccessHandlers)) (fun _ => Q) () p

variable {env}

theorem handlePsci_registered (sys : SysRegs) (fnId arg0 arg1 arg2 : U64) :
    CallsRegistered env (fun _ => True) (handlePsci env sys fnId arg0 arg1 arg2) := by
  unfold handlePsci
  split
  · trivial
  · split
    case h_21 targetCpu entry => exact ⟨trivial, fun _ => ⟨trivial, fun _ => ⟨trivial, fun _ => trivial⟩⟩⟩
    case h_22 state entry =>
      exact ⟨trivial, fun _ => ⟨trivial, fun _ => ⟨trivial, fun _ => ⟨trivial, fun _ => trivial⟩⟩⟩⟩
    all_goals exact ⟨trivial, fun _ => trivial⟩

theorem handleCall_registered (sys : SysRegs) (rs : GuestRegisterState) :
    CallsRegistered env (fun _ => True) (handleCall env sys rs) := by
  rw [handleCall]
  split
  · rw [CallsRegistered, tryHandlePsci, obeys_bind, obeys_bind]
    refine Obeys.mono (fun _ r _ => ?_) _ _ (handlePsci_registered sys _ _ _ _)
    cases r <;> trivial
  · trivial

theorem panic_registered {α : Type} (message : String) (Q : α → Prop) : CallsRegistered env Q (panic message) :=
  ⟨trivial, fun r => r.elim⟩

theorem advanceGuestPc_registered (rs : GuestRegisterState) :
    CallsRegistered env (fun _ => True) (advanceGuestPc rs) := by
  unfold advanceGuestPc
  split
  · trivial
  · exact panic_registered _ _

theorem tryMemoryAccessHandler_registered (sys : SysRegs) (rs : GuestRegisterState) :
    CallsRegistered env (fun _ => True) (tryMemoryAccessHandler env sys rs) := by
  cases dispatch env sys rs with
  | refused heq =>
    rw [heq]
    trivial
  | read decoded m handler hdec hfind hk hh =>
    rw [tryMemoryAccessHandler_read hdec hfind hk hh]
    refine ⟨⟨m.region, MemoryAccessHandlerRegistry.mem_of_find hfind, hh⟩, fun r => ?_⟩
    cases r with
    | fault => trivial
    | value v =>
      rw [afterRead, obeys_bind]
      exact Obeys.mono (fun _ _ _ => trivial) _ _ (advanceGuestPc_registered _)
  | write decoded m handler value hdec hfind hk hh =>
    rw [tryMemoryAccessHandler_write hdec hfind hk hh]
    refine ⟨⟨m.region, MemoryAccessHandlerRegistry.mem_of_find hfind, hh⟩, fun r => ?_⟩
    cases r with
    | fault => trivial
    | handled =>
      rw [afterWrite, obeys_bind]
      exact Obeys.mono (fun _ _ _ => trivial) _ _ (advanceGuestPc_registered _)

/-- **A trap is handled with the EL2 registers as they are.** -/
theorem handleSyncLower_registered (sys : SysRegs) (rs : GuestRegisterState) :
    CallsRegistered env (fun r => r.1 = r.1.el2Of sys) (handleSyncLower env sys rs) := by
  unfold handleSyncLower
  split
  · rw [CallsRegistered, obeys_bind]
    exact Obeys.mono (fun _ _ _ => rfl) _ _ (handleCall_registered sys rs)
  · rw [CallsRegistered, obeys_bind]
    refine Obeys.mono (fun _ rs' _ => ?_) _ _ (handleCall_registered sys rs)
    rw [obeys_bind]
    exact Obeys.mono (fun _ _ _ => rfl) _ _ (advanceGuestPc_registered rs')
  · rw [CallsRegistered, obeys_bind]
    refine Obeys.mono (fun _ r _ => ?_) _ _ (tryMemoryAccessHandler_registered sys rs)
    obtain ⟨result, rs'⟩ := r
    cases result with
    | ok => exact rfl
    | error =>
      dsimp only
      rcases injectDataAbort_cases (σ := σ) sys rs' with ⟨message, -, heq⟩ | ⟨guestEsr, heq⟩
      · rw [heq]
        exact panic_registered _ _
      · rw [heq]
        exact rfl
  · exact panic_registered _ _

variable [IdMap M]

theorem GuestConfigured.of_el2Of {sys sys' : SysRegs} (h : GuestConfigured env sys) (heq : sys' = sys'.el2Of sys) :
    GuestConfigured env sys' := by
  rw [heq]
  exact ⟨h.hcr, h.vtcr, h.vttbr, h.cntvoff, h.cnthctl, h.iccSre⟩

theorem guestConfigured_entryPointEl1 (sys : SysRegs) (x0 x1 x2 x3 entryPoint : U64) :
    GuestConfigured env (entryPointEl1 env sys x0 x1 x2 x3 entryPoint).1 where
  hcr := by simp [entryPointEl1, setBit, clearBit]
  vtcr := by simp [entryPointEl1, setupStage2, setField, t0szMaxSize]
  vttbr := rfl
  cntvoff := rfl
  cnthctl bit hbit := by interval_cases bit <;> simp [entryPointEl1, setBit]
  iccSre bit hbit := by interval_cases bit <;> simp [entryPointEl1, setBit]

theorem codeRules (env : Env M σ) :
    CodeRules env (GuestConfigured env) (CallsRegistered env fun exit => GuestConfigured env exit.sysRegs) where
  answer e k h r := h.2 r
  leave exit h := h
  trap guest sys rs h := by
    rw [serveTrap, CallsRegistered, obeys_bind]
    refine Obeys.mono (fun _ r hr => ?_) _ _ (handleSyncLower_registered (guest.el2Of sys) rs)
    have htrapped : GuestConfigured env (guest.el2Of sys) := h.of_el2Of rfl
    have hconfigured : GuestConfigured env r.1 := htrapped.of_el2Of hr
    exact ⟨hconfigured.hcr, hconfigured.vtcr, hconfigured.vttbr, hconfigured.cntvoff, hconfigured.cnthctl,
      hconfigured.iccSre⟩
  started sys stackEnd := by
    refine ⟨trivial, fun (closure : StartClosure) => ?_⟩
    exact guestConfigured_entryPointEl1 sys closure.entry.contextId 0 0 0 closure.entry.entryPointAddress
  resumed sys := by
    refine ⟨trivial, fun (context : Option SuspendCoreData) => ?_⟩
    cases context with
    | none => exact ⟨trivial, fun r => r.elim⟩
    | some context => exact guestConfigured_entryPointEl1 sys context.contextId 0 0 0 context.entryPoint
  boots sys x0 x1 x2 x3 payload := guestConfigured_entryPointEl1 ..

end Code

/-- **Guests never get another EL2 configuration**: wherever a run without CPU_DEFAULT_SUSPEND and SYSTEM_SUSPEND has
come, no core runs at EL2 at an address of its guest's, and one that runs its guest does so with stage 2 and the traps as
`entry_point_el1` has set them. -/
theorem guest_configuration_kept [IdMap M] (env : Env M σ) (topo : Topology n) (b : Boot σ n) (choices : List (Choice n))
    (hc : ∀ choice ∈ choices, choice.NoDefaultSuspend) (m : Machine σ env.maxCores n)
    (hrun : run (Machine.step env topo) (.boot env topo b) choices = some m) (i : Fin n) :
    (∀ entry, (m.cores i).mode ≠ .rogue entry) ∧ ((m.cores i).mode = .guest → GuestConfigured env (m.cores i).sys) := by
  refine ⟨fun entry hmode => ?_, fun hmode => ?_⟩
  · have hcontained := (Machine.confined_run b hc hrun).contained i
    rwa [Core.Contained, hmode] at hcontained
  · have hkeeps := (codeRules env).keeps_run b hrun i
    rwa [Core.Keeps, hmode] at hkeeps

def Mode.isGuest : Mode σ → Bool
  | .guest => true
  | _ => false

theorem Mode.eq_guest {mode : Mode σ} (h : mode.isGuest = true) : mode = .guest := by
  cases mode with
  | guest => rfl
  | _ => cases h

theorem guest_configuration_kept_started : ∃ m, bareRun (mediatedRun.take 8) = some m ∧
    (m.cores core1).mode.isGuest = true ∧ GuestConfigured bareEnv (m.cores core1).sys := by
  have hguest : (bareRun (mediatedRun.take 8)).map (fun m => (m.cores core1).mode.isGuest) = some true := by
    decide +kernel
  obtain ⟨m, hm, hmode⟩ := Option.map_eq_some_iff.1 hguest
  have hc : ∀ choice ∈ mediatedRun.take 8, choice.NoDefaultSuspend := by decide +kernel
  have hkept := guest_configuration_kept bareEnv threeCores bareBoot _ hc m hm core1
  exact ⟨m, hm, hmode, hkept.2 (Mode.eq_guest hmode)⟩

end Ritm
