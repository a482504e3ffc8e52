import Ritm.Lib.Simulation
import Ritm.CpuOn
import Ritm.PsciCalls
import Ritm.Suspend
/-!
# PsciRefinement — the guests see PSCI firmware

Every run of the machine of `Machine`, with RITM between guests and firmware, shows its guests and firmware what a run of
the machine of `PsciMachine` shows them: each call is answered once, by firmware or because it does not decode, with
firmware's own answer in the guest's registers, and each core begins where the call that started or suspended it asks.

What the trap handler does is known from `PsciCalls`, what a started or resumed core enters from `Closed` and
`InProtocol`.  Runs are those of `CpuOn` and `Isolation`.
-/
namespace Ritm

open Lib (run Meets Moves)
open Lib.Prog (Obeys)
open Direct (Event decode)

variable {M σ : Type} {n : Nat}

/-! ## What is seen of the machine -/

def Core.psciTrap (core : Core σ) : Bool := core.sys.isCall && isPsciFunctionId core.call.fnId

def Machine.see {maxCores : Nat} (m : Machine σ maxCores n) : Choice n → List (Event n)
  | .trap i guest rs =>
    if guest.isCall && isPsciFunctionId (GuestCall.ofRegisters rs).fnId then [.called i (guest.callFrame rs)] else []
  | .run i =>
    match (m.cores i).mode with
    | .el2 (.ret (.enter sys gprs)) => [.began i sys.elrEl2 (Direct.regAt gprs 0)]
    | .el2 (.ret (.resume _ rs)) => if (m.cores i).psciTrap then [.returned i rs.frame] else []
    | .el2 (.step e _) =>
      match m.shared.perform e with
      | some (.error _) => [.halted i]
      | _ => []
    | _ => []
  | .smcReturn i x0 =>
    match (m.cores i).mode with
    | .el2 (.step (.smc functionId args) _) =>
      if functionId = smcCpuOn64 ∨ functionId = smcCpuSuspend64 then [.refused i x0]
      else [.forwarded i functionId args x0]
    | _ => []
  | .smcCpuOn i j => [.granted i j]
  | .smcPowerDown i => [.poweredDown i]
  | .smcOff i => [.turnedOff i]
  | .wake i => [.woken i]
  | .enterEl2 .. => []

/-! ## How the two machines correspond -/

def Phase.inTrap : Phase → Bool
  | .entering .. | .started _ | .restoring | .lost => false
  | _ => true

/-- The core serves a trap: a PSCI call that is answered or not, or another one, which the guest does not see as a
call. -/
def Core.Asking (psci : PsciDecoder) (core : Core σ) (code : Hyp σ Exit) (a : Direct.Core) : Prop :=
  ∃ frame, if core.psciTrap then
    frame.call = core.call ∧
      (a = .calling frame ∧ Obeys (askProtocol psci core.call) (AskPhase.Ends psci frame) .asked code ∨
        ∃ x0, a = .answered (frame.respond x0) ∧
          Obeys (askProtocol psci core.call) (AskPhase.Ends psci frame) (.answered x0) code)
  else a = .running ∧ Obeys (askProtocol psci core.call) (AskPhase.Ends psci frame) .other code

def Core.Starts (core : Core σ) (context : SuspendCoreData) : Prop :=
  match core.phase with
  | .entering entryPoint contextId => context = ⟨entryPoint, contextId⟩
  | .started _ => ∃ call, core.start = .on call ∧ context = call.context
  | .restoring => ∃ call, core.start = .resume call ∧ context = call.context
  | _ => False

/-- **What a core shows.** -/
def Core.Shows (psci : PsciDecoder) (core : Core σ) (a : Direct.Core) : Prop :=
  match core.mode with
  | .off => a = .off
  | .guest => a = .running
  | .panicked _ => a = .halted
  | .rogue _ => False
  | .poweredDown _ _ => ∃ call, core.start = .resume call ∧ a = .suspended call.context.entryPoint call.context.contextId
  | .entering _ _ => ∃ call, (core.start = .on call ∨ core.start = .resume call) ∧
      a = .starting call.context.entryPoint call.context.contextId
  | .el2 code =>
    if core.phase.inTrap then core.Asking psci code a
    else ∃ context, core.Starts context ∧ a = .starting context.entryPoint context.contextId

section Cores

variable {env : Env M σ} {s : Direct.State n}

theorem shows_set {psci : PsciDecoder} {maxCores : Nat} {m : Machine σ maxCores n}
    (h : ∀ j, (m.cores j).Shows psci (s j)) {i : Fin n} {core : Core σ} {a : Direct.Core} (hi : core.Shows psci a)
    (j : Fin n) : ((m.setCore i core).cores j).Shows psci (Direct.set s i a j) := by
  rw [Machine.setCore_cores, Direct.set]
  by_cases hj : j = i
  · subst hj
    rw [Function.update_self, Function.update_self]
    exact hi
  · rw [Function.update_of_ne hj, Function.update_of_ne hj]
    exact h j

theorem shows_stay {psci : PsciDecoder} {maxCores : Nat} {m : Machine σ maxCores n}
    (h : ∀ j, (m.cores j).Shows psci (s j)) {i : Fin n} {core : Core σ} (hi : core.Shows psci (s i)) (j : Fin n) :
    ((m.setCore i core).cores j).Shows psci (s j) := by
  have := shows_set (i := i) h hi j
  rwa [Direct.set, Function.update_eq_self] at this

theorem Core.Shows.of_inTrap {psci : PsciDecoder} {core : Core σ} {code : Hyp σ Exit} {a : Direct.Core}
    (h : core.Shows psci a) (hmode : core.mode = .el2 code) (hphase : core.phase.inTrap = true) :
    core.Asking psci code a := by
  unfold Core.Shows at h
  rw [hmode] at h
  simpa only [hphase, if_true] using h

theorem Core.Asking.shows {psci : PsciDecoder} {core : Core σ} {code : Hyp σ Exit} {a : Direct.Core}
    (h : core.Asking psci code a) (hmode : core.mode = .el2 code) (hphase : core.phase.inTrap = true) :
    core.Shows psci a := by
  unfold Core.Shows
  rw [hmode]
  simpa only [hphase, if_true] using h

theorem Core.Shows.of_not_inTrap {psci : PsciDecoder} {core : Core σ} {code : Hyp σ Exit} {a : Direct.Core}
    (h : core.Shows psci a) (hmode : core.mode = .el2 code) (hphase : core.phase.inTrap = false) :
    ∃ context, core.Starts context ∧ a = .starting context.entryPoint context.contextId := by
  unfold Core.Shows at h
  rw [hmode] at h
  simpa only [hphase, Bool.false_eq_true, if_false] using h

theorem shows_starting {psci : PsciDecoder} {core : Core σ} {code : Hyp σ Exit} {context : SuspendCoreData}
    (hmode : core.mode = .el2 code) (hphase : core.phase.inTrap = false) (h : core.Starts context) :
    core.Shows psci (.starting context.entryPoint context.contextId) := by
  unfold Core.Shows
  rw [hmode]
  simp only [hphase, Bool.false_eq_true, if_false]
  exact ⟨context, h, rfl⟩

theorem shows_guest {psci : PsciDecoder} {core : Core σ} (hmode : core.mode = .guest) : core.Shows psci .running := by
  rw [Core.Shows, hmode]

theorem Phase.inTrap_next {phase : Phase} (h : phase.inTrap = true) (e : Eff σ) (r : e.Resp) :
    (phase.next e r).inTrap = true := by
  cases phase <;> cases e <;> first | rfl | cases h

/-! ## A core that serves a trap -/

section Asking

variable {core : Core σ} {a : Direct.Core}

theorem asking_takeTrap (env : Env M σ) (core : Core σ) (guest : SysRegs) (rs : GuestRegisterState) :
    (core.takeTrap env guest rs).Asking env.psci (serveTrap env (guest.el2Of core.sys) rs)
      (if guest.isCall && isPsciFunctionId (GuestCall.ofRegisters rs).fnId then .calling (guest.callFrame rs)
        else .running) := by
  have hcall : guest.isCall = true → (core.takeTrap env guest rs).call = .ofRegisters rs := fun h => if_pos h
  have htrap : (core.takeTrap env guest rs).psciTrap =
      (guest.isCall && isPsciFunctionId (GuestCall.ofRegisters rs).fnId) := by
    show (guest.isCall && isPsciFunctionId (core.takeTrap env guest rs).call.fnId) = _
    cases hc : guest.isCall with
    | false => rfl
    | true => rw [hcall hc]
  refine ⟨guest.callFrame rs, ?_⟩
  rw [htrap]
  split
  · rename_i hp
    obtain ⟨hc, hpsci⟩ := Bool.and_eq_true_iff.1 hp
    rw [hcall hc]
    exact ⟨callFrame_call guest rs, .inl ⟨rfl, @serveTrap_asks _ _ (guest.el2Of core.sys) rs env hc hpsci⟩⟩
  · rename_i hp
    refine ⟨rfl, serveTrap_other (fun hc => ?_) _⟩
    have hc' : guest.isCall = true := hc
    simpa [hc'] using hp

theorem Core.Asking.answer {psci : PsciDecoder} {e : Eff σ} {k : e.Resp → Hyp σ Exit}
    (h : core.Asking psci (.step e k) a) (hne : ∀ functionId args, e ≠ .smc functionId args) (r : e.Resp) :
    (core.answer e k r).Asking psci (k r) a := by
  have hnext : ∀ phase : AskPhase, phase.next e r = phase := fun phase => by
    cases e with
    | smc functionId args => exact absurd rfl (hne functionId args)
    | _ => cases phase <;> rfl
  obtain ⟨frame, h⟩ := h
  refine ⟨frame, ?_⟩
  show if core.psciTrap then _ else _
  split at h
  · rename_i hp
    rw [if_pos hp]
    rcases h with ⟨hcall, ⟨ha, hcode⟩ | ⟨x0, ha, hcode⟩⟩
    · exact ⟨hcall, .inl ⟨ha, hnext .asked ▸ hcode.2 r⟩⟩
    · exact ⟨hcall, .inr ⟨x0, ha, hnext (.answered x0) ▸ hcode.2 r⟩⟩
  · rename_i hp
    rw [if_neg hp]
    exact ⟨h.1, hnext .other ▸ h.2.2 r⟩

/-- **A trap that makes an SMC is a PSCI call, not answered yet**, and what firmware returns is the answer. -/
theorem Core.Asking.smc {psci : PsciDecoder} {functionId : U32} {args : List U64} {k : U64 → Hyp σ Exit}
    (h : core.Asking psci (.step (.smc functionId args) k) a) :
    ∃ frame, a = .calling frame ∧ Asks psci frame.call functionId args ∧ frame.call = core.call ∧
      ∀ x0 : U64, (core.answer (.smc functionId args) k x0).Asking psci (k x0) (.answered (frame.respond x0)) := by
  obtain ⟨frame, h⟩ := h
  split at h
  · rename_i hp
    rcases h with ⟨hcall, ⟨ha, hcode⟩ | ⟨x0, -, hcode⟩⟩
    · refine ⟨frame, ha, hcall ▸ hcode.1, hcall, fun x0 => ⟨frame, ?_⟩⟩
      show if core.psciTrap then _ else _
      rw [if_pos hp]
      exact ⟨hcall, .inr ⟨x0, rfl, hcode.2 x0⟩⟩
    · exact hcode.1.elim
  · exact h.2.1.elim

theorem Core.Asking.leaves {psci : PsciDecoder} {exit : Exit} (h : core.Asking psci (.ret exit) a) :
    ∃ sys rs, exit = .resume sys rs ∧
      (core.psciTrap = false ∧ a = .running ∨
        core.psciTrap = true ∧ (a = .answered rs.frame ∨ ∃ frame code, a = .calling frame ∧
          decode psci frame.call = .error code ∧ rs.frame = frame.fail (errorToU64 (.ofI32 code)))) := by
  obtain ⟨frame, h⟩ := h
  cases exit with
  | enter sys gprs =>
    split at h
    · rcases h with ⟨-, ⟨-, hcode⟩ | ⟨x0, -, hcode⟩⟩ <;> cases hcode
    · cases h.2
  | resume sys rs =>
    refine ⟨sys, rs, rfl, ?_⟩
    split at h
    · rename_i hp
      refine .inr ⟨hp, ?_⟩
      rcases h with ⟨-, ⟨ha, code, hd, hframe⟩ | ⟨x0, ha, hframe⟩⟩
      · exact .inr ⟨frame, code, ha, hd, hframe⟩
      · exact .inl (ha.trans (congrArg Direct.Core.answered (Eq.symm hframe)))
    · rename_i hp
      exact .inl ⟨by simpa using hp, h.1⟩

end Asking

theorem Phase.Allows.inTrap {mpidr : U64} {call : GuestCall} {phase : Phase} {functionId : U32} {args : List U64}
    (h : phase.Allows env mpidr call (.smc functionId args)) : phase.inTrap = true := by
  rcases h.smc with ⟨rfl, -⟩ | ⟨slot, rfl, -⟩ | ⟨slot, rfl, -⟩ <;> rfl

/-- The call of a core on its way to EL1 gives it its entry point, or it is lost. -/
theorem Core.Starts.answer {core : Core σ} {mpidr : U64} {context : SuspendCoreData} {e : Eff σ}
    {k : e.Resp → Hyp σ Exit} (h : core.Starts context) (ha : core.phase.Allows env mpidr core.call e) (r : e.Resp) :
    (core.answer e k r).phase = .lost ∨ (∃ entryPoint contextId, (core.answer e k r).phase = .entering entryPoint contextId) ∧
      ∃ call, (core.start = .on call ∨ core.start = .resume call) ∧ context = call.context := by
  obtain ⟨sys, mode, phase, call, start, inFlight⟩ := core
  cases phase with
  | entering => exact absurd ha (by cases e <;> exact id)
  | started stackEnd =>
    obtain ⟨call, hstart, hcontext⟩ := h
    cases e with
    | readStartClosure => exact .inr ⟨⟨_, _, rfl⟩, call, .inl hstart, hcontext⟩
    | _ => cases ha
  | restoring =>
    obtain ⟨call, hstart, hcontext⟩ := h
    cases e with
    | suspendRemove =>
      cases r with
      | none => exact .inl rfl
      | some context => exact .inr ⟨⟨_, _, rfl⟩, call, .inr hstart, hcontext⟩
    | _ => cases ha
  | _ => exact h.elim

/-- **Where a core that is about to enter EL1 enters**: where the call that started or suspended it asks. -/
theorem context_of_entering {core : Core σ} {closures : U64 → StartClosure} (hg : core.Granted env closures)
    (hp : core.InProtocol env) {code : Hyp σ Exit} {entryPoint contextId : U64} (hmode : core.mode = .el2 code)
    (hphase : core.phase = .entering entryPoint contextId) {call : GuestCall}
    (hstart : core.start = .on call ∨ core.start = .resume call) : call.context = ⟨entryPoint, contextId⟩ := by
  rcases hstart with hstart | hstart
  · have hgranted := hg call hstart
    rw [hmode, hphase] at hgranted
    obtain ⟨rfl, rfl⟩ := hgranted
    rfl
  · have hcode := hp.of_el2 hmode
    rw [Core.InCode, hphase] at hcode
    exact (hcode.2 call hstart).2.2

end Cores

/-! ## Steps -/

structure Sound [IdMap M] (env : Env M σ) (topo : Topology n) (m : Machine σ env.maxCores n) : Prop where
  closed : Closed env topo m
  confined : Machine.Confined env topo m
  tracked : Tracked topo m
  inProtocol : ∀ i, (m.cores i).InProtocol env

section Steps

variable [IdMap M] {env : Env M σ} {topo : Topology n} {m m' : Machine σ env.maxCores n} {s : Direct.State n}

theorem sound_boot (b : Boot σ n) : Sound env topo (.boot env topo b) where
  closed := closed_boot b
  confined := Machine.confined_boot b
  tracked := tracked_boot b
  inProtocol := inProtocol_boot b

theorem Sound.step (h : Sound env topo m) {choice : Choice n} (hord : CpuOnOrdered env m choice)
    (hc : choice.NoDefaultSuspend) (hstep : Step env topo m choice m') : Sound env topo m' where
  closed := h.closed.step hord hstep
  confined := h.confined.step hc hstep
  tracked := tracked_step h.confined.serving h.tracked hstep
  inProtocol := inProtocol_step h.confined h.tracked h.inProtocol hstep

theorem shows_boot (b : Boot σ n) (i : Fin n) :
    ((Machine.boot env topo b).cores i).Shows env.psci (Direct.boot b.core b.payload b.x0 i) := by
  rw [Direct.boot]
  split
  · rename_i hi
    subst hi
    have hmode : ((Machine.boot env topo b).cores b.core).mode = .el2 (.ret (b.exit env topo)) := if_pos rfl
    have hstarts : ((Machine.boot env topo b).cores b.core).Starts ⟨b.payload, b.x0⟩ := rfl
    exact shows_starting hmode rfl hstarts
  · rename_i hi
    have hmode : ((Machine.boot env topo b).cores i).mode = .off := if_neg hi
    rw [Core.Shows, hmode]

/-- Firmware does not return success from a CPU_ON without having started a core. -/
theorem Machine.smcReturn_ne_zero {i : Fin n} {functionId : U32} {args : List U64} {k : U64 → Hyp σ Exit} {x0 : U64}
    (hmode : (m.cores i).mode = .el2 (.step (.smc functionId args) k))
    (h : m.step env topo (.smcReturn i x0) = some m') (hon : isCpuOn functionId = true) : x0 ≠ 0 := by
  rintro rfl
  simp only [Machine.step, hmode, hon, and_self, if_true] at h
  cases h

/-- The machine without RITM moves from `s`, is seen as given, and shows what the machine shows. -/
def Shown (env : Env M σ) (topo : Topology n) (s : Direct.State n) (seen : List (Event n))
    (m : Machine σ env.maxCores n) : Prop :=
  Moves (Direct.step env.psci fun j => affinityOf (topo.mpidr j)) Direct.see s seen
    fun s' => ∀ i, (m.cores i).Shows env.psci (s' i)

variable (hR : ∀ i, (m.cores i).Shows env.psci (s i))
include hR

omit [IdMap M] in
theorem shown_trap {i : Fin n} {guest : SysRegs} {rs : GuestRegisterState} (hmode : (m.cores i).mode = .guest) :
    Shown env topo s (m.see (.trap i guest rs)) (m.setCore i ((m.cores i).takeTrap env guest rs)) := by
  have hrunning : s i = .running := by
    have := hR i
    rwa [Core.Shows, hmode] at this
  have hasking := asking_takeTrap env (m.cores i) guest rs
  rw [Machine.see]
  split
  · rename_i hp
    rw [if_pos hp] at hasking
    obtain ⟨-, hpsci⟩ := Bool.and_eq_true_iff.1 hp
    refine .one (Direct.step_call hrunning ?_) rfl (shows_set hR (hasking.shows rfl rfl))
    rw [callFrame_call]
    exact hpsci
  · rename_i hp
    rw [if_neg hp] at hasking
    exact .stay (shows_stay hR (hrunning ▸ hasking.shows rfl rfl))

theorem shown_leave (hsound : Sound env topo m) {i : Fin n} {exit : Exit}
    (hmode : (m.cores i).mode = .el2 (.ret exit)) :
    Shown env topo s (m.see (.run i)) (m.setCore i { m.cores i with sys := exit.sysRegs, mode := .guest }) := by
  have hleaves := (hsound.confined.serving i).leaves hmode
  cases hphase : (m.cores i).phase.inTrap with
  | true =>
    obtain ⟨sys, rs, rfl, hcases⟩ := ((hR i).of_inTrap hmode hphase).leaves
    simp only [Machine.see, hmode]
    rcases hcases with ⟨hp, ha⟩ | ⟨hp, ha | ⟨frame, code, ha, hd, hframe⟩⟩
    · rw [hp]
      exact .stay (shows_stay hR (ha ▸ shows_guest rfl))
    · rw [hp, if_pos rfl]
      obtain ⟨hstep, hsee⟩ := Direct.step_resume ha
      exact .one hstep hsee (shows_set hR (shows_guest rfl))
    · rw [hp, if_pos rfl]
      have hanswered := Direct.set_self s i (.answered (frame.fail (errorToU64 (.ofI32 code))))
      obtain ⟨hstep, hsee⟩ := Direct.step_resume hanswered
      refine .silent (Direct.step_reject ha hd) rfl (.one hstep (hframe ▸ hsee) ?_)
      rw [Direct.set, Direct.set, Function.update_idem]
      exact shows_set hR (shows_guest rfl)
  | false =>
    obtain ⟨context, hstarts, ha⟩ := (hR i).of_not_inTrap hmode hphase
    cases exit with
    | resume sys rs =>
      exfalso
      cases hp : (m.cores i).phase with
      | entering | started | restoring | lost =>
        rw [hp] at hleaves
        cases hleaves
      | _ =>
        rw [hp] at hphase
        cases hphase
    | enter sys gprs =>
      obtain ⟨entryPoint, contextId, hp, henters⟩ := hleaves.entering
      obtain ⟨helr, hx0⟩ := henters.entry
      rw [Core.Starts, hp] at hstarts
      subst hstarts
      obtain ⟨hstep, hsee⟩ := Direct.step_begin ha
      have hx0' : Direct.regAt gprs 0 = contextId := hx0
      simp only [Machine.see, hmode, helr, hx0']
      exact .one hstep hsee (shows_set hR (shows_guest rfl))

theorem shown_call (hsound : Sound env topo m) {i : Fin n} {e : Eff σ} {k : e.Resp → Hyp σ Exit} {r : e.Resp}
    {shared : Shared σ env.maxCores} (hmode : (m.cores i).mode = .el2 (.step e k))
    (hp : m.shared.perform e = some (.ok (r, shared)))
    (hsound' : Sound env topo { m.setCore i ((m.cores i).answer e k r) with
      shared := shared, lookups := m.lookups ++ e.lookup i (m.cores i).call (some r), writer := e.writerAfter m.writer i }) :
    Shown env topo s (m.see (.run i)) { m.setCore i ((m.cores i).answer e k r) with
      shared := shared, lookups := m.lookups ++ e.lookup i (m.cores i).call (some r), writer := e.writerAfter m.writer i } := by
  have ha := (hsound.confined.serving i).allows hmode
  simp only [Machine.see, hmode, hp]
  refine .stay (shows_stay hR ?_)
  cases hphase : (m.cores i).phase.inTrap with
  | true =>
    have hne : ∀ functionId args, e ≠ .smc functionId args := fun functionId args he => by
      subst he
      cases hp
    exact (((hR i).of_inTrap hmode hphase).answer hne r).shows rfl (Phase.inTrap_next hphase e r)
  | false =>
    obtain ⟨context, hstarts, hsi⟩ := (hR i).of_not_inTrap hmode hphase
    rw [hsi]
    have hcore := Function.update_self i ((m.cores i).answer e k r) m.cores
    have hgranted := hsound'.closed.granted i
    have hprotocol := hsound'.inProtocol i
    simp only [Machine.setCore_cores, hcore] at hgranted hprotocol
    rcases hstarts.answer ha r with hlost | ⟨⟨entryPoint, contextId, hentering⟩, call, hstart, rfl⟩
    · have hcode := hprotocol.of_el2 rfl
      rw [Core.InCode, hlost] at hcode
      exact hcode.elim
    · refine shows_starting rfl (by rw [hentering]; rfl) ?_
      rw [Core.Starts, hentering]
      exact context_of_entering hgranted hprotocol rfl hentering hstart

omit [IdMap M] in
theorem shown_fail {i : Fin n} {e : Eff σ} {k : e.Resp → Hyp σ Exit} {message : String}
    (hmode : (m.cores i).mode = .el2 (.step e k)) (hp : m.shared.perform e = some (.error message)) :
    Shown env topo s (m.see (.run i)) { m.setCore i { m.cores i with mode := .panicked message } with
      lookups := m.lookups ++ e.lookup i (m.cores i).call none } := by
  have hhalt : Direct.step env.psci (fun j => affinityOf (topo.mpidr j)) s (.halt i) = some (Direct.set s i .halted) := by
    cases hphase : (m.cores i).phase.inTrap with
    | true =>
      obtain ⟨frame, h⟩ := (hR i).of_inTrap hmode hphase
      split at h
      · rcases h with ⟨-, ⟨ha, -⟩ | ⟨x0, ha, -⟩⟩ <;> simp only [Direct.step, ha]
      · simp only [Direct.step, h.1]
    | false =>
      obtain ⟨context, -, ha⟩ := (hR i).of_not_inTrap hmode hphase
      simp only [Direct.step, ha]
  simp only [Machine.see, hmode, hp]
  exact .one hhalt rfl (shows_set hR rfl)

theorem shown_smcReturn (hsound : Sound env topo m) {i : Fin n} {functionId : U32} {args : List U64}
    {k : U64 → Hyp σ Exit} {x0 : U64} (hmode : (m.cores i).mode = .el2 (.step (.smc functionId args) k))
    (hx0 : isCpuOn functionId = true → x0 ≠ 0) :
    Shown env topo s (m.see (.smcReturn i x0)) (m.setCore i ((m.cores i).answer (.smc functionId args) k x0)) := by
  have hphase := ((hsound.confined.serving i).allows hmode).inTrap
  obtain ⟨frame, ha, hasks, hcall, hanswer⟩ := ((hR i).of_inTrap hmode hphase).smc
  have hshows := shows_set (i := i) hR ((hanswer x0).shows rfl (Phase.inTrap_next hphase (.smc functionId args) x0))
  simp only [Machine.see, hmode]
  rcases hasks.cases with ⟨target, entry, hd, rfl, -⟩ | ⟨state, entry, hd, rfl⟩ | ⟨f, hd, hon, hsuspend, hf⟩
  · rw [if_pos (.inl rfl)]
    exact .one (Direct.step_refuse_on ha hd (hx0 rfl)) rfl hshows
  · rw [if_pos (.inr rfl)]
    exact .one (Direct.step_refuse_suspend ha hd) rfl hshows
  · rw [if_neg (not_or.2 hf.ne_mediated)]
    refine .one (Direct.step_forward ha hd hon hsuspend) ?_ hshows
    rw [Direct.see, ha]
    simp only [hf.functionId_eq, hf.args_eq]

theorem shown_smcCpuOn (hsound : Sound env topo m) {i j : Fin n} {functionId : U32} {args : List U64}
    {k : U64 → Hyp σ Exit} {entry contextId : U64}
    (hmode : (m.cores i).mode = .el2 (.step (.smc functionId args) k)) (hoff : (m.cores j).mode = .off)
    (hon : isCpuOn functionId = true)
    (htarget : narrow (functionId.setWidth 64) (args.getD 0 0) = affinityOf (topo.mpidr j)) :
    Shown env topo s (m.see (.smcCpuOn i j)) ((m.setCore i ((m.cores i).answer (.smc functionId args) k (0 : U64))).setCore j
      { m.cores j with mode := .entering entry contextId, start := .on (m.cores i).call }) := by
  have hphase := ((hsound.confined.serving i).allows hmode).inTrap
  obtain ⟨frame, ha, hasks, hcall, hanswer⟩ := ((hR i).of_inTrap hmode hphase).smc
  have hj : s j = .off := by
    have := hR j
    rwa [Core.Shows, hoff] at this
  rcases hasks.cases with ⟨target, entry', hd, rfl, rfl⟩ | ⟨state, entry', hd, rfl⟩ | ⟨f, hd, -, -, hf⟩
  · have haff : args.getD 0 0 = affinityOf (topo.mpidr j) := htarget
    rw [haff] at hd
    refine .one (Direct.step_grant ha hj hd) rfl (shows_set (shows_set hR ?_) ?_)
    · exact (hanswer 0).shows rfl (Phase.inTrap_next hphase (.smc smcCpuOn64 args) (0 : U64))
    · refine ⟨(m.cores i).call, .inl rfl, ?_⟩
      rw [← hcall, context_of_cpuOn hasks.1 hd]
  · exact absurd hon (by decide)
  · have hnon : isCpuOn functionId = false := by simpa [isCpuOn, hf.id_eq] using hf.not_cpuOn
    exact absurd (hon.symm.trans hnon) (by decide)

theorem shown_smcPowerDown (hsound : Sound env topo m) {i : Fin n} {functionId : U32} {args : List U64}
    {k : U64 → Hyp σ Exit} {entry contextId : U64}
    (hmode : (m.cores i).mode = .el2 (.step (.smc functionId args) k))
    (hcarried : carriedEntry functionId args = some (entry, contextId)) (hon : isCpuOn functionId = false) :
    Shown env topo s (m.see (.smcPowerDown i))
      (m.setCore i { m.cores i with mode := .poweredDown entry contextId, start := .resume (m.cores i).call }) := by
  have hallows := (hsound.confined.serving i).allows hmode
  obtain ⟨frame, ha, hasks, hcall, -⟩ := ((hR i).of_inTrap hmode hallows.inTrap).smc
  rcases hasks.cases with ⟨target, entry', -, rfl, -⟩ | ⟨state, entry', hd, rfl⟩ | ⟨f, hd, -, -, hf⟩
  · exact absurd hon (by decide)
  · refine .one (Direct.step_powerDown ha hd) rfl (shows_set hR ⟨(m.cores i).call, rfl, ?_⟩)
    rw [← hcall, context_of_cpuSuspend hasks.1 hd]
  · -- a call that is forwarded and carries an entry point is one of the two that are not made
    obtain ⟨slot, hphase, -⟩ := hallows.carries_suspend hcarried hon (hsound.confined.calls i)
    rw [hphase] at hallows
    exact absurd hallows.1 hf.ne_mediated.2

theorem shown_smcOff (hsound : Sound env topo m) {i : Fin n} {args : List U64} {k : U64 → Hyp σ Exit}
    (hmode : (m.cores i).mode = .el2 (.step (.smc smcCpuOff args) k)) :
    Shown env topo s (m.see (.smcOff i)) (m.setCore i { m.cores i with mode := .off }) := by
  have hphase := ((hsound.confined.serving i).allows hmode).inTrap
  obtain ⟨frame, ha, hasks, hcall, -⟩ := ((hR i).of_inTrap hmode hphase).smc
  rcases hasks.cases with ⟨target, entry', -, hid, -⟩ | ⟨state, entry', -, hid⟩ | ⟨f, hd, -, -, hf⟩
  · exact absurd hid (by decide)
  · exact absurd hid (by decide)
  · have hids := (env.psci.tryFrom_ok hasks.1 hd).1
    rw [← hf.id_eq] at hids
    rw [eq_cpuOff hids] at hd
    exact .one (Direct.step_turnOff ha hd) rfl (shows_set hR rfl)

omit [IdMap M] in
theorem shown_wake {i : Fin n} {entry contextId : U64} (hmode : (m.cores i).mode = .poweredDown entry contextId) :
    Shown env topo s (m.see (.wake i)) (m.setCore i { m.cores i with mode := .entering entry contextId }) := by
  have hi := hR i
  rw [Core.Shows, hmode] at hi
  obtain ⟨call, hstart, ha⟩ := hi
  exact .one (Direct.step_wake ha) rfl (shows_set hR ⟨call, .inr hstart, rfl⟩)

theorem shown_enterEl2 (hsound : Sound env topo m) {i : Fin n} {sys : SysRegs} {entry contextId : U64}
    (hmode : (m.cores i).mode = .entering entry contextId) :
    Shown env topo s (m.see (.enterEl2 i sys))
      (m.setCore i ((m.cores i).enterEl2 env (topo.mpidr i) sys entry contextId)) := by
  have hi := hR i
  rw [Core.Shows, hmode] at hi
  obtain ⟨call, hstart, ha⟩ := hi
  have hown := hsound.confined.contained i
  rw [Core.Contained, hmode] at hown
  have hfirmware : (m.cores i).WithFirmware env entry := by
    have := hsound.inProtocol i
    rwa [Core.InProtocol, hmode] at this
  unfold Core.WithFirmware at hfirmware
  refine .stay (shows_stay hR (ha ▸ ?_))
  rcases hown with rfl | rfl
  · rw [if_neg env.rt.entry_ne] at hfirmware
    have hon := hstart.resolve_right (hfirmware.2 call)
    rw [Core.enterEl2, if_pos rfl]
    exact shows_starting rfl rfl ⟨call, hon, rfl⟩
  · rw [if_pos rfl] at hfirmware
    have hresume : (m.cores i).start = .resume call := hstart.resolve_left fun hon => by
      cases hon.symm.trans hfirmware.2.2
    rw [Core.enterEl2, if_neg env.rt.entry_ne.symm, if_pos rfl]
    exact shows_starting rfl rfl ⟨call, hresume, rfl⟩

theorem shown_step (hsound : Sound env topo m) {choice : Choice n} (hsound' : Sound env topo m')
    (h : m.step env topo choice = some m') : Shown env topo s (m.see choice) m' := by
  have hstep := Machine.step_cases h
  cases hstep with
  | trap hmode => exact shown_trap hR hmode
  | leave hmode => exact shown_leave hR hsound hmode
  | call hmode hp => exact shown_call hR hsound hmode hp hsound'
  | fail hmode hp => exact shown_fail hR hmode hp
  | smcReturn hmode => exact shown_smcReturn hR hsound hmode (Machine.smcReturn_ne_zero hmode h)
  | smcCpuOn hmode hoff _ hon htarget => exact shown_smcCpuOn hR hsound hmode hoff hon htarget
  | smcPowerDown hmode hcarried hon => exact shown_smcPowerDown hR hsound hmode hcarried hon
  | smcOff hmode => exact shown_smcOff hR hsound hmode
  | wake hmode => exact shown_wake hR hmode
  | enterEl2 hmode => exact shown_enterEl2 hR hsound hmode

theorem shown_run {choices : List (Choice n)} (hsound : Sound env topo m)
    (hruns : Meets (Machine.step env topo) (fun m choice => CpuOnOrdered env m choice ∧ choice.NoDefaultSuspend) m choices)
    (hrun : run (Machine.step env topo) m choices = some m') :
    Moves (Direct.step env.psci fun j => affinityOf (topo.mpidr j)) Direct.see s
      (Lib.trace (Machine.step env topo) Machine.see m choices)
      fun s' => Sound env topo m' ∧ ∀ i, (m'.cores i).Shows env.psci (s' i) := by
  refine Lib.simulation (R := fun m s => Sound env topo m ∧ ∀ i, (m.cores i).Shows env.psci (s i))
    (fun m choice m' s h hC hstep => ?_) choices m m' s ⟨hsound, hR⟩ hruns hrun
  have hsound' := h.1.step hC.1 hC.2 (Machine.step_cases hstep)
  obtain ⟨actions, s', hactions, htrace, hR'⟩ := shown_step h.2 h.1 hsound' hstep
  exact ⟨actions, s', hactions, htrace, hsound', hR'⟩

end Steps

/-- **RITM shows its guests PSCI firmware.**  What guests and firmware see of a run, with its CPU_ONs in order and
without CPU_DEFAULT_SUSPEND and SYSTEM_SUSPEND, they see of a run of the machine that has firmware and no RITM. -/
theorem refines_psci [IdMap M] (env : Env M σ) (topo : Topology n) (b : Boot σ n) (choices : List (Choice n))
    (hruns : Meets (Machine.step env topo) (fun m choice => CpuOnOrdered env m choice ∧ choice.NoDefaultSuspend)
      (.boot env topo b) choices)
    (m : Machine σ env.maxCores n) (hrun : run (Machine.step env topo) (.boot env topo b) choices = some m) :
    ∃ actions s, run (Direct.step env.psci fun j => affinityOf (topo.mpidr j)) (Direct.boot b.core b.payload b.x0) actions =
        some s ∧
      Lib.trace (Direct.step env.psci fun j => affinityOf (topo.mpidr j)) Direct.see (Direct.boot b.core b.payload b.x0)
        actions = Lib.trace (Machine.step env topo) Machine.see (.boot env topo b) choices := by
  obtain ⟨actions, s, hactions, htrace, -⟩ := shown_run (shows_boot b) (sound_boot b) hruns hrun
  exact ⟨actions, s, hactions, htrace⟩

theorem refines_psci_mediated : ∃ m, bareRun (mediatedRun ++ [.run core1, .run core1]) = some m ∧
    ∃ actions s, run (Direct.step bareEnv.psci fun j => affinityOf (threeCores.mpidr j))
        (Direct.boot bareBoot.core bareBoot.payload bareBoot.x0) actions = some s ∧
      Lib.trace (Direct.step bareEnv.psci fun j => affinityOf (threeCores.mpidr j)) Direct.see
        (Direct.boot bareBoot.core bareBoot.payload bareBoot.x0) actions =
        Lib.trace (Machine.step bareEnv threeCores) Machine.see (.boot bareEnv threeCores bareBoot)
          (mediatedRun ++ [.run core1, .run core1]) := by
  obtain ⟨m, hm⟩ := Option.isSome_iff_exists.1
    (show (bareRun (mediatedRun ++ [.run core1, .run core1])).isSome = true by decide +kernel)
  have hruns : Meets (Machine.step bareEnv threeCores)
      (fun m choice => CpuOnOrdered bareEnv m choice ∧ choice.NoDefaultSuspend) (.boot bareEnv threeCores bareBoot)
      (mediatedRun ++ [.run core1, .run core1]) := by decide +kernel
  exact ⟨m, hm, refines_psci bareEnv threeCores bareBoot _ hruns m hm⟩

end Ritm
