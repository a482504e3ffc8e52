import Ritm.Machine
/-!
# Isolation — no guest reaches EL2 through PSCI

A CPU_ON and a CPU_SUSPEND reach firmware with the runtime's own entry points.  CPU_DEFAULT_SUSPEND and SYSTEM_SUSPEND,
which carry an entry point as well, are forwarded as they are: a guest that makes one gets EL2 at an address of its
choice.  In every run without those two, no core enters EL2 at an address that is not RITM's, and guests run behind
stage 2 (`Confined`).
-/
namespace Ritm

open Lib (run Meets)

variable {M σ : Type} {n : Nat}

def Choice.NoDefaultSuspend (choice : Choice n) : Prop := choice.Calls (fun call => call.fnId ∉ defaultSuspendIds)

instance (choice : Choice n) : Decidable choice.NoDefaultSuspend := inferInstanceAs (Decidable (choice.Calls _))

def Env.OwnEntry (env : Env M σ) (entry : U64) : Prop := entry = env.rt.secondaryEntry ∨ entry = env.rt.resumeEntry

/-- **Isolation**: no core is at EL2 at an address that is not RITM's, no SMC asks for such a thing, and guest code runs
at EL1 or EL0 behind the configured stage 2, entered through `entry_point_el1`. -/
structure Isolated [IdMap M] (env : Env M σ) (topo : Topology n) (m : Machine σ env.maxCores n) : Prop where
  no_rogue : ∀ i entry, (m.cores i).mode ≠ .rogue entry
  smc_entry : ∀ i functionId args k entry contextId, (m.cores i).mode = .el2 (.step (.smc functionId args) k) →
    carriedEntry functionId args = some (entry, contextId) → env.OwnEntry entry
  enters : ∀ i sys gprs, (m.cores i).mode = .el2 (.ret (.enter sys gprs)) →
    ∃ entryPoint contextId, EntersThrough env (topo.mpidr i) entryPoint contextId sys gprs
  leaves : ∀ i exit, (m.cores i).mode = .el2 (.ret exit) → GuestReady env (topo.mpidr i) exit.sysRegs
  guest : ∀ i, (m.cores i).mode = .guest → GuestReady env (topo.mpidr i) (m.cores i).sys

def Core.Contained (env : Env M σ) (core : Core σ) : Prop :=
  match core.mode with
  | .entering entry _ | .poweredDown entry _ => env.OwnEntry entry
  | .rogue _ => False
  | _ => True

variable {env : Env M σ} {topo : Topology n} {m m' : Machine σ env.maxCores n}

variable [IdMap M]

theorem contained_enterEl2 (core : Core σ) {entry : U64} (hown : env.OwnEntry entry) (mpidr : U64) (sys : SysRegs)
    (contextId : U64) : (core.enterEl2 env mpidr sys entry contextId).Contained env := by
  unfold Core.enterEl2
  dsimp only
  split
  · trivial
  split
  · trivial
  · rename_i hsecondary hresume
    exact absurd hown (not_or.2 ⟨hsecondary, hresume⟩)

theorem ownEntry {core : Core σ} {mpidr : U64} (hs : core.Serving env mpidr) (hcall : core.call.fnId ∉ defaultSuspendIds)
    {functionId : U32} {args : List U64} {k : U64 → Hyp σ Exit}
    (hmode : core.mode = .el2 (.step (.smc functionId args) k)) {entry contextId : U64}
    (hcarried : carriedEntry functionId args = some (entry, contextId)) : env.OwnEntry entry := by
  rcases (hs.allows hmode).carries hcarried with ⟨_, -, -, h', -⟩ | ⟨_, -, -, h'⟩ | ⟨-, -, h'⟩
  · exact .inl h'
  · exact .inr h'
  · exact absurd h' hcall

namespace Machine

theorem contained_step {choice : Choice n} (hs : ∀ i, (m.cores i).Serving env (topo.mpidr i))
    (hcall : ∀ i, (m.cores i).call.fnId ∉ defaultSuspendIds) (h : ∀ i, (m.cores i).Contained env)
    (hstep : Step env topo m choice m') (i : Fin n) : (m'.cores i).Contained env := by
  cases hstep with
  | @smcCpuOn i j _ _ _ _ _ hmode _ hcarried =>
    refine forall_setCore (m := m.setCore i _) (forall_setCore h ?_) ?_ _
    · trivial
    · exact ownEntry (hs i) (hcall i) hmode hcarried
  | @smcPowerDown i _ _ _ _ _ hmode hcarried =>
    refine forall_setCore h ?_ _
    exact ownEntry (hs i) (hcall i) hmode hcarried
  | @wake i _ _ hmode =>
    refine forall_setCore h ?_ _
    have hi := h i
    rwa [Core.Contained, hmode] at hi
  | @enterEl2 i _ _ _ hmode =>
    have hi := h i
    rw [Core.Contained, hmode] at hi
    exact forall_setCore h (contained_enterEl2 _ hi _ _ _) _
  | _ =>
    refine forall_setCore h ?_ _
    trivial

theorem contained_boot (b : Boot σ n) (i : Fin n) : ((boot env topo b).cores i).Contained env := by
  unfold Core.Contained boot
  dsimp only
  split_ifs <;> trivial

/-- **What holds in every run without the two calls.** -/
structure Confined (env : Env M σ) (topo : Topology n) (m : Machine σ env.maxCores n) : Prop where
  serving : ∀ i, (m.cores i).Serving env (topo.mpidr i)
  calls : ∀ i, (m.cores i).call.fnId ∉ defaultSuspendIds
  contained : ∀ i, (m.cores i).Contained env

theorem confined_boot (b : Boot σ n) : Confined env topo (boot env topo b) where
  serving := serving_boot b
  calls _ := by
    show (default : GuestCall).fnId ∉ defaultSuspendIds
    decide
  contained := contained_boot b

theorem Confined.step (h : Confined env topo m) {choice : Choice n} (hc : choice.NoDefaultSuspend)
    (hstep : Step env topo m choice m') : Confined env topo m' where
  serving := serving_step h.serving hstep
  calls := calls_step hc h.calls hstep
  contained := contained_step h.serving h.calls h.contained hstep

theorem confined_run (b : Boot σ n) {choices : List (Choice n)} (hc : ∀ choice ∈ choices, choice.NoDefaultSuspend)
    (hrun : run (Machine.step env topo) (.boot env topo b) choices = some m) : Confined env topo m :=
  Lib.invariant (fun _ _ _ h hchoice hs => h.step hchoice (step_cases hs)) choices _ m (confined_boot b)
    (Lib.meets_of_forall _ hc) hrun

theorem Confined.isolated (h : Confined env topo m) : Isolated env topo m where
  no_rogue i entry hmode := by
    have hi := h.contained i
    rwa [Core.Contained, hmode] at hi
  smc_entry i _ _ _ _ _ hmode hcarried := ownEntry (h.serving i) (h.calls i) hmode hcarried
  enters i sys gprs hmode := by
    obtain ⟨entryPoint, contextId, -, henters⟩ := ((h.serving i).leaves hmode).entering
    exact ⟨entryPoint, contextId, henters⟩
  leaves i exit hmode := ((h.serving i).leaves hmode).ready
  guest i hmode := by
    have hi := h.serving i
    rwa [Core.Serving, hmode] at hi

end Machine

/-- **Isolation across PSCI**, in every state of every run in which no guest calls CPU_DEFAULT_SUSPEND or
SYSTEM_SUSPEND. -/
theorem isolated_of_no_default_suspend (env : Env M σ) (topo : Topology n) (b : Boot σ n) (choices : List (Choice n))
    (hc : ∀ choice ∈ choices, choice.NoDefaultSuspend) (m : Machine σ env.maxCores n)
    (hrun : run (Machine.step env topo) (.boot env topo b) choices = some m) : Isolated env topo m :=
  (Machine.confined_run b hc hrun).isolated

def mediatedRun : List (Choice 3) :=
  [.run core0, .smcTrap core0 0xC4000003 1 0x48000000 7, .run core0, .run core0, .smcCpuOn core0 core1,
    .enterEl2 core1 default, .run core1, .run core1, .smcTrap core1 0xC4000001 0x10000 0x49000000 8, .run core1,
    .run core1, .smcPowerDown core1, .wake core1, .enterEl2 core1 default]

theorem isolated_of_no_default_suspend_mediated : ∃ m, bareRun mediatedRun = some m ∧ Isolated bareEnv threeCores m := by
  obtain ⟨m, hm⟩ := Option.isSome_iff_exists.1 (show (bareRun mediatedRun).isSome = true by decide +kernel)
  have hc : ∀ choice ∈ mediatedRun, choice.NoDefaultSuspend := by decide +kernel
  exact ⟨m, hm, isolated_of_no_default_suspend bareEnv threeCores bareBoot mediatedRun hc m hm⟩

def Mode.lostAt : Mode σ → Option U64
  | .rogue entry => some entry
  | _ => none

/-- SYSTEM_SUSPEND with the guest's address: the core wakes at EL2, there. -/
theorem system_suspend_reaches_el2 : ∃ m,
    bareRun [.run 0, .smcTrap 0 0xC400000E 0x48000000 7 0, .smcPowerDown 0, .wake 0, .enterEl2 0 default] = some m ∧
      (m.cores 0).mode = .rogue 0x48000000 ∧ ¬ Isolated bareEnv threeCores m := by
  have hobs : (bareRun
      [.run 0, .smcTrap 0 0xC400000E 0x48000000 7 0, .smcPowerDown 0, .wake 0, .enterEl2 0 default]).map
      (fun m => (m.cores 0).mode.lostAt) = some (some 0x48000000) := by decide +kernel
  obtain ⟨m, hm, hlost⟩ := Option.map_eq_some_iff.1 hobs
  have hmode : (m.cores 0).mode = .rogue 0x48000000 := by
    unfold Mode.lostAt at hlost
    split at hlost
    · rename_i hmode
      cases hlost
      exact hmode
    · cases hlost
  exact ⟨m, hm, hmode, fun hiso => hiso.no_rogue 0 _ hmode⟩

end Ritm
