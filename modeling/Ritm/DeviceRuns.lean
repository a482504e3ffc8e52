import Ritm.El2Visits
import Ritm.GuestMemory
import Ritm.QemuDevice
/-!
# DeviceRuns — one device behind the traps of all cores

Data aborts of different cores are served at the same time, between calls of all kinds, and their callbacks share the
platform's device.  In every run the callbacks, in the order they are made, are one history of the device: nothing else
changes it, and every one of them was registered.  On QEMU the values of the counter register are therefore handed out one
after the other, each once, whichever cores ask for them.
-/
namespace Ritm

open Lib (Prog run)
open Lib.Prog (Replays)

variable {M σ : Type} {n maxCores : Nat}

/-- The callback a step makes, with its answer. -/
def Machine.callback (m : Machine σ maxCores n) : Choice n → List (CallRecord σ)
  | .run i =>
    match (m.cores i).mode with
    | .el2 (.step e _) =>
      match deviceHandler m.shared.device e with
      | some (r, _) => [⟨e, r⟩]
      | none => []
    | _ => []
  | _ => []

namespace Machine

section History

variable [IdMap M] {env : Env M σ} {topo : Topology n} {m m' : Machine σ env.maxCores n} {choice : Choice n}

abbrev Registered (m : Machine σ env.maxCores n) : Prop :=
  ∀ i, (m.cores i).Keeps (GuestConfigured env) (CallsRegistered env fun exit => GuestConfigured env exit.sysRegs)

omit [IdMap M] in
theorem callback_eq {i : Fin n} {e : Eff σ} {k : e.Resp → Hyp σ Exit} (hmode : (m.cores i).mode = .el2 (.step e k)) :
    m.callback (.run i) = match deviceHandler m.shared.device e with
      | some (r, _) => [⟨e, r⟩]
      | none => [] := by
  rw [callback, hmode]

theorem replays_callback (hstep : Step env topo m choice m') :
    Replays deviceHandler m.shared.device (m.callback choice) m'.shared.device := by
  cases hstep with
  | @call i e k r shared hmode hp =>
    rw [callback_eq hmode]
    cases e with
    | callRead handler access =>
      cases hp
      exact ⟨_, rfl, rfl⟩
    | callWrite handler access =>
      cases hp
      exact ⟨_, rfl, rfl⟩
    | getSecondaryStack =>
      obtain ⟨_, -, rfl⟩ := Shared.perform_getSecondaryStack hp
      rfl
    | suspendInsert =>
      obtain ⟨_, _, -, rfl⟩ := Shared.perform_suspendInsert hp
      rfl
    | writeStartClosure | readStartClosure | suspendRemove =>
      cases hp
      rfl
    | smc | panic => cases hp
  | @fail i e k message hmode hp =>
    rw [callback_eq hmode]
    cases e with
    | callRead | callWrite => cases hp
    | _ => rfl
  | leave hmode =>
    rw [callback, hmode]
    rfl
  | _ => rfl

theorem callback_registered (h : m.Registered) {c : CallRecord σ} (hc : c ∈ m.callback choice) :
    c.1.Registered env.config.memoryAccessHandlers := by
  unfold callback at hc
  split at hc
  · rename_i i
    split at hc
    · rename_i e k hmode
      have hcode := h i
      rw [Core.Keeps, hmode] at hcode
      split at hc
      · rw [List.mem_singleton.1 hc]
        exact hcode.1
      · cases hc
    · cases hc
  · cases hc

abbrev callbacks (env : Env M σ) (topo : Topology n) (m : Machine σ env.maxCores n) (choices : List (Choice n)) :
    List (CallRecord σ) :=
  Lib.trace (step env topo) callback m choices

/-- **The callbacks of all cores are one history of the device**: replayed one after the other from its first state they
give its state now, and each is registered. -/
theorem history_run : ∀ {choices : List (Choice n)} {m : Machine σ env.maxCores n}, m.Registered →
    run (step env topo) m choices = some m' →
    Replays deviceHandler m.shared.device (callbacks env topo m choices) m'.shared.device ∧
      ∀ c ∈ callbacks env topo m choices, c.1.Registered env.config.memoryAccessHandlers
  | [], m, _, hrun => by
    cases hrun
    exact ⟨rfl, nofun⟩
  | choice :: choices, m, h, hrun => by
    obtain ⟨m₁, hstep, hrun'⟩ := Lib.run_cons hrun
    have hstep' := step_cases hstep
    obtain ⟨hreplays, hregistered⟩ := history_run ((codeRules env).keeps_step h hstep') hrun'
    rw [callbacks, Lib.trace_cons choices hstep]
    refine ⟨Prog.replays_append hreplays (replays_callback hstep'), fun c hc => ?_⟩
    rcases List.mem_append.1 hc with hc | hc
    · exact callback_registered h hc
    · exact hregistered c hc

end History

end Machine

/-! ## QEMU's counter -/

namespace Qemu

theorem stage2Config_registry [IdMap M] {image : Image} {config : Stage2Config M U64}
    (h : stage2Config M image = some config) :
    ∀ g ∈ config.memoryAccessHandlers.regions.items, g.handler = filteredMmioHandler := by
  unfold stage2Config at h
  split at h
  · rename_i b hb
    cases h
    exact (configure_registry hb).2
  · cases h

theorem counter_of_replays {registry : MemoryAccessHandlerRegistry U64}
    (hdev : ∀ g ∈ registry.regions.items, g.handler = filteredMmioHandler) :
    ∀ {log : List (CallRecord U64)} {c : Nat} {d : U64}, Replays deviceHandler (BitVec.ofNat 64 c) log d →
      (∀ call ∈ log, call.1.Registered registry) →
      log.filterMap counterRead = (List.range' c (log.filterMap counterRead).length).map (BitVec.ofNat 64)
  | [], _, _, _, _ => rfl
  | ⟨e, r⟩ :: log, c, d, ⟨d₁, hd, hreplays⟩, hregistered => by
    obtain ⟨hcall, hrest⟩ := List.forall_mem_cons.1 hregistered
    have hcases := counterRead_cases hd
      (by
        rintro handler access rfl
        obtain ⟨g, hg, hread⟩ := hcall
        rw [hdev g hg] at hread
        exact (Option.some.inj hread).symm)
      (by
        rintro handler access rfl
        obtain ⟨g, hg, hwrite⟩ := hcall
        rw [hdev g hg] at hwrite
        exact (Option.some.inj hwrite).symm)
    rcases hcases with ⟨hnone, rfl⟩ | ⟨hone, rfl⟩
    · rw [List.filterMap_cons_none hnone]
      exact counter_of_replays hdev hreplays hrest
    · have hreplays' : Replays deviceHandler (BitVec.ofNat 64 (c + 1)) log d := by
        rw [BitVec.ofNat_add]
        exact hreplays
      have ih := counter_of_replays hdev hreplays' hrest
      rw [List.filterMap_cons_some hone, List.length_cons, List.range'_succ, List.map_cons, ← ih]

/-- **Reads of the counter register are numbered in order**: over any run on QEMU, of any cores and with whatever happens
in between, the values read are 0, 1, 2, … as 64-bit numbers. -/
theorem counter_values_in_order [IdMap M] (image : Image) (env : Env M U64)
    (henv : stage2Config M image = some env.config) (topo : Topology n) (b : Boot U64 n) (hzero : b.device = 0)
    (choices : List (Choice n)) (m : Machine U64 env.maxCores n)
    (hrun : run (Machine.step env topo) (.boot env topo b) choices = some m) :
    let values := (Machine.callbacks env topo (.boot env topo b) choices).filterMap counterRead
    values = (List.range values.length).map (BitVec.ofNat 64) := by
  intro values
  obtain ⟨hreplays, hregistered⟩ := Machine.history_run ((codeRules env).keeps_boot topo b) hrun
  have hstart : (Machine.boot env topo b).shared.device = BitVec.ofNat 64 0 := hzero
  rw [hstart] at hreplays
  have hvalues := counter_of_replays (stage2Config_registry henv) hreplays hregistered
  rwa [← List.range_eq_range'] at hvalues

/-- Cores 0 and 1 trap on the counter register at the same time, core 0 twice. -/
def counterRun : List (Choice 3) :=
  mediatedRun.take 8 ++ [.run core0, .trap core0 counterTrap.1 counterTrap.2, .trap core1 counterTrap.1 counterTrap.2,
    .run core1, .run core0, .run core0, .trap core0 counterTrap.1 counterTrap.2, .run core1, .run core0]

theorem counter_values_in_order_two_cores : ∃ m,
    run (Machine.step virtEnv threeCores) (.boot virtEnv threeCores virtBoot) counterRun = some m ∧
      (Machine.callbacks virtEnv threeCores (.boot virtEnv threeCores virtBoot) counterRun).filterMap counterRead =
        [0, 1, 2] := by
  obtain ⟨m, hm⟩ := Option.isSome_iff_exists.1 (show
    (run (Machine.step virtEnv threeCores) (.boot virtEnv threeCores virtBoot) counterRun).isSome = true by
      decide +kernel)
  have hlength : ((Machine.callbacks virtEnv threeCores (.boot virtEnv threeCores virtBoot) counterRun).filterMap
      counterRead).length = 3 := by decide +kernel
  refine ⟨m, hm, ?_⟩
  rw [counter_values_in_order alignedImage virtEnv stage2Config_virtEnv threeCores virtBoot rfl counterRun m hm, hlength]
  rfl

end Qemu

end Ritm
