import Ritm.Machine
/-!
# CpuOn — which guest a started core enters

A CPU_ON leaves its closure at the end of the target's stack and then asks firmware to start the core, without a lock
from one to the other.  Two CPU_ONs for one target share the stack: the one that firmware refuses may have written last,
and then the started core enters the guest of the refused call.

The started core enters where the granted call asked in every run in which firmware grants a CPU_ON only to the core
that last wrote the closure, and no CPU_ON writes it again before the started core has read it (`Closed`).
-/
namespace Ritm

open Lib (run Meets)

variable {M σ : Type} {n : Nat}

namespace Mode

def awaited (env : Env M σ) : Mode σ → Option U64
  | .entering entry contextId => if entry = env.rt.secondaryEntry then some contextId else none
  | .el2 (.step (.readStartClosure stackEnd) _) => some stackEnd
  | _ => none

def written : Mode σ → Option U64
  | .el2 (.step (.writeStartClosure stackEnd _) _) => some stackEnd
  | _ => none

def given : Mode σ → Option U64
  | .el2 (.step (.smc _ args) _) => some (args.getD 2 0)
  | _ => none

end Mode

/-- **CPU_ONs of one target are in order**: the one that is granted wrote the closure last, and none writes a closure
that a core started by another is still to read. -/
def CpuOnOrdered (env : Env M σ) (m : Machine σ env.maxCores n) : Choice n → Prop
  | .smcCpuOn i _ => ∀ stackEnd ∈ (m.cores i).mode.given, m.writer stackEnd = some i
  | .run i => ∀ stackEnd ∈ (m.cores i).mode.written,
      ∀ j, (m.cores j).start.isOn = true → (m.cores j).mode.awaited env ≠ some stackEnd
  | _ => True

instance (env : Env M σ) (m : Machine σ env.maxCores n) : (choice : Choice n) → Decidable (CpuOnOrdered env m choice)
  | .smcCpuOn i _ => Option.decidableForallMem (m.cores i).mode.given
  | .run i => Option.decidableForallMem (m.cores i).mode.written
  | .trap .. | .smcReturn .. | .smcPowerDown _ | .smcOff _ | .wake _ | .enterEl2 .. => isTrue trivial

/-- **A started core enters the guest of the call that started it.** -/
structure CpuOnAgreement [IdMap M] (env : Env M σ) (topo : Topology n) (m : Machine σ env.maxCores n) : Prop where
  starts : ∀ j call entry contextId, (m.cores j).start = .on call → (m.cores j).mode = .entering entry contextId →
    entry = env.rt.secondaryEntry
  reads : ∀ j stackEnd code, (m.cores j).mode = .el2 code → (m.cores j).phase = .started stackEnd →
    ∃ m' sys gprs, m.step env topo (.run j) = some m' ∧ (m'.cores j).mode = .el2 (.ret (.enter sys gprs))
  enters : ∀ j call sys gprs, (m.cores j).start = .on call → (m.cores j).mode = .el2 (.ret (.enter sys gprs)) →
    sys.elrEl2 = call.entry.entryPointAddress ∧ gprs 0 = call.entry.contextId

/-! ## What the closures hold -/

/-- The closure a started core is to read, or has read, is that of the call that started it. -/
def Core.Granted (env : Env M σ) (closures : U64 → StartClosure) (core : Core σ) : Prop :=
  ∀ call, core.start = .on call →
    match core.mode with
    | .entering entry stackEnd => entry = env.rt.secondaryEntry ∧ closures stackEnd = call.closure
    | .poweredDown .. => False
    | .el2 _ =>
      match core.phase with
      | .started stackEnd => closures stackEnd = call.closure
      | .entering entryPoint contextId => entryPoint = call.entry.entryPointAddress ∧ contextId = call.entry.contextId
      | .restoring => False
      | _ => True
    | _ => True

/-- A CPU_ON that is with firmware finds its own closure, if no other core has written since. -/
def Core.Wrote (env : Env M σ) (closures : U64 → StartClosure) (writer : U64 → Option (Fin n)) (i : Fin n)
    (core : Core σ) : Prop :=
  ∀ code slot, core.mode = .el2 code → core.phase = .onWritten slot → writer (env.rt.stackEnd slot) = some i →
    closures (env.rt.stackEnd slot) = core.call.closure

section Core

variable {env : Env M σ} {mpidr : U64} {closures closures' : U64 → StartClosure} {core : Core σ}

theorem Core.Granted.write [IdMap M] (h : core.Granted env closures) (hs : core.Serving env mpidr)
    (hsame : ∀ stackEnd, core.start.isOn = true → core.mode.awaited env = some stackEnd →
      closures' stackEnd = closures stackEnd) :
    core.Granted env closures' := by
  intro call hstart
  have hcall := h call hstart
  obtain ⟨sys, mode, phase, call', start, inFlight⟩ := core
  cases mode with
  | entering entry stackEnd =>
    obtain ⟨rfl, hclosure⟩ := hcall
    exact ⟨rfl, (hsame stackEnd (Start.isOn_of_eq hstart) (if_pos rfl)).trans hclosure⟩
  | el2 code =>
    cases phase with
    | started stackEnd =>
      obtain ⟨k, rfl, -⟩ := Serves.started hs
      exact (hsame stackEnd (Start.isOn_of_eq hstart) rfl).trans hcall
    | _ => exact hcall
  | _ => exact hcall

theorem Core.Granted.answer {e : Eff σ} {k : e.Resp → Hyp σ Exit} (h : core.Granted env closures)
    (hmode : core.mode = .el2 (.step e k)) (ha : core.phase.Allows env mpidr core.call e)
    (hne : ∀ stackEnd, e ≠ .readStartClosure stackEnd) (r : e.Resp) : (core.answer e k r).Granted env closures' := by
  intro call hstart
  have hcall := h call hstart
  obtain ⟨sys, mode, phase, call', start, inFlight⟩ := core
  subst hmode
  cases e with
  | readStartClosure stackEnd => exact absurd rfl (hne stackEnd)
  | suspendRemove key =>
    rcases ha.suspendRemove.1 with rfl | rfl
    · trivial
    · exact hcall.elim
  | getSecondaryStack key =>
    rcases ha.getSecondaryStack with ⟨rfl, -⟩ | ⟨rfl, -⟩ <;> trivial
  | smc =>
    rcases ha.smc with ⟨rfl, -⟩ | ⟨slot, rfl, -⟩ | ⟨slot, rfl, -⟩ <;> trivial
  | writeStartClosure =>
    obtain ⟨slot, rfl, -⟩ := ha.writeStartClosure
    trivial
  | suspendInsert =>
    obtain ⟨rfl, -⟩ := ha.suspendInsert
    trivial
  | callRead | callWrite =>
    cases phase with
    | trapped => trivial
    | _ => cases ha
  | panic => exact nomatch r

theorem Core.Granted.answer_read {stackEnd : U64} {k : StartClosure → Hyp σ Exit} (h : core.Granted env closures)
    (hmode : core.mode = .el2 (.step (.readStartClosure stackEnd) k))
    (ha : core.phase.Allows env mpidr core.call (.readStartClosure stackEnd)) :
    (core.answer (.readStartClosure stackEnd) k (closures stackEnd)).Granted env closures := by
  intro call hstart
  have hcall := h call hstart
  obtain ⟨sys, mode, phase, call', start, inFlight⟩ := core
  subst hmode
  obtain rfl := ha.readStartClosure
  have hclosure : closures stackEnd = call.closure := hcall
  show (closures stackEnd).entry.entryPointAddress = _ ∧ (closures stackEnd).entry.contextId = _
  rw [hclosure]
  exact ⟨rfl, rfl⟩

theorem Core.Granted.enterEl2 [IdMap M] {entry stackEnd : U64} (h : core.Granted env closures)
    (hmode : core.mode = .entering entry stackEnd) (sys : SysRegs) :
    (core.enterEl2 env mpidr sys entry stackEnd).Granted env closures := by
  intro call hstart
  rw [(Core.enterEl2_history ..).2.1] at hstart
  have hcall := h call hstart
  rw [hmode] at hcall
  obtain ⟨rfl, hclosure⟩ := hcall
  rw [Core.enterEl2, if_pos rfl]
  exact hclosure

end Core

theorem Phase.Allows.next_onWritten {env : Env M σ} {mpidr : U64} {call : GuestCall} {phase : Phase} {e : Eff σ}
    {r : e.Resp} {slot : Nat} (ha : phase.Allows env mpidr call e) (hnext : phase.next e r = .onWritten slot) :
    e = .writeStartClosure (env.rt.stackEnd slot) call.closure := by
  cases e with
  | writeStartClosure =>
    obtain ⟨slot', rfl, rfl, rfl⟩ := ha.writeStartClosure
    cases hnext
    rfl
  | getSecondaryStack =>
    rcases ha.getSecondaryStack with ⟨rfl, -⟩ | ⟨rfl, -⟩ <;> cases hnext
  | readStartClosure =>
    obtain rfl := ha.readStartClosure
    cases hnext
  | suspendInsert =>
    obtain ⟨rfl, -⟩ := ha.suspendInsert
    cases hnext
  | suspendRemove =>
    rcases ha.suspendRemove.1 with rfl | rfl
    · cases hnext
    · cases r <;> cases hnext
  | smc =>
    rcases ha.smc with ⟨rfl, -⟩ | ⟨_, rfl, -⟩ | ⟨_, rfl, -⟩ <;> cases hnext
  | callRead | callWrite =>
    cases phase with
    | trapped => cases hnext
    | _ => cases ha
  | panic => exact nomatch r

theorem Core.Wrote.write {env : Env M σ} {closures : U64 → StartClosure} {writer : U64 → Option (Fin n)} {i j : Fin n}
    {core : Core σ} (h : core.Wrote env closures writer j) (hj : j ≠ i) (stackEnd : U64) (closure : StartClosure) :
    core.Wrote env (Function.update closures stackEnd closure) (Function.update writer stackEnd (some i)) j := by
  intro code slot hcode hphase hwriter
  have hne : env.rt.stackEnd slot ≠ stackEnd := fun heq => by
    rw [heq, Function.update_self] at hwriter
    exact hj (Option.some.inj hwriter).symm
  rw [Function.update_of_ne hne] at hwriter ⊢
  exact h code slot hcode hphase hwriter

theorem wrote_answer {env : Env M σ} {mpidr : U64} {closures : U64 → StartClosure} {writer : U64 → Option (Fin n)}
    {i : Fin n} {core : Core σ} {stackEnd : U64} {closure : StartClosure} {k : Unit → Hyp σ Exit} {r : Unit}
    (ha : core.phase.Allows env mpidr core.call (.writeStartClosure stackEnd closure)) :
    (core.answer (.writeStartClosure stackEnd closure) k r).Wrote env (Function.update closures stackEnd closure) writer
      i := by
  intro code slot _ hphase _
  cases ha.next_onWritten hphase
  exact Function.update_self ..

/-! ## Steps -/

variable [IdMap M] {env : Env M σ} {topo : Topology n} {m m' : Machine σ env.maxCores n}

theorem granted_step {choice : Choice n} (hs : ∀ i, (m.cores i).Serving env (topo.mpidr i))
    (hw : ∀ i, (m.cores i).Wrote env m.shared.closures m.writer i) (h : ∀ i, (m.cores i).Granted env m.shared.closures)
    (hord : CpuOnOrdered env m choice) (hstep : Step env topo m choice m') (i : Fin n) :
    (m'.cores i).Granted env m'.shared.closures := by
  cases hstep with
  | @call i e k r shared hmode hp =>
    have ha := (hs i).allows hmode
    by_cases hread : ∃ stackEnd, e = .readStartClosure stackEnd
    · obtain ⟨stackEnd, rfl⟩ := hread
      cases hp
      exact Machine.forall_setCore h ((h i).answer_read hmode ha) _
    · have hothers : ∀ j, (m.cores j).Granted env shared.closures := fun j => by
        refine (h j).write (hs j) fun stackEnd hon hawaits => ?_
        by_cases hwrite : ∃ stackEnd' closure, e = .writeStartClosure stackEnd' closure
        · obtain ⟨stackEnd', closure, rfl⟩ := hwrite
          cases hp
          have hwrites : (m.cores i).mode.written = some stackEnd' := by
            rw [hmode]
            rfl
          have hne : stackEnd ≠ stackEnd' := fun heq => hord stackEnd' hwrites j hon (heq ▸ hawaits)
          exact Function.update_of_ne hne _ _
        · rw [Shared.perform_closures_eq hp fun stackEnd' closure he => hwrite ⟨stackEnd', closure, he⟩]
      refine Machine.forall_setCore hothers ?_ _
      exact (h i).answer hmode ha (fun stackEnd he => hread ⟨stackEnd, he⟩) r
  | @smcReturn i _ _ _ x0 hmode =>
    refine Machine.forall_setCore h ?_ _
    exact (h i).answer hmode ((hs i).allows hmode) (fun _ => nofun) x0
  | @smcCpuOn i j functionId args _ entry contextId hmode _ hcarried hon =>
    refine Machine.forall_setCore (m := m.setCore i _) (Machine.forall_setCore h ?_) ?_ _
    · exact (h i).answer hmode ((hs i).allows hmode) (fun _ => nofun) (0 : U64)
    · have ha := (hs i).allows hmode
      obtain ⟨slot, hphase, rfl, rfl⟩ := ha.carries_cpuOn hcarried hon
      rintro call ⟨⟩
      refine ⟨rfl, hw i _ slot hmode hphase ?_⟩
      -- the stack firmware was given is the one the closure was written to
      have hargs : args.getD 2 0 = env.rt.stackEnd slot := by
        rw [hphase] at ha
        rw [ha.2]
        rfl
      have hgiven : (m.cores i).mode.given = some (args.getD 2 0) := by
        rw [hmode]
        rfl
      exact hord _ (hgiven.trans (congrArg some hargs))
  | @wake i _ _ hmode =>
    refine Machine.forall_setCore h ?_ _
    intro call hstart
    have hcall := h i call hstart
    rw [hmode] at hcall
    exact hcall.elim
  | @enterEl2 i _ _ _ hmode => exact Machine.forall_setCore h ((h i).enterEl2 hmode _) _
  | smcPowerDown =>
    refine Machine.forall_setCore h ?_ _
    nofun
  | _ =>
    refine Machine.forall_setCore h ?_ _
    exact fun _ _ => trivial

theorem wrote_step {choice : Choice n} (hs : ∀ i, (m.cores i).Serving env (topo.mpidr i))
    (h : ∀ i, (m.cores i).Wrote env m.shared.closures m.writer i) (hstep : Step env topo m choice m') (j : Fin n) :
    (m'.cores j).Wrote env m'.shared.closures m'.writer j := by
  cases hstep with
  | @call i e k r shared hmode hp =>
    have ha := (hs i).allows hmode
    by_cases hwrite : ∃ stackEnd closure, e = .writeStartClosure stackEnd closure
    · obtain ⟨stackEnd, closure, rfl⟩ := hwrite
      cases hp
      by_cases hj : j = i
      · subst hj
        rw [Machine.setCore_cores, Function.update_self]
        exact wrote_answer ha
      · rw [Machine.setCore_cores, Function.update_of_ne hj]
        exact (h j).write hj stackEnd closure
    · have hwriter : e.writerAfter m.writer i = m.writer := by
        cases e with
        | writeStartClosure stackEnd closure => exact absurd ⟨stackEnd, closure, rfl⟩ hwrite
        | _ => rfl
      have hclosures := Shared.perform_closures_eq hp fun stackEnd closure he => hwrite ⟨stackEnd, closure, he⟩
      rw [hwriter, hclosures]
      refine Machine.forall_setCore h ?_ _
      intro code slot _ hphase
      exact absurd ⟨_, _, ha.next_onWritten hphase⟩ hwrite
  | @enterEl2 i =>
    refine Machine.forall_setCore h ?_ _
    intro code slot hcode hphase
    unfold Core.enterEl2 at hcode hphase
    dsimp only at hcode hphase
    split_ifs at hcode hphase
  | @smcReturn i _ _ _ x0 hmode =>
    refine Machine.forall_setCore h ?_ _
    intro code slot _ hphase
    cases ((hs i).allows hmode).next_onWritten hphase
  | @smcCpuOn i j _ _ _ _ _ hmode =>
    refine Machine.forall_setCore (m := m.setCore i _) (Machine.forall_setCore h ?_) ?_ _
    · intro code slot _ hphase
      cases ((hs i).allows hmode).next_onWritten hphase
    · nofun
  | _ =>
    refine Machine.forall_setCore h ?_ _
    nofun

/-! ## Agreement -/

structure Closed (env : Env M σ) (topo : Topology n) (m : Machine σ env.maxCores n) : Prop where
  serving : ∀ i, (m.cores i).Serving env (topo.mpidr i)
  wrote : ∀ i, (m.cores i).Wrote env m.shared.closures m.writer i
  granted : ∀ i, (m.cores i).Granted env m.shared.closures

theorem closed_boot (b : Boot σ n) : Closed env topo (.boot env topo b) where
  serving := Machine.serving_boot b
  wrote _ := nofun
  granted _ := nofun

theorem Closed.step (h : Closed env topo m) {choice : Choice n} (hord : CpuOnOrdered env m choice)
    (hstep : Step env topo m choice m') : Closed env topo m' where
  serving := Machine.serving_step h.serving hstep
  wrote := wrote_step h.serving h.wrote hstep
  granted := granted_step h.serving h.wrote h.granted hord hstep

theorem Closed.agreement (h : Closed env topo m) : CpuOnAgreement env topo m where
  starts j call entry contextId hstart hmode := by
    have hj := h.granted j call hstart
    rw [hmode] at hj
    exact hj.1
  reads j stackEnd code hmode hphase := by
    obtain ⟨k, rfl, hk⟩ := Serves.started (hphase ▸ (h.serving j).of_el2 hmode)
    obtain ⟨sys, gprs, henter, -⟩ := hk (m.shared.closures stackEnd)
    obtain ⟨m', hstep, hcore⟩ := Machine.step_call topo hmode rfl
    refine ⟨m', sys, gprs, hstep, ?_⟩
    rw [hcore]
    exact congrArg Mode.el2 henter
  enters j call sys gprs hstart hmode := by
    have hj := h.granted j call hstart
    obtain ⟨entryPoint, contextId, hphase, henters⟩ := ((h.serving j).leaves hmode).entering
    rw [hmode, hphase] at hj
    obtain ⟨helr, hx0⟩ := henters.entry
    exact ⟨helr.trans hj.1, hx0.trans hj.2⟩

/-- **CPU_ON agreement**, in every state of every run with its CPU_ONs in order. -/
theorem cpu_on_agreement_of_ordered (env : Env M σ) (topo : Topology n) (b : Boot σ n) (choices : List (Choice n))
    (hord : Meets (Machine.step env topo) (CpuOnOrdered env) (.boot env topo b) choices) (m : Machine σ env.maxCores n)
    (hrun : run (Machine.step env topo) (.boot env topo b) choices = some m) : CpuOnAgreement env topo m := by
  have hclosed : Closed env topo m :=
    Lib.invariant (fun _ _ _ h hchoice hs => h.step hchoice (Machine.step_cases hs)) choices _ m (closed_boot b) hord hrun
  exact hclosed.agreement

def startRun : List (Choice 3) :=
  [.run core0, .smcTrap core0 0xC4000003 1 0x47000000 6, .run core0, .run core0, .smcCpuOn core0 core1, .run core0,
    .enterEl2 core1 default, .run core1]

theorem cpu_on_agreement_of_ordered_start : ∃ m, bareRun startRun = some m ∧ CpuOnAgreement bareEnv threeCores m := by
  obtain ⟨m, hm⟩ := Option.isSome_iff_exists.1 (show (bareRun startRun).isSome = true by decide +kernel)
  have hord : Meets (Machine.step bareEnv threeCores) (CpuOnOrdered bareEnv) (.boot bareEnv threeCores bareBoot)
      startRun := by decide +kernel
  exact ⟨m, hm, cpu_on_agreement_of_ordered bareEnv threeCores bareBoot startRun hord m hm⟩

/-- Then both call CPU_ON for core 2.  Core 0 is granted, after core 1 has written its closure over core 0's. -/
def raceRun : List (Choice 3) := startRun ++
  [.run core1, .smcTrap core0 0xC4000003 2 0x48000000 7, .smcTrap core1 0xC4000003 2 0x49000000 8, .run core0,
    .run core0, .run core1, .run core1, .smcCpuOn core0 core2, .smcReturn core1 (-4), .enterEl2 core2 default,
    .run core2]

def Mode.enters : Mode σ → Option El1Entry
  | .el2 (.ret (.enter sys gprs)) => some (sys, gprs)
  | _ => none

theorem refused_cpu_on_wins : ∃ m, bareRun raceRun = some m ∧
    (m.cores 2).start = .on ⟨0xC4000003, 2, 0x48000000, 7⟩ ∧
    (m.cores 2).mode.enters.map (fun e => (e.1.elrEl2, e.2 0)) = some (0x49000000, 8) ∧
    ¬ CpuOnAgreement bareEnv threeCores m := by
  have hobs : (bareRun raceRun).map
      (fun m => ((m.cores 2).start, (m.cores 2).mode.enters.map (fun e => (e.1.elrEl2, e.2 0)))) =
      some (.on ⟨0xC4000003, 2, 0x48000000, 7⟩, some (0x49000000, 8)) := by decide +kernel
  obtain ⟨m, hm, hpair⟩ := Option.map_eq_some_iff.1 hobs
  obtain ⟨hstart, henters⟩ := Prod.mk.inj hpair
  refine ⟨m, hm, hstart, henters, fun hagree => ?_⟩
  obtain ⟨e, he, heq⟩ := Option.map_eq_some_iff.1 henters
  unfold Mode.enters at he
  split at he
  · rename_i sys gprs hmode
    cases he
    obtain ⟨helr, -⟩ := hagree.enters 2 _ sys gprs hstart hmode
    exact absurd (helr.symm.trans (Prod.mk.inj heq).1) (by decide)
  · cases he

end Ritm
