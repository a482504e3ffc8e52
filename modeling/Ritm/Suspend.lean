import Ritm.Isolation
/-!
# Suspend — the suspend and resume protocol

`SUSPEND_CONTEXTS` holds, for each core, what that core has inserted and not removed, and nothing else (`Tracked`, which
every step of every core keeps).  So a core that firmware resumes finds the context of its own CPU_SUSPEND, and enters
its guest there.  Runs are those of `Isolation`: CPU_DEFAULT_SUSPEND and SYSTEM_SUSPEND, which RITM forwards, resume a
core at an address of the guest's.
-/
namespace Ritm

open Lib (run)

variable {M σ : Type} {n : Nat} {env : Env M σ} {topo : Topology n} {m m' : Machine σ env.maxCores n}

/-! ## The map and the cores -/

/-- **The map holds what the cores have in flight.** -/
structure Tracked (topo : Topology n) (m : Machine σ env.maxCores n) : Prop where
  core : ∀ i, m.shared.contexts.get (topo.mpidr i) = (m.cores i).inFlight
  other : ∀ key, (∀ i, key ≠ topo.mpidr i) → m.shared.contexts.get key = none

theorem tracked_boot [IdMap M] (b : Boot σ n) : Tracked topo (.boot env topo b) where
  core _ := SimpleMap.get_new _
  other _ _ := SimpleMap.get_new _

theorem Tracked.update (h : Tracked topo m) {i : Fin n} {core : Core σ}
    (hcores : m'.cores = Function.update m.cores i core)
    (hi : m'.shared.contexts.get (topo.mpidr i) = core.inFlight)
    (hne : ∀ key, key ≠ topo.mpidr i → m'.shared.contexts.get key = m.shared.contexts.get key) : Tracked topo m' where
  core j := by
    rw [hcores]
    by_cases hj : j = i
    · subst hj
      rw [Function.update_self]
      exact hi
    · rw [Function.update_of_ne hj, hne _ fun hk => hj (topo.mpidr_injective hk)]
      exact h.core j
  other key hkey := (hne key (hkey i)).trans (h.other key hkey)

theorem perform_contexts {i : Fin n} {e : Eff σ} {r : e.Resp} {shared : Shared σ env.maxCores} (h : Tracked topo m)
    (hallows : (m.cores i).phase.Allows env (topo.mpidr i) (m.cores i).call e)
    (hp : m.shared.perform e = some (.ok (r, shared))) :
    shared.contexts.get (topo.mpidr i) = e.inFlightAfter (m.cores i).inFlight ∧
      ∀ key, key ≠ topo.mpidr i → shared.contexts.get key = m.shared.contexts.get key := by
  by_cases hinsert : ∃ key context, e = .suspendInsert key context
  · obtain ⟨key, context, rfl⟩ := hinsert
    obtain ⟨-, -, rfl, -⟩ := hallows.suspendInsert
    obtain ⟨slot, contexts, hins, rfl⟩ := Shared.perform_suspendInsert hp
    have hget := SimpleMap.get_insert hins
    exact ⟨(hget _).trans (if_pos rfl), fun key hne => (hget key).trans (if_neg hne)⟩
  by_cases hremove : ∃ key, e = .suspendRemove key
  · obtain ⟨key, rfl⟩ := hremove
    obtain ⟨-, rfl⟩ := hallows.suspendRemove
    cases hp
    have hget := m.shared.contexts.get_remove (topo.mpidr i)
    exact ⟨(hget _).trans (if_pos rfl), fun key hne => (hget key).trans (if_neg hne)⟩
  have hsame := Shared.perform_contexts_eq hp (fun key context he => hinsert ⟨key, context, he⟩)
    (fun key he => hremove ⟨key, he⟩)
  rw [hsame]
  refine ⟨?_, fun _ _ => rfl⟩
  have hflight : e.inFlightAfter (m.cores i).inFlight = (m.cores i).inFlight := by
    cases e with
    | suspendInsert key context => exact absurd ⟨key, context, rfl⟩ hinsert
    | suspendRemove key => exact absurd ⟨key, rfl⟩ hremove
    | _ => rfl
  rw [hflight]
  exact h.core i

theorem tracked_step [IdMap M] {choice : Choice n} (hs : ∀ i, (m.cores i).Serving env (topo.mpidr i)) (h : Tracked topo m)
    (hstep : Step env topo m choice m') : Tracked topo m' := by
  cases hstep with
  | @call i _ _ _ _ hmode hp =>
    obtain ⟨hi, hne⟩ := perform_contexts h ((hs i).allows hmode) hp
    exact h.update rfl hi hne
  | @smcCpuOn i j =>
    refine Tracked.update (m := m.setCore i _) ?_ rfl (h.core j) fun _ _ => rfl
    exact h.update rfl (h.core i) fun _ _ => rfl
  | @enterEl2 i => exact h.update rfl ((h.core i).trans (Core.enterEl2_history ..).2.2.symm) fun _ _ => rfl
  | @trap i | @leave i | @fail i | @smcReturn i | @smcPowerDown i | @smcOff i | @wake i =>
    exact h.update rfl (h.core i) fun _ _ => rfl

theorem Tracked.insert_fits (h : Tracked topo m) (hn : n ≤ env.maxCores) (i : Fin n) (context : SuspendCoreData) :
    ∃ slot contexts, m.shared.contexts.insert (topo.mpidr i) context = some (slot, contexts) := by
  have hpool : ∀ key ∈ m.shared.contexts.keys, key ∈ List.ofFn topo.mpidr := fun key hkey => by
    by_contra hnot
    rw [List.mem_ofFn] at hnot
    have hnone := h.other key fun i hi => hnot ⟨i, hi.symm⟩
    exact SimpleMap.get_eq_none_iff.1 hnone hkey
  refine SimpleMap.insert_isSome context hpool (List.mem_ofFn.2 ⟨i, rfl⟩) ?_
  rw [List.length_ofFn]
  exact hn

/-! ## What a core has in flight -/

/-- What a core at EL2 has in flight, phase by phase: the context of its guest's CPU_SUSPEND from the insertion to the
removal, in its own code or, after a power down, in the code firmware resumes it with. -/
def Core.InCode (core : Core σ) : Prop :=
  match core.phase with
  | .suspendInserted | .suspendStack _ | .suspendReturned =>
    core.inFlight = some core.call.context ∧ core.call.fnId ∈ cpuSuspendIds
  | .restoring => core.inFlight = some core.call.context ∧ core.call.fnId ∈ cpuSuspendIds ∧ core.start = .resume core.call
  | .entering entryPoint contextId => core.inFlight = none ∧ ∀ call, core.start = .resume call →
      call = core.call ∧ call.fnId ∈ cpuSuspendIds ∧ call.context = ⟨entryPoint, contextId⟩
  | .started _ => core.inFlight = none ∧ ∀ call, core.start ≠ .resume call
  | .lost => False
  | _ => core.inFlight = none

def Core.WithFirmware (env : Env M σ) (core : Core σ) (entry : U64) : Prop :=
  if entry = env.rt.resumeEntry then
    core.inFlight = some core.call.context ∧ core.call.fnId ∈ cpuSuspendIds ∧ core.start = .resume core.call
  else core.inFlight = none ∧ ∀ call, core.start ≠ .resume call

/-- **What a core has in flight.** -/
def Core.InProtocol (env : Env M σ) (core : Core σ) : Prop :=
  match core.mode with
  | .el2 _ => core.InCode
  | .entering entry _ | .poweredDown entry _ => core.WithFirmware env entry
  | .guest | .off => core.inFlight = none
  | .panicked message => message ≠ contextNotFound
  | .rogue _ => True

section InCode

variable {core : Core σ} {mpidr : U64}

theorem Core.InCode.answer {e : Eff σ} {k : e.Resp → Hyp σ Exit} (h : core.InCode)
    (ha : core.phase.Allows env mpidr core.call e) (hne : ∀ key, e ≠ .suspendRemove key) (r : e.Resp) :
    (core.answer e k r).InCode := by
  obtain ⟨sys, mode, phase, call, start, inFlight⟩ := core
  cases e with
  | callRead | callWrite =>
    cases phase with
    | trapped => exact h
    | _ => cases ha
  | getSecondaryStack key =>
    rcases ha.getSecondaryStack with ⟨rfl, -⟩ | ⟨rfl, -⟩ <;> exact h
  | writeStartClosure =>
    obtain ⟨slot, rfl, -⟩ := ha.writeStartClosure
    exact h
  | readStartClosure =>
    obtain rfl := ha.readStartClosure
    exact ⟨h.1, fun call hstart => absurd hstart (h.2 call)⟩
  | suspendInsert key context =>
    obtain ⟨rfl, hid, -, rfl⟩ := ha.suspendInsert
    exact ⟨rfl, hid⟩
  | suspendRemove key => exact absurd rfl (hne key)
  | smc =>
    rcases ha.smc with ⟨rfl, -⟩ | ⟨slot, rfl, -⟩ | ⟨slot, rfl, -⟩ <;> exact h
  | panic => exact nomatch r

theorem Core.InCode.answer_suspendRemove {key : U64} {k : Option SuspendCoreData → Hyp σ Exit} (h : core.InCode)
    (ha : core.phase.Allows env mpidr core.call (.suspendRemove key)) :
    (core.answer (.suspendRemove key) k core.inFlight).InCode := by
  obtain ⟨sys, mode, phase, call, start, inFlight⟩ := core
  rcases ha.suspendRemove.1 with rfl | rfl
  · exact rfl
  · obtain ⟨(rfl : inFlight = some call.context), hid, (rfl : start = .resume call)⟩ := h
    refine ⟨rfl, fun call' hstart => ?_⟩
    cases hstart
    exact ⟨rfl, hid, rfl⟩

theorem Core.InCode.leaves [IdMap M] {exit : Exit} (h : core.InCode) (hl : core.phase.Leaves env mpidr exit) :
    core.inFlight = none := by
  obtain ⟨sys, mode, phase, call, start, inFlight⟩ := core
  cases phase with
  | trapped | finished => exact h
  | entering => exact h.1
  | _ => cases hl

theorem Core.InCode.panic_ne {e : Eff σ} {message : String} (h : core.InCode)
    (ha : core.phase.Allows env mpidr core.call e) {s : Shared σ env.maxCores}
    (hp : s.perform e = some (.error message)) : message ≠ contextNotFound := by
  rcases Shared.perform_error hp with rfl | rfl
  · decide
  · rcases ha.panic with hmsg | ⟨hlost, -⟩
    · intro hm
      rw [hm] at hmsg
      exact absurd hmsg (by decide)
    · unfold Core.InCode at h
      rw [hlost] at h
      exact h.elim

end InCode

section Step

variable {core : Core σ} {mpidr : U64}

theorem Core.InProtocol.of_el2 {code : Hyp σ Exit} (h : core.InProtocol env) (hmode : core.mode = .el2 code) :
    core.InCode := by
  unfold Core.InProtocol at h
  rw [hmode] at h
  exact h

theorem Core.WithFirmware.enterEl2 [IdMap M] {entry : U64} (h : core.WithFirmware env entry)
    (hown : env.OwnEntry entry) (sys : SysRegs) (contextId : U64) :
    (core.enterEl2 env mpidr sys entry contextId).InProtocol env := by
  unfold Core.WithFirmware at h
  rcases hown with rfl | rfl
  · rw [if_neg env.rt.entry_ne] at h
    rw [Core.enterEl2, if_pos rfl]
    exact h
  · rw [if_pos rfl] at h
    rw [Core.enterEl2, if_neg env.rt.entry_ne.symm, if_pos rfl]
    exact h

end Step

variable [IdMap M]

theorem inProtocol_step {choice : Choice n} (hc : Machine.Confined env topo m) (ht : Tracked topo m)
    (h : ∀ i, (m.cores i).InProtocol env) (hstep : Step env topo m choice m') (i : Fin n) :
    (m'.cores i).InProtocol env := by
  have hs := hc.serving
  cases hstep with
  | @trap i _ _ hmode =>
    refine Machine.forall_setCore h ?_ _
    have hi := h i
    rwa [Core.InProtocol, hmode] at hi
  | @leave i exit hmode =>
    refine Machine.forall_setCore h ?_ _
    exact ((h i).of_el2 hmode).leaves ((hs i).leaves hmode)
  | @call i e k r shared hmode hp =>
    have hi := (h i).of_el2 hmode
    have ha := (hs i).allows hmode
    refine Machine.forall_setCore h ?_ _
    -- only the answer to the removal depends on the map, which holds what this core has in flight
    by_cases hremove : ∃ key, e = .suspendRemove key
    · obtain ⟨key, rfl⟩ := hremove
      cases hp
      obtain rfl := ha.suspendRemove.2
      rw [SimpleMap.remove_fst, ht.core i]
      exact hi.answer_suspendRemove ha
    · exact hi.answer ha (fun key he => hremove ⟨key, he⟩) r
  | @fail i _ _ _ hmode hp =>
    refine Machine.forall_setCore h ?_ _
    exact ((h i).of_el2 hmode).panic_ne ((hs i).allows hmode) hp
  | @smcReturn i _ _ _ x0 hmode =>
    refine Machine.forall_setCore h ?_ _
    exact ((h i).of_el2 hmode).answer ((hs i).allows hmode) (fun _ => nofun) x0
  | @smcCpuOn i j _ _ _ _ _ hmode hoff hcarried hon =>
    refine Machine.forall_setCore (m := m.setCore i _) (Machine.forall_setCore h ?_) ?_ _
    · exact ((h i).of_el2 hmode).answer ((hs i).allows hmode) (fun _ => nofun) (0 : U64)
    -- a core that was off has nothing in flight, and starts at the other entry
    · have hj := h j
      rw [Core.InProtocol, hoff] at hj
      obtain ⟨_, -, hentry, -⟩ := ((hs i).allows hmode).carries_cpuOn hcarried hon
      show (if _ = env.rt.resumeEntry then _ else _)
      rw [hentry, if_neg env.rt.entry_ne]
      exact ⟨hj, fun _ => nofun⟩
  | @smcPowerDown i _ _ _ _ _ hmode hcarried hon =>
    refine Machine.forall_setCore h ?_ _
    obtain ⟨slot, hphase, rfl⟩ := ((hs i).allows hmode).carries_suspend hcarried hon (hc.calls i)
    have hi := (h i).of_el2 hmode
    rw [Core.InCode, hphase] at hi
    show (if _ = env.rt.resumeEntry then _ else _)
    rw [if_pos rfl]
    exact ⟨hi.1, hi.2, rfl⟩
  | @smcOff i _ _ hmode =>
    refine Machine.forall_setCore h ?_ _
    have hphase := ((hs i).allows hmode).cpuOff
    have hi := (h i).of_el2 hmode
    rwa [Core.InCode, hphase] at hi
  | @wake i _ _ hmode =>
    refine Machine.forall_setCore h ?_ _
    have hi := h i
    rwa [Core.InProtocol, hmode] at hi
  | @enterEl2 i _ _ _ hmode =>
    have hown := hc.contained i
    rw [Core.Contained, hmode] at hown
    have hi := h i
    rw [Core.InProtocol, hmode] at hi
    exact Machine.forall_setCore h (hi.enterEl2 hown _ _) _

theorem inProtocol_boot (b : Boot σ n) (i : Fin n) : ((Machine.boot env topo b).cores i).InProtocol env := by
  unfold Core.InProtocol Machine.boot
  dsimp only
  split_ifs
  · exact ⟨rfl, fun _ => nofun⟩
  · rfl

/-! ## The protocol -/

/-- **The suspend and resume protocol** in one state of a machine. -/
structure SuspendProtocol (env : Env M σ) (topo : Topology n) (m : Machine σ env.maxCores n) : Prop where
  -- The map holds an entry for a core exactly while the core is between its insertion and its removal, so none while
  -- its guest runs.
  tracked : Tracked topo m
  guest : ∀ i, (m.cores i).mode = .guest → m.shared.contexts.get (topo.mpidr i) = none
  fits : ∀ i key context k, (m.cores i).mode = .el2 (.step (.suspendInsert key context) k) →
    ∃ slot contexts, m.shared.contexts.insert key context = some (slot, contexts)
  -- Firmware resumes a powered-down core in `restore_from_suspend`, which finds a context,
  resumes : ∀ i call entry contextId, (m.cores i).start = .resume call →
    (m.cores i).mode = .poweredDown entry contextId ∨ (m.cores i).mode = .entering entry contextId →
    entry = env.rt.resumeEntry
  finds : ∀ i code, (m.cores i).mode = .el2 code → (m.cores i).phase = .restoring →
    ∃ m' sys gprs, m.step env topo (.run i) = some m' ∧ (m'.cores i).mode = .el2 (.ret (.enter sys gprs))
  found : ∀ i, (m.cores i).mode ≠ .panicked contextNotFound
  -- and enters EL1 at the entry point and with the context id of the core's latest CPU_SUSPEND.
  enters : ∀ i call sys gprs, (m.cores i).start = .resume call → (m.cores i).mode = .el2 (.ret (.enter sys gprs)) →
    call = (m.cores i).call ∧ call.fnId ∈ cpuSuspendIds ∧
      sys.elrEl2 = call.entry.entryPointAddress ∧ gprs 0 = call.entry.contextId

theorem suspendProtocol_of_invariants (hn : n ≤ env.maxCores) (hs : ∀ i, (m.cores i).Serving env (topo.mpidr i))
    (ht : Tracked topo m) (h : ∀ i, (m.cores i).InProtocol env) :
    SuspendProtocol env topo m where
  tracked := ht
  guest i hmode := by
    have hi := h i
    rw [Core.InProtocol, hmode] at hi
    exact (ht.core i).trans hi
  fits i key context k hmode := by
    obtain ⟨-, -, rfl, -⟩ := ((hs i).allows hmode).suspendInsert
    exact ht.insert_fits hn i context
  resumes i call entry contextId hstart hmode := by
    have hi : (m.cores i).WithFirmware env entry := by
      have := h i
      rcases hmode with hmode | hmode <;> rwa [Core.InProtocol, hmode] at this
    by_contra hne
    rw [Core.WithFirmware, if_neg hne] at hi
    exact hi.2 call hstart
  finds i code hmode hphase := by
    have hi := (h i).of_el2 hmode
    rw [Core.InCode, hphase] at hi
    obtain ⟨k, rfl, hk⟩ := Serves.restoring (hphase ▸ (hs i).of_el2 hmode)
    obtain ⟨sys, gprs, henter, -⟩ := hk (m.cores i).call.context
    obtain ⟨m', hstep, hcore⟩ := Machine.step_call topo hmode rfl
    refine ⟨m', sys, gprs, hstep, ?_⟩
    rw [hcore]
    show Mode.el2 (k (m.shared.contexts.remove (topo.mpidr i)).1) = _
    rw [SimpleMap.remove_fst, ht.core i, hi.1, henter]
  found i hmode := by
    have hi := h i
    rw [Core.InProtocol, hmode] at hi
    exact hi rfl
  enters i call sys gprs hstart hmode := by
    have hi := (h i).of_el2 hmode
    obtain ⟨entryPoint, contextId, hphase, henters⟩ := ((hs i).leaves hmode).entering
    rw [Core.InCode, hphase] at hi
    obtain ⟨hcall, hid, hcontext⟩ := hi.2 call hstart
    obtain ⟨helr, hx0⟩ := henters.entry
    exact ⟨hcall, hid, helr.trans (congrArg SuspendCoreData.entryPoint hcontext).symm,
      hx0.trans (congrArg SuspendCoreData.contextId hcontext).symm⟩

/-- **Suspend and resume**, in every state of every run on a machine with at most `MAX_CORES` cores. -/
theorem suspend_protocol (env : Env M σ) (topo : Topology n) (hn : n ≤ env.maxCores) (b : Boot σ n)
    (choices : List (Choice n)) (hc : ∀ choice ∈ choices, choice.NoDefaultSuspend) (m : Machine σ env.maxCores n)
    (hrun : run (Machine.step env topo) (.boot env topo b) choices = some m) : SuspendProtocol env topo m := by
  obtain ⟨hconfined, htracked, hprotocol⟩ := Lib.invariant
    (I := fun m => Machine.Confined env topo m ∧ Tracked topo m ∧ ∀ i, (m.cores i).InProtocol env)
    (fun s choice s' ⟨hconfined, htracked, hprotocol⟩ hchoice hs =>
      have hstep := Machine.step_cases hs
      ⟨hconfined.step hchoice hstep, tracked_step hconfined.serving htracked hstep,
        inProtocol_step hconfined htracked hprotocol hstep⟩)
    choices _ m ⟨Machine.confined_boot b, tracked_boot b, inProtocol_boot b⟩ (Lib.meets_of_forall _ hc) hrun
  exact suspendProtocol_of_invariants hn hconfined.serving htracked hprotocol

theorem suspend_protocol_mediated : ∃ m, bareRun (mediatedRun ++ [.run 1]) = some m ∧
    SuspendProtocol bareEnv threeCores m ∧ (m.cores 1).start = .resume ⟨0xC4000001, 0x10000, 0x49000000, 8⟩ := by
  have hobs : (bareRun (mediatedRun ++ [.run 1])).map (fun m => (m.cores 1).start) =
      some (.resume ⟨0xC4000001, 0x10000, 0x49000000, 8⟩) := by decide +kernel
  obtain ⟨m, hm, hstart⟩ := Option.map_eq_some_iff.1 hobs
  have hc : ∀ choice ∈ mediatedRun ++ [.run 1], choice.NoDefaultSuspend := by decide +kernel
  exact ⟨m, hm, suspend_protocol bareEnv threeCores (by decide) bareBoot _ hc m hm, hstart⟩

end Ritm
