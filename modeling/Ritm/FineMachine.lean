import Ritm.CriticalSections
import Ritm.PsciRefinement
/-!
# FineMachine — the machine with its spin locks

`Machine.step` makes each call in one go.  Here a call that uses `SECONDARY_STACKS` or `SUSPEND_CONTEXTS` takes the
map's lock, looks at the slots one at a time with the other cores running in between, and gives the lock back; a core
that panics inside keeps it.  Every run of this machine is a run of the other, in which the call is made where its lock
was released; so its guests, too, see PSCI firmware.
-/
namespace Ritm

open Lib (Section Mutex run Meets)

variable {M σ : Type} {n maxCores : Nat}

/-! ## Calls that take a lock -/

namespace Core

def pending (capacity : Nat) (core : Core σ) (l : MapLock) : Option (Section l.Data l.Answer) :=
  match core.mode with
  | .el2 (.step e _) => e.code capacity l
  | _ => none

def takesLock (core : Core σ) : Bool :=
  match core.mode with
  | .el2 (.step e _) => e.takesLock
  | _ => false

def panics (core : Core σ) : Bool :=
  match core.mode with
  | .panicked _ => true
  | .el2 (.step (.panic _) _) => true
  | _ => false

theorem pending_eq {core : Core σ} {e : Eff σ} {k : e.Resp → Hyp σ Exit} (hmode : core.mode = .el2 (.step e k))
    (l : MapLock) : core.pending maxCores l = e.code maxCores l := by
  rw [pending, hmode]

theorem pending_eq_some {core : Core σ} {l : MapLock} {code : Section l.Data l.Answer}
    (h : core.pending maxCores l = some code) : ∃ e k, core.mode = .el2 (.step e k) ∧ e.code maxCores l = some code := by
  unfold pending at h
  split at h
  · rename_i e k hmode
    exact ⟨e, k, hmode, h⟩
  · cases h

theorem takesLock_of_pending {core : Core σ} {l : MapLock} {code : Section l.Data l.Answer}
    (h : core.pending maxCores l = some code) : core.takesLock = true := by
  obtain ⟨e, k, hmode, hcode⟩ := pending_eq_some h
  rw [takesLock, hmode]
  exact Eff.takesLock_of_code hcode

theorem not_panics_of_takesLock {core : Core σ} (h : core.takesLock = true) : ¬ core.panics = true := by
  unfold takesLock at h
  split at h
  · rename_i e k hmode
    rw [panics, hmode]
    cases e with
    | panic => cases h
    | _ => exact Bool.false_ne_true
  · cases h

theorem not_panics_of_ofAnswer {core : Core σ} {e : Eff σ} {k : e.Resp → Hyp σ Exit} {l : MapLock} {answer : l.Answer}
    {r : e.Resp} (hmode : core.mode = .el2 (.step e k)) (hr : e.ofAnswer l answer = some r) : ¬ core.panics = true := by
  rw [panics, hmode]
  cases e with
  | panic => cases l <;> cases hr
  | _ => exact Bool.false_ne_true

/-- From `core` to `core'` nothing has been done inside a lock, and no panic was undone. -/
def LeavesInside (core core' : Core σ) : Prop :=
  core' = core ∨ core.takesLock = false ∧ (core.panics = true → core'.panics = true)

theorem LeavesInside.of_mode {core core' : Core σ} {mode : Mode σ} (hmode : core.mode = mode)
    (hlock : takesLock { core with mode := mode } = false) (hpanics : panics { core with mode := mode } = false) :
    core.LeavesInside core' := by
  subst hmode
  exact .inr ⟨hlock, fun h => absurd (hpanics.symm.trans h) Bool.false_ne_true⟩

theorem LeavesInside.pending {core core' : Core σ} (h : core.LeavesInside core') {l : MapLock}
    {code : Section l.Data l.Answer} (hcode : core.pending maxCores l = some code) :
    core'.pending maxCores l = some code := by
  rcases h with rfl | ⟨hlock, -⟩
  · exact hcode
  · exact absurd (hlock.symm.trans (takesLock_of_pending hcode)) Bool.false_ne_true

theorem LeavesInside.panics {core core' : Core σ} (h : core.LeavesInside core') (hpanics : core.panics = true) :
    core'.panics = true := by
  rcases h with rfl | ⟨-, h⟩
  · exact hpanics
  · exact h hpanics

end Core

/-! ## The machine -/

structure FineMachine (σ : Type) (maxCores n : Nat) where
  -- Everything but the maps.
  machine : Machine σ maxCores n
  mutex : (l : MapLock) → Mutex n l.Data l.Answer

inductive FineChoice (n : Nat) where
  -- Anything but a call that takes a lock.
  | machine (choice : Choice n)
  -- Core `i` takes a lock, goes on inside, gives the lock back, or panics.
  | acquire (i : Fin n) (l : MapLock)
  | access (i : Fin n) (l : MapLock)
  | release (i : Fin n) (l : MapLock)
  | panic (i : Fin n) (l : MapLock)

/-- Where its call is made in one go. -/
def FineChoice.atomic : FineChoice n → List (Choice n)
  | machine choice => [choice]
  | release i _ | panic i _ => [.run i]
  | acquire .. | access .. => []

def Choice.takesLock (m : Machine σ maxCores n) : Choice n → Bool
  | .run i => (m.cores i).takesLock
  | _ => false

namespace Machine

def bare (m : Machine σ maxCores n) : Machine σ maxCores n := { m with shared := m.shared.bare }

@[simp] theorem bare_cores (m : Machine σ maxCores n) : m.bare.cores = m.cores := rfl

@[simp] theorem bare_shared (m : Machine σ maxCores n) : m.bare.shared = m.shared.bare := rfl

def answerCall (m : Machine σ maxCores n) (i : Fin n) (e : Eff σ) (k : e.Resp → Hyp σ Exit) (r : e.Resp) :
    Machine σ maxCores n :=
  { m.setCore i ((m.cores i).answer e k r) with
    lookups := m.lookups ++ e.lookup i (m.cores i).call (some r), writer := e.writerAfter m.writer i }

def failCall (m : Machine σ maxCores n) (i : Fin n) (e : Eff σ) : Machine σ maxCores n :=
  { m.setCore i { m.cores i with mode := .panicked capacityExceeded } with
    lookups := m.lookups ++ e.lookup i (m.cores i).call none }

end Machine

theorem Choice.takesLock_bare (m : Machine σ maxCores n) (choice : Choice n) :
    choice.takesLock m.bare = choice.takesLock m := by
  cases choice <;> rfl

namespace FineMachine

def setMutex (f : FineMachine σ maxCores n) (l : MapLock) (mutex : Mutex n l.Data l.Answer) : FineMachine σ maxCores n :=
  { f with mutex := Function.update f.mutex l mutex }

theorem setMutex_self (f : FineMachine σ maxCores n) (l : MapLock) (mutex : Mutex n l.Data l.Answer) :
    (f.setMutex l mutex).mutex l = mutex := Function.update_self ..

theorem setMutex_of_ne (f : FineMachine σ maxCores n) {l l' : MapLock} (mutex : Mutex n l.Data l.Answer) (h : l' ≠ l) :
    (f.setMutex l mutex).mutex l' = f.mutex l' := Function.update_of_ne h ..

def step [IdMap M] (env : Env M σ) (topo : Topology n) (f : FineMachine σ env.maxCores n) :
    FineChoice n → Option (FineMachine σ env.maxCores n)
  | .machine choice =>
    if choice.takesLock f.machine then none
    else (f.machine.step env topo choice).map fun machine => { f with machine := machine }
  | .acquire i l =>
    match (f.machine.cores i).pending env.maxCores l with
    | some code => ((f.mutex l).acquire i code).map (f.setMutex l)
    | none => none
  | .access i l => ((f.mutex l).access i).map (f.setMutex l)
  | .release i l =>
    match (f.mutex l).release i, (f.machine.cores i).mode with
    | some (answer, mutex), .el2 (.step e k) =>
      match e.ofAnswer l answer with
      | some r =>
        -- the guard lives to the end of its statement, so the `expect` of `restore_from_suspend` panics with the lock
        let mutex := if ((f.machine.cores i).answer e k r).panics then mutex.keep i else mutex
        some { f.setMutex l mutex with machine := f.machine.answerCall i e k r }
      | none => none
    | _, _ => none
  | .panic i l =>
    match (f.machine.cores i).mode with
    | .el2 (.step e _) =>
      if (f.mutex l).panics i = true ∧ (e.code env.maxCores l).isSome = true then
        some { f with machine := f.machine.failCall i e }
      else none
    | _ => none

def boot [IdMap M] (env : Env M σ) (topo : Topology n) (b : Boot σ n) : FineMachine σ env.maxCores n where
  machine := (Machine.boot env topo b).bare
  mutex l := ⟨(Machine.boot env topo b).shared.items l, .free⟩

/-- What guests and firmware see of a step: nothing of a lock, unless a core halts with it. -/
def see (f : FineMachine σ maxCores n) : FineChoice n → List (Direct.Event n)
  | .machine choice => f.machine.see choice
  | .panic i _ => [.halted i]
  | .acquire .. | .access .. | .release .. => []

end FineMachine

/-- The steps of `FineMachine.step`, each with what it asks for. -/
inductive FineStep [IdMap M] (env : Env M σ) (topo : Topology n) (f : FineMachine σ env.maxCores n) :
    FineChoice n → FineMachine σ env.maxCores n → Prop
  | machine {choice : Choice n} {machine : Machine σ env.maxCores n} (hlock : choice.takesLock f.machine = false)
      (hmachine : f.machine.step env topo choice = some machine) :
      FineStep env topo f (.machine choice) { f with machine := machine }
  | acquire {i : Fin n} {l : MapLock} {code : Section l.Data l.Answer} {mutex : Mutex n l.Data l.Answer}
      (hcode : (f.machine.cores i).pending env.maxCores l = some code) (hmutex : (f.mutex l).acquire i code = some mutex) :
      FineStep env topo f (.acquire i l) (f.setMutex l mutex)
  | access {i : Fin n} {l : MapLock} {mutex : Mutex n l.Data l.Answer} (hmutex : (f.mutex l).access i = some mutex) :
      FineStep env topo f (.access i l) (f.setMutex l mutex)
  | release {i : Fin n} {l : MapLock} {e : Eff σ} {k : e.Resp → Hyp σ Exit} {answer : l.Answer}
      {mutex : Mutex n l.Data l.Answer} {r : e.Resp} (hmode : (f.machine.cores i).mode = .el2 (.step e k))
      (hrelease : (f.mutex l).release i = some (answer, mutex)) (hr : e.ofAnswer l answer = some r) :
      FineStep env topo f (.release i l)
        { f.setMutex l (if ((f.machine.cores i).answer e k r).panics then mutex.keep i else mutex) with
          machine := f.machine.answerCall i e k r }
  | panic {i : Fin n} {l : MapLock} {e : Eff σ} {k : e.Resp → Hyp σ Exit}
      (hmode : (f.machine.cores i).mode = .el2 (.step e k)) (hpanics : (f.mutex l).panics i = true)
      (hcode : (e.code env.maxCores l).isSome = true) :
      FineStep env topo f (.panic i l) { f with machine := f.machine.failCall i e }

theorem FineMachine.step_cases [IdMap M] {env : Env M σ} {topo : Topology n} {f f' : FineMachine σ env.maxCores n}
    {choice : FineChoice n} (h : f.step env topo choice = some f') : FineStep env topo f choice f' := by
  cases choice with
  | machine choice =>
    rw [step] at h
    split at h
    · cases h
    · rename_i hlock
      obtain ⟨machine, hmachine, rfl⟩ := Option.map_eq_some_iff.1 h
      exact .machine (eq_false_of_ne_true hlock) hmachine
  | acquire i l =>
    rw [step] at h
    split at h
    · rename_i code hcode
      obtain ⟨mutex, hmutex, rfl⟩ := Option.map_eq_some_iff.1 h
      exact .acquire hcode hmutex
    · cases h
  | access i l =>
    obtain ⟨mutex, hmutex, rfl⟩ := Option.map_eq_some_iff.1 h
    exact .access hmutex
  | release i l =>
    rw [step] at h
    split at h
    · rename_i answer mutex e k hrelease hmode
      split at h
      · rename_i r hr
        cases h
        exact .release hmode hrelease hr
      · cases h
    · cases h
  | panic i l =>
    rw [step] at h
    split at h
    · rename_i e k hmode
      split at h
      · rename_i hpanics
        cases h
        exact .panic hmode hpanics.1 hpanics.2
      · cases h
    · cases h

/-! ## Steps that take no lock -/

namespace Shared

theorem perform_bare (s : Shared σ maxCores) {e : Eff σ} (h : e.takesLock = false) :
    s.bare.perform e = (s.perform e).map (Except.map fun r => (r.1, r.2.bare)) := by
  cases e with
  | getSecondaryStack | suspendInsert | suspendRemove => cases h
  | _ => rfl

theorem perform_items {s s' : Shared σ maxCores} {e : Eff σ} {r : e.Resp} (h : e.takesLock = false)
    (hp : s.perform e = some (.ok (r, s'))) (l : MapLock) : s'.items l = s.items l := by
  cases l with
  | secondaryStacks =>
    refine congrArg SimpleMap.items (perform_stacks_eq hp fun key he => ?_)
    rw [he] at h
    cases h
  | suspendContexts =>
    refine congrArg SimpleMap.items (perform_contexts_eq hp (fun key context he => ?_) fun key he => ?_)
    all_goals
      rw [he] at h
      cases h

end Shared

namespace Machine

section Bare

variable [IdMap M] {env : Env M σ} {topo : Topology n} {m m' : Machine σ env.maxCores n} {choice : Choice n}

/-- **A step that takes no lock does not look at the maps.** -/
theorem step_bare (h : choice.takesLock m = false) :
    m.bare.step env topo choice = (m.step env topo choice).map bare := by
  cases choice with
  | run i =>
    rw [Choice.takesLock, Core.takesLock] at h
    rw [step, step, bare_cores]
    cases hmode : (m.cores i).mode with
    | el2 code =>
      cases code with
      | ret exit => rfl
      | step e k =>
        rw [hmode] at h
        dsimp only
        rw [bare_shared, m.shared.perform_bare h]
        cases m.shared.perform e with
        | none => rfl
        | some result => cases result <;> rfl
    | _ => rfl
  | smcCpuOn i j =>
    rw [step, step, bare_cores]
    split
    · split
      · split <;> rfl
      · rfl
    · rfl
  | trap | smcReturn | smcPowerDown | smcOff | wake | enterEl2 =>
    rw [step, step, bare_cores]
    split
    · first | rfl | split <;> first | rfl | split <;> rfl
    · rfl

omit [IdMap M] in
theorem see_bare (h : choice.takesLock m = false) : m.bare.see choice = m.see choice := by
  cases choice with
  | run i =>
    rw [Choice.takesLock, Core.takesLock] at h
    rw [see, see, bare_cores]
    cases hmode : (m.cores i).mode with
    | el2 code =>
      cases code with
      | ret exit => cases exit <;> rfl
      | step e k =>
        rw [hmode] at h
        dsimp only
        rw [bare_shared, m.shared.perform_bare h]
        cases m.shared.perform e with
        | none => rfl
        | some result => cases result <;> rfl
    | _ => rfl
  | _ => rfl

theorem step_run_call {i : Fin n} {e : Eff σ} {k : e.Resp → Hyp σ Exit} {r : e.Resp} {shared : Shared σ env.maxCores}
    (hmode : (m.cores i).mode = .el2 (.step e k)) (hp : m.shared.perform e = some (.ok (r, shared))) :
    m.step env topo (.run i) = some { m.answerCall i e k r with shared := shared } := by
  rw [step]
  simp only [hmode, hp]
  rfl

theorem step_run_fail {i : Fin n} {e : Eff σ} {k : e.Resp → Hyp σ Exit}
    (hmode : (m.cores i).mode = .el2 (.step e k)) (hp : m.shared.perform e = some (.error capacityExceeded)) :
    m.step env topo (.run i) = some (m.failCall i e) := by
  rw [step]
  simp only [hmode, hp]
  rfl

omit [IdMap M] in
theorem see_run_call {i : Fin n} {e : Eff σ} {k : e.Resp → Hyp σ Exit} {r : e.Resp} {shared : Shared σ env.maxCores}
    (hmode : (m.cores i).mode = .el2 (.step e k)) (hp : m.shared.perform e = some (.ok (r, shared))) :
    m.see (.run i) = [] := by
  rw [see]
  simp only [hmode, hp]

omit [IdMap M] in
theorem see_run_fail {i : Fin n} {e : Eff σ} {k : e.Resp → Hyp σ Exit}
    (hmode : (m.cores i).mode = .el2 (.step e k)) (hp : m.shared.perform e = some (.error capacityExceeded)) :
    m.see (.run i) = [.halted i] := by
  rw [see]
  simp only [hmode, hp]

theorem step_items (h : choice.takesLock m = false) (hstep : Step env topo m choice m') (l : MapLock) :
    m'.shared.items l = m.shared.items l := by
  cases hstep with
  | call hmode hp =>
    rw [Choice.takesLock, Core.takesLock, hmode] at h
    exact Shared.perform_items h hp l
  | _ => rfl

theorem leavesInside_setCore {m : Machine σ maxCores n} {i : Fin n} {core : Core σ} (h : (m.cores i).LeavesInside core)
    (j : Fin n) : (m.cores j).LeavesInside ((m.setCore i core).cores j) :=
  forall_setCore (P := fun j => (m.cores j).LeavesInside) (fun _ => .inl rfl) h j

theorem leavesInside_step (h : choice.takesLock m = false) (hstep : Step env topo m choice m') (j : Fin n) :
    (m.cores j).LeavesInside (m'.cores j) := by
  cases hstep with
  | @call i e k r shared hmode hp =>
    refine leavesInside_setCore (.inr ⟨h, fun hpanics => ?_⟩) j
    rw [Core.panics, hmode] at hpanics
    cases e with
    | panic => cases hp
    | _ => cases hpanics
  | fail => exact leavesInside_setCore (.inr ⟨h, fun _ => rfl⟩) j
  | @smcCpuOn i target functionId args k entry contextId hmode hoff =>
    refine forall_setCore (P := fun j => (m.cores j).LeavesInside) (leavesInside_setCore ?_) ?_ j
    · exact .of_mode hmode rfl rfl
    · exact .of_mode hoff rfl rfl
  | trap hmode | leave hmode | smcReturn hmode | smcPowerDown hmode | smcOff hmode | wake hmode | enterEl2 hmode =>
    exact leavesInside_setCore (.of_mode hmode rfl rfl) j

end Bare

end Machine

/-! ## Refinement -/

namespace FineMachine

/-- The machine whose calls are made in one go has come as far as the finished sections. -/
structure Commits (f : FineMachine σ maxCores n) (m : Machine σ maxCores n) : Prop where
  machine : f.machine = m.bare
  maps : ∀ l, (f.mutex l).Commits (m.shared.items l) (fun i => (m.cores i).pending maxCores l)
    fun i => (m.cores i).panics = true

section Steps

variable [IdMap M] {env : Env M σ} {topo : Topology n} {f f' : FineMachine σ env.maxCores n}
  {m : Machine σ env.maxCores n}

theorem Commits.boot (b : Boot σ n) : (FineMachine.boot env topo b).Commits (.boot env topo b) :=
  ⟨rfl, fun _ => .of_free rfl⟩

theorem Commits.step_machine (h : f.Commits m) {choice : Choice n} {machine : Machine σ env.maxCores n}
    (hlock : choice.takesLock f.machine = false) (hmachine : f.machine.step env topo choice = some machine) :
    ∃ m', m.step env topo choice = some m' ∧ m.see choice = f.see (.machine choice) ∧
      FineMachine.Commits { f with machine := machine } m' := by
  rw [h.machine] at hlock hmachine
  have hlock' : choice.takesLock m = false := by
    rw [← Choice.takesLock_bare]
    exact hlock
  rw [Machine.step_bare hlock'] at hmachine
  obtain ⟨m', hm', rfl⟩ := Option.map_eq_some_iff.1 hmachine
  have hcases := Machine.step_cases hm'
  refine ⟨m', hm', ?_, rfl, fun l => ?_⟩
  · rw [FineMachine.see, h.machine, Machine.see_bare hlock']
  rw [Machine.step_items hlock' hcases l]
  have hleaves := Machine.leavesInside_step hlock' hcases
  exact (h.maps l).congr (fun j _ => (hleaves j).pending) fun j => (hleaves j).panics

omit [IdMap M] in
theorem Commits.setMutex (h : f.Commits m) {l : MapLock} {mutex : Mutex n l.Data l.Answer}
    (hmutex : mutex.Commits (m.shared.items l) (fun i => (m.cores i).pending env.maxCores l)
      fun i => (m.cores i).panics = true) : (f.setMutex l mutex).Commits m := by
  refine ⟨h.machine, fun l' => ?_⟩
  by_cases hl : l' = l
  · subst hl
    rw [setMutex_self]
    exact hmutex
  · rw [setMutex_of_ne f mutex hl]
    exact h.maps l'

omit [IdMap M] in
theorem Commits.elsewhere (h : f.Commits m) {i : Fin n} {l l' : MapLock} {code : Section l.Data l.Answer}
    (hcode : (m.cores i).pending env.maxCores l = some code) (hl : l' ≠ l) (core : Core σ) :
    (f.mutex l').Commits (m.shared.items l') (fun j => ((m.setCore i core).cores j).pending env.maxCores l')
      fun j => ((m.setCore i core).cores j).panics = true := by
  obtain ⟨e, k, hmode, he⟩ := Core.pending_eq_some hcode
  have hpending : (m.cores i).pending env.maxCores l' = none := by
    rw [Core.pending_eq hmode]
    exact Eff.code_unique he hl
  refine (h.maps l').congr (fun j code' hcode' => ?_) fun j hpanics => ?_
  · have hj : j ≠ i := by
      rintro rfl
      rw [hpending] at hcode'
      cases hcode'
    rw [Machine.setCore_cores, Function.update_of_ne hj]
    exact hcode'
  · have hj : j ≠ i := by
      rintro rfl
      exact Core.not_panics_of_takesLock (Core.takesLock_of_pending hcode) hpanics
    rw [Machine.setCore_cores, Function.update_of_ne hj]
    exact hpanics

theorem Commits.step_release (h : f.Commits m) {i : Fin n} {l : MapLock} {e : Eff σ} {k : e.Resp → Hyp σ Exit}
    {answer : l.Answer} {mutex : Mutex n l.Data l.Answer} {r : e.Resp}
    (hmode : (f.machine.cores i).mode = .el2 (.step e k)) (hrelease : (f.mutex l).release i = some (answer, mutex))
    (hr : e.ofAnswer l answer = some r) :
    ∃ m', m.step env topo (.run i) = some m' ∧ m.see (.run i) = [] ∧ FineMachine.Commits
      { f.setMutex l (if ((f.machine.cores i).answer e k r).panics then mutex.keep i else mutex) with
        machine := f.machine.answerCall i e k r } m' := by
  rw [h.machine, Machine.bare_cores] at hmode
  obtain ⟨code, hcode, hrun, hfree⟩ := (h.maps l).release hrelease
  have he : e.code env.maxCores l = some code := by
    rw [← Core.pending_eq hmode]
    exact hcode
  obtain ⟨r', shared, hr', hp, hitems, hothers, hbare⟩ := m.shared.perform_of_code he hrun
  cases hr.symm.trans hr'
  refine ⟨_, Machine.step_run_call hmode hp, Machine.see_run_call hmode hp, ?_, fun l' => ?_⟩
  · rw [h.machine]
    exact congrArg (fun s => { m.answerCall i e k r with shared := s }) hbare.symm
  · by_cases hl : l' = l
    · subst hl
      rw [setMutex_self]
      split
      · rename_i hpanics
        refine .keep ?_
        rw [h.machine] at hpanics
        exact (congrArg Core.panics (Function.update_self i _ m.cores)).trans hpanics
      · rw [hitems]
        exact .of_free hfree
    · rw [setMutex_of_ne f _ hl, hothers l' hl]
      exact h.elsewhere hcode hl _

theorem Commits.step_panic (h : f.Commits m) {i : Fin n} {l : MapLock} {e : Eff σ} {k : e.Resp → Hyp σ Exit}
    (hmode : (f.machine.cores i).mode = .el2 (.step e k)) (hpanics : (f.mutex l).panics i = true)
    (hcode : (e.code env.maxCores l).isSome = true) :
    ∃ m', m.step env topo (.run i) = some m' ∧ m.see (.run i) = [.halted i] ∧
      FineMachine.Commits { f with machine := f.machine.failCall i e } m' := by
  rw [h.machine, Machine.bare_cores] at hmode
  obtain ⟨code, he⟩ := Option.isSome_iff_exists.1 hcode
  have hcode : (m.cores i).pending env.maxCores l = some code := by rwa [Core.pending_eq hmode]
  have hnot := Core.not_panics_of_takesLock (Core.takesLock_of_pending hcode)
  have hpanicked : ((m.failCall i e).cores i).panics = true := by
    rw [Machine.failCall, Machine.setCore_cores, Function.update_self]
    rfl
  obtain ⟨hrun, hcommits⟩ : code.run (m.shared.items l) = none ∧ (f.mutex l).Commits (m.shared.items l)
      (fun j => ((m.failCall i e).cores j).pending env.maxCores l)
      fun j => ((m.failCall i e).cores j).panics = true := (h.maps l).panic hpanics hcode hnot hpanicked
  have hp := m.shared.perform_of_code_none he hrun
  refine ⟨m.failCall i e, Machine.step_run_fail hmode hp, Machine.see_run_fail hmode hp, ?_, fun l' => ?_⟩
  · rw [h.machine]
    rfl
  · by_cases hl : l' = l
    · subst hl
      exact hcommits
    · exact h.elsewhere hcode hl _

/-- **A step is made by the machine in one go, or is inside a lock**, where it is not seen. -/
theorem Commits.step (h : f.Commits m) {choice : FineChoice n} (hstep : FineStep env topo f choice f') :
    ∃ m', run (Machine.step env topo) m choice.atomic = some m' ∧
      Lib.trace (Machine.step env topo) Machine.see m choice.atomic = f.see choice ∧ f'.Commits m' := by
  cases hstep with
  | machine hlock hmachine =>
    obtain ⟨m', hm', hsee, h'⟩ := h.step_machine hlock hmachine
    exact ⟨m', Lib.run_cons_of_step [] hm', (Lib.trace_one hm').trans hsee, h'⟩
  | release hmode hrelease hr =>
    obtain ⟨m', hm', hsee, h'⟩ := h.step_release hmode hrelease hr
    exact ⟨m', Lib.run_cons_of_step [] hm', (Lib.trace_one hm').trans hsee, h'⟩
  | panic hmode hpanics hcode =>
    obtain ⟨m', hm', hsee, h'⟩ := h.step_panic hmode hpanics hcode
    exact ⟨m', Lib.run_cons_of_step [] hm', (Lib.trace_one hm').trans hsee, h'⟩
  | @acquire i l code mutex hcode hmutex =>
    rw [h.machine] at hcode
    exact ⟨m, rfl, rfl, h.setMutex ((h.maps l).acquire hcode hmutex)⟩
  | @access i l mutex hmutex => exact ⟨m, rfl, rfl, h.setMutex ((h.maps l).access hmutex)⟩

theorem Commits.run {choices : List (FineChoice n)} (h : f.Commits m)
    (hrun : Lib.run (FineMachine.step env topo) f choices = some f') :
    ∃ m', Lib.run (Machine.step env topo) m (choices.flatMap FineChoice.atomic) = some m' ∧ f'.Commits m' := by
  refine Lib.run_flatMap (C := fun _ _ => True) (fun f choice f' m h _ hstep => ?_) choices h
    (Lib.meets_of_forall f fun _ _ => trivial) hrun
  obtain ⟨m', hm', -, h'⟩ := h.step (step_cases hstep)
  exact ⟨m', hm', h'⟩

/-- Where its call is made in one go, CPU_ONs are in order, and it is neither CPU_DEFAULT_SUSPEND nor SYSTEM_SUSPEND. -/
def Ordered (env : Env M σ) (f : FineMachine σ env.maxCores n) (choice : FineChoice n) : Prop :=
  ∀ c ∈ choice.atomic, CpuOnOrdered env f.machine c ∧ c.NoDefaultSuspend

instance (env : Env M σ) (f : FineMachine σ env.maxCores n) (choice : FineChoice n) : Decidable (Ordered env f choice) :=
  inferInstanceAs (Decidable (∀ c ∈ choice.atomic, _))

omit [IdMap M] in
theorem Commits.cpuOnOrdered (h : f.Commits m) {c : Choice n} (hord : CpuOnOrdered env f.machine c) :
    CpuOnOrdered env m c := by
  rw [h.machine] at hord
  cases c <;> exact hord

theorem Commits.meets (h : f.Commits m) {choice : FineChoice n} (hord : Ordered env f choice) :
    Meets (Machine.step env topo) (fun m c => CpuOnOrdered env m c ∧ c.NoDefaultSuspend) m choice.atomic := by
  have hone : ∀ c ∈ choice.atomic, CpuOnOrdered env m c ∧ c.NoDefaultSuspend :=
    fun c hc => ⟨h.cpuOnOrdered (hord c hc).1, (hord c hc).2⟩
  cases choice with
  | machine choice => exact ⟨hone choice List.mem_cons_self, fun _ _ => trivial⟩
  | release i l | panic i l => exact ⟨hone (.run i) List.mem_cons_self, fun _ _ => trivial⟩
  | acquire i l | access i l => trivial

def Shows (env : Env M σ) (topo : Topology n) (f : FineMachine σ env.maxCores n) (s : Direct.State n) : Prop :=
  ∃ m, f.Commits m ∧ Sound env topo m ∧ ∀ i, (m.cores i).Shows env.psci (s i)

theorem Shows.step {s : Direct.State n} (h : f.Shows env topo s) {choice : FineChoice n} (hord : Ordered env f choice)
    (hstep : f.step env topo choice = some f') :
    Lib.Moves (Direct.step env.psci fun j => affinityOf (topo.mpidr j)) Direct.see s (f.see choice) (f'.Shows env topo) := by
  obtain ⟨m, hcommits, hsound, hshows⟩ := h
  obtain ⟨m', hm', htrace, hcommits'⟩ := hcommits.step (step_cases hstep)
  obtain ⟨actions, s', hactions, hseen, hsound', hshows'⟩ := shown_run hshows hsound (hcommits.meets hord) hm'
  exact ⟨actions, s', hactions, hseen.trans htrace, m', hcommits', hsound', hshows'⟩

end Steps

end FineMachine

/-! ## Results -/

end Ritm
