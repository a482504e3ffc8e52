import Ritm.Lib.Mutex
import Ritm.Lib.Simulation
import Ritm.MemoryAccess
import Mathlib.Logic.Function.Basic
/-!
# Console — log records and panics of all cores

One console, behind a spin lock that `log` and the panic handler hold for a whole line.  `embedded_io`, which writes the
pieces of the line to the console, is a parameter: see `EmbeddedIo` for what is relied on.  A console that never fails
shows whole lines only, in the order the lock was given back, and a core that panics can power the system off.  A console
that fails while a record is written makes `log` panic with the lock held, and the panic handler of that core waits for
it for ever.
-/
namespace Ritm

namespace Console

open Lib (Section Mutex run)

variable {T : Type} {n : Nat}

/-! ## Writing a line -/

/-- A console's `write`: how many bytes it has taken, or an error. -/
structure Impl (T : Type) where
  write : List U8 → T → Except Unit Nat × T

/-- Every write takes something, and what it has taken is shown. -/
structure Reliable (impl : Impl T) (out : T → List U8) : Prop where
  takes : ∀ buf t, buf ≠ [] → ∃ taken, 0 < taken ∧ taken ≤ buf.length ∧ (impl.write buf t).1 = .ok taken ∧
    out (impl.write buf t).2 = out t ++ buf.take taken

/-- **`embedded_io`'s `write_fmt`, and what is relied on of it.**  It is given the pieces its arguments are formatted to;
on a console that does not fail it writes them one after the other. -/
structure EmbeddedIo where
  writeFmt {T : Type} (impl : Impl T) (pieces : List (List U8)) : Section T (Except Unit Unit)
  writeFmt_run {T : Type} {impl : Impl T} {out : T → List U8} (h : Reliable impl out) (pieces : List (List U8)) (t : T) :
    ∃ t', (writeFmt impl pieces).run t = some (.ok (), t') ∧ out t' = out t ++ pieces.flatten

def ascii (text : String) : List U8 := text.toList.map fun c => BitVec.ofNat 8 c.toNat

inductive Level where
  | error
  | warn
  | info
  | debug
  | trace
  deriving DecidableEq, Repr

def Level.name : Level → List U8
  | error => ascii "ERROR"
  | warn => ascii "WARN"
  | info => ascii "INFO"
  | debug => ascii "DEBUG"
  | trace => ascii "TRACE"

def Level.toNat : Level → Nat
  | error => 1
  | warn => 2
  | info => 3
  | debug => 4
  | trace => 5

def logLevel : Level := .info

structure Record where
  level : Level
  args : List (List U8)
  deriving DecidableEq, Repr

/-- What a core holds the lock for: a record, or the message of a panic. -/
inductive Task where
  | log (record : Record)
  | panic (info : List (List U8))
  deriving DecidableEq, Repr

namespace Task

def pieces : Task → List (List U8)
  | log record => [ascii "[", record.level.name, ascii "] "] ++ record.args ++ [ascii "\n"]
  | panic info => info ++ [ascii "\n"]

def line (task : Task) : List U8 := task.pieces.flatten

/-- Under the lock: `log` expects its `writeln` to succeed, the panic handler ignores the result. -/
def code (io : EmbeddedIo) (impl : Impl T) (task : Task) : Section T Unit :=
  (io.writeFmt impl task.pieces).bind fun result =>
    match task, result with
    | log _, .error () => .panic
    | _, _ => .done ()

end Task

/-! ## The cores -/

inductive Activity where
  | running
  -- Waits for the lock, and inside it.
  | spinning (task : Task)
  | inside (task : Task)
  -- In the panic handler's `system_off`.
  | poweringOff
  deriving DecidableEq, Repr

def Task.after : Task → Activity
  | log _ => .running
  | panic _ => .poweringOff

structure State (n : Nat) (T : Type) where
  console : Mutex n T Unit
  -- `CONSOLE` and the logger have been set.
  consoleReady : Bool
  loggerReady : Bool
  cores : Fin n → Activity
  off : Bool

inductive Move (n : Nat) where
  -- `console::init` and `logger::init`, in `main`.
  | initConsole
  | initLogger
  -- Core `i` logs a record, or panics.
  | log (i : Fin n) (record : Record)
  | panic (i : Fin n) (info : List (List U8))
  | acquire (i : Fin n)
  | access (i : Fin n)
  | release (i : Fin n)
  -- What core `i` does under the lock panics, with the given message.
  | fails (i : Fin n) (info : List (List U8))
  -- Firmware powers the system off, or returns an error, which panics.
  | systemOff (i : Fin n)
  | systemOffFails (i : Fin n) (info : List (List U8))

namespace State

def setCore (s : State n T) (i : Fin n) (activity : Activity) : State n T :=
  { s with cores := Function.update s.cores i activity }

/-- The panic handler; without a console there is nothing to write. -/
def enterPanic (s : State n T) (i : Fin n) (info : List (List U8)) : State n T :=
  s.setCore i (if s.consoleReady then .spinning (.panic info) else .poweringOff)

def step (io : EmbeddedIo) (impl : Impl T) (s : State n T) (move : Move n) : Option (State n T) :=
  if s.off then none else
  match move with
  | .initConsole => some { s with consoleReady := true }
  | .initLogger => if s.consoleReady then some { s with loggerReady := true } else none
  | .log i record =>
    match s.cores i with
    | .running =>
      -- a record above `LOG_LEVEL` does not get to the logger
      if s.loggerReady ∧ record.level.toNat ≤ logLevel.toNat then some (s.setCore i (.spinning (.log record)))
      else some s
    | _ => none
  | .panic i info =>
    match s.cores i with
    | .running => some (s.enterPanic i info)
    | _ => none
  | .acquire i =>
    match s.cores i with
    | .spinning task =>
      (s.console.acquire i (task.code io impl)).map fun console => { s.setCore i (.inside task) with console := console }
    | _ => none
  | .access i => (s.console.access i).map fun console => { s with console := console }
  | .release i =>
    match s.cores i with
    | .inside task =>
      (s.console.release i).map fun released => { s.setCore i task.after with console := released.2 }
    | _ => none
  | .fails i info =>
    match s.cores i with
    | .inside _ => if s.console.panics i then some (s.enterPanic i info) else none
    | _ => none
  | .systemOff i =>
    match s.cores i with
    | .poweringOff => some { s with off := true }
    | _ => none
  | .systemOffFails i info =>
    match s.cores i with
    | .poweringOff => some (s.enterPanic i info)
    | _ => none

def boot (t : T) : State n T where
  console := ⟨t, .free⟩
  consoleReady := false
  loggerReady := false
  cores _ := .running
  off := false

def see (s : State n T) : Move n → List (List U8)
  | .release i =>
    match s.cores i with
    | .inside task => [task.line]
    | _ => []
  | _ => []

inductive Stepped (io : EmbeddedIo) (impl : Impl T) (s : State n T) : Move n → State n T → Prop
  | initConsole : Stepped io impl s .initConsole { s with consoleReady := true }
  | initLogger (hready : s.consoleReady = true) : Stepped io impl s .initLogger { s with loggerReady := true }
  | log {i : Fin n} {record : Record} (hcore : s.cores i = .running) (hready : s.loggerReady = true) :
      Stepped io impl s (.log i record) (s.setCore i (.spinning (.log record)))
  | drop {i : Fin n} {record : Record} : Stepped io impl s (.log i record) s
  | panic {i : Fin n} {info : List (List U8)} (hcore : s.cores i = .running) :
      Stepped io impl s (.panic i info) (s.enterPanic i info)
  | acquire {i : Fin n} {task : Task} {console : Mutex n T Unit} (hcore : s.cores i = .spinning task)
      (hlock : s.console.acquire i (task.code io impl) = some console) :
      Stepped io impl s (.acquire i) { s.setCore i (.inside task) with console := console }
  | access {i : Fin n} {console : Mutex n T Unit} (hlock : s.console.access i = some console) :
      Stepped io impl s (.access i) { s with console := console }
  | release {i : Fin n} {task : Task} {released : Unit × Mutex n T Unit} (hcore : s.cores i = .inside task)
      (hlock : s.console.release i = some released) :
      Stepped io impl s (.release i) { s.setCore i task.after with console := released.2 }
  | fails {i : Fin n} {task : Task} {info : List (List U8)} (hcore : s.cores i = .inside task)
      (hlock : s.console.panics i = true) : Stepped io impl s (.fails i info) (s.enterPanic i info)
  | systemOff {i : Fin n} (hcore : s.cores i = .poweringOff) : Stepped io impl s (.systemOff i) { s with off := true }
  | systemOffFails {i : Fin n} {info : List (List U8)} (hcore : s.cores i = .poweringOff) :
      Stepped io impl s (.systemOffFails i info) (s.enterPanic i info)

variable {io : EmbeddedIo} {impl : Impl T} {s s' : State n T}

theorem step_cases {move : Move n} (h : s.step io impl move = some s') : Stepped io impl s move s' := by
  unfold step at h
  split at h
  · cases h
  split at h
  case h_1 =>
    cases h
    exact .initConsole
  case h_2 =>
    split at h
    · cases h
      exact .initLogger ‹_›
    · cases h
  case h_3 i record =>
    split at h
    · rename_i hcore
      split at h
      · rename_i hready
        cases h
        exact .log hcore hready.1
      · cases h
        exact .drop
    · cases h
  case h_4 i info =>
    split at h
    · cases h
      exact .panic ‹_›
    · cases h
  case h_5 i =>
    split at h
    · rename_i task hcore
      obtain ⟨console, hlock, rfl⟩ := Option.map_eq_some_iff.1 h
      exact .acquire hcore hlock
    · cases h
  case h_6 i =>
    obtain ⟨console, hlock, rfl⟩ := Option.map_eq_some_iff.1 h
    exact .access hlock
  case h_7 i =>
    split at h
    · rename_i task hcore
      obtain ⟨released, hlock, rfl⟩ := Option.map_eq_some_iff.1 h
      exact .release hcore hlock
    · cases h
  case h_8 i info =>
    split at h
    · rename_i task hcore
      split at h
      · rename_i hlock
        cases h
        exact .fails hcore hlock
      · cases h
    · cases h
  case h_9 i =>
    split at h
    · cases h
      exact .systemOff ‹_›
    · cases h
  case h_10 i info =>
    split at h
    · cases h
      exact .systemOffFails ‹_›
    · cases h

@[simp] theorem setCore_cores (s : State n T) (i : Fin n) (activity : Activity) :
    (s.setCore i activity).cores = Function.update s.cores i activity := rfl

theorem forall_setCore {P : Fin n → Activity → Prop} {i : Fin n} {activity : Activity}
    (h : ∀ j, j ≠ i → P j (s.cores j)) (hi : P i activity) : ∀ j, P j ((s.setCore i activity).cores j) :=
  (Function.forall_update_iff s.cores P).2 ⟨hi, h⟩

end State

/-! ## A console that does not fail -/

/-- **A task writes its line**, and does not panic. -/
theorem code_run (io : EmbeddedIo) {impl : Impl T} {out : T → List U8} (h : Reliable impl out) (task : Task) (t : T) :
    ∃ t', (task.code io impl).run t = some ((), t') ∧ out t' = out t ++ task.line := by
  obtain ⟨t', hrun, hout⟩ := io.writeFmt_run h task.pieces t
  refine ⟨t', ?_, hout⟩
  rw [Task.code, Section.run_bind, hrun]
  cases task <;> rfl

namespace State

section Invariant

variable {io : EmbeddedIo} {impl : Impl T} {out : T → List U8} {s s' : State n T} {t : T}

def holding (io : EmbeddedIo) (impl : Impl T) (s : State n T) (i : Fin n) : Option (Section T Unit) :=
  match s.cores i with
  | .inside task => some (task.code io impl)
  | _ => none

theorem holding_inside {i : Fin n} {task : Task} (h : s.cores i = .inside task) :
    s.holding io impl i = some (task.code io impl) := by
  rw [holding, h]

/-- The lines that are finished have left `t`; who is inside has the lock. -/
structure Orderly (io : EmbeddedIo) (impl : Impl T) (s : State n T) (t : T) : Prop where
  commits : s.console.Commits t (s.holding io impl) fun _ => False
  holder : ∀ i task, s.cores i = .inside task → ∃ rest, s.console.lock = .held i rest

theorem Orderly.setCore (h : Orderly io impl s t) {i : Fin n} {activity : Activity}
    (hi : ∀ task, s.cores i ≠ .inside task) (hactivity : ∀ task, activity ≠ .inside task) :
    Orderly io impl (s.setCore i activity) t where
  commits := by
    refine h.commits.congr (fun j code hcode => ?_) fun _ => id
    have hj : j ≠ i := by
      rintro rfl
      unfold holding at hcode
      split at hcode
      · rename_i task hinside
        exact hi task hinside
      · cases hcode
    rw [holding, setCore_cores, Function.update_of_ne hj]
    exact hcode
  holder := forall_setCore (P := fun i activity => ∀ task, activity = .inside task → ∃ rest, s.console.lock = .held i rest)
    (fun j _ => h.holder j) fun task heq => absurd heq (hactivity task)

theorem Orderly.enterPanic (h : Orderly io impl s t) {i : Fin n} (hi : ∀ task, s.cores i ≠ .inside task)
    (info : List (List U8)) : Orderly io impl (s.enterPanic i info) t := by
  refine h.setCore hi fun task => ?_
  split <;> exact nofun

theorem Orderly.acquire (h : Orderly io impl s t) {i : Fin n} {task : Task} {console : Mutex n T Unit}
    (hlock : s.console.acquire i (task.code io impl) = some console) :
    Orderly io impl { s.setCore i (.inside task) with console := console } t := by
  obtain ⟨hfree, rfl⟩ := Mutex.acquire_free hlock
  have hdata := h.commits
  rw [Mutex.Commits, hfree] at hdata
  refine ⟨.inl ⟨task.code io impl, ?_, congrArg _ hdata⟩, ?_⟩
  · exact holding_inside (Function.update_self ..)
  · refine forall_setCore (P := fun j activity => ∀ task', activity = .inside task' →
      ∃ rest, Lib.Lock.held i (task.code io impl) = .held j rest) (fun j _ task' hinside => ?_) fun _ _ => ⟨_, rfl⟩
    obtain ⟨rest, hheld⟩ := h.holder j task' hinside
    cases hfree.symm.trans hheld

theorem Orderly.release (hreliable : Reliable impl out) (h : Orderly io impl s t) {i : Fin n} {task : Task}
    {released : Unit × Mutex n T Unit} (hcore : s.cores i = .inside task)
    (hlock : s.console.release i = some released) :
    ∃ t', Orderly io impl { s.setCore i task.after with console := released.2 } t' ∧ out t' = out t ++ task.line := by
  obtain ⟨code, hcode, hrun, hfree⟩ := h.commits.release hlock
  cases (holding_inside hcore).symm.trans hcode
  obtain ⟨t', hrun', hout⟩ := code_run io hreliable task t
  cases hrun.symm.trans hrun'
  refine ⟨released.2.data, ⟨.of_free hfree, ?_⟩, hout⟩
  refine forall_setCore (P := fun j activity => ∀ task', activity = .inside task' → ∃ rest, released.2.lock = .held j rest)
    (fun j hj task' hinside => ?_) fun task' hafter => ?_
  · obtain ⟨rest, hheld⟩ := h.holder j task' hinside
    cases hheld.symm.trans (Mutex.release_held hlock).1
    exact absurd rfl hj
  · cases task <;> cases hafter

theorem Orderly.access (h : Orderly io impl s t) {i : Fin n} {console : Mutex n T Unit}
    (hlock : s.console.access i = some console) : Orderly io impl { s with console := console } t := by
  refine ⟨h.commits.access hlock, fun j task hinside => ?_⟩
  obtain ⟨rest, hheld⟩ := h.holder j task hinside
  obtain ⟨write, next, hheld', rfl⟩ := Mutex.access_held hlock
  cases hheld.symm.trans hheld'
  exact ⟨next s.console.data, rfl⟩

theorem Orderly.not_panics (hreliable : Reliable impl out) (h : Orderly io impl s t) {i : Fin n} {task : Task}
    (hcore : s.cores i = .inside task) : ¬ s.console.panics i = true := by
  intro hpanics
  have hcommits := h.commits
  rw [Mutex.Commits, Mutex.panics_held hpanics] at hcommits
  obtain ⟨code, hcode, hrun⟩ := hcommits.resolve_right fun h' => h'.1
  cases (holding_inside hcore).symm.trans hcode
  obtain ⟨t', hrun', -⟩ := code_run io hreliable task t
  cases hrun.trans hrun'

/-- **A step finishes a line or none.** -/
theorem Orderly.step (hreliable : Reliable impl out) (h : Orderly io impl s t) {move : Move n}
    (hstep : Stepped io impl s move s') : ∃ t', Orderly io impl s' t' ∧ out t' = out t ++ (s.see move).flatten := by
  have hsilent : ∀ {s' : State n T}, Orderly io impl s' t → ∃ t', Orderly io impl s' t' ∧ out t' = out t ++ [] := fun h' =>
    ⟨t, h', (List.append_nil _).symm⟩
  cases hstep with
  | initConsole | initLogger | systemOff => exact hsilent ⟨h.commits, h.holder⟩
  | drop => exact hsilent h
  | log hcore =>
    refine hsilent (h.setCore (fun task hinside => ?_) fun _ => nofun)
    cases hcore.symm.trans hinside
  | panic hcore | systemOffFails hcore =>
    refine hsilent (h.enterPanic (fun task hinside => ?_) _)
    cases hcore.symm.trans hinside
  | acquire _ hlock => exact hsilent (h.acquire hlock)
  | access hlock => exact hsilent (h.access hlock)
  | fails hcore hlock => exact absurd hlock (h.not_panics hreliable hcore)
  | release hcore hlock =>
    obtain ⟨t', h', hout⟩ := h.release hreliable hcore hlock
    refine ⟨t', h', ?_⟩
    rw [see, hcore, hout]
    simp

theorem Orderly.run (hreliable : Reliable impl out) : ∀ {moves : List (Move n)} {s : State n T} {t : T},
    Orderly io impl s t → Lib.run (State.step io impl) s moves = some s' →
    ∃ t', Orderly io impl s' t' ∧ out t' = out t ++ (Lib.trace (State.step io impl) see s moves).flatten
  | [], s, t, h, hrun => by
    cases hrun
    exact ⟨t, h, (List.append_nil _).symm⟩
  | move :: moves, s, t, h, hrun => by
    obtain ⟨s₁, hstep, hrun'⟩ := Lib.run_cons hrun
    obtain ⟨t₁, h₁, hout₁⟩ := h.step hreliable (step_cases hstep)
    obtain ⟨t', h', hout'⟩ := h₁.run hreliable hrun'
    refine ⟨t', h', ?_⟩
    rw [Lib.trace_cons moves hstep, List.flatten_append, hout', hout₁, List.append_assoc]

theorem orderly_boot (io : EmbeddedIo) (impl : Impl T) (t : T) : Orderly io impl (boot t : State n T) t :=
  ⟨.of_free rfl, fun _ _ => nofun⟩

theorem finishes (io : EmbeddedIo) (impl : Impl T) {i : Fin n} {task : Task} :
    ∀ {rest : Section T Unit} {s : State n T} {t' : T}, s.off = false →
    s.cores i = .inside task → s.console.lock = .held i rest → rest.run s.console.data = some ((), t') →
    ∃ moves, Lib.run (State.step io impl) s moves = some { s.setCore i task.after with console := ⟨t', .free⟩ }
  | .done (), s, t', hoff, hcore, hlock, hrun => by
    cases hrun
    have hrelease : s.console.release i = some ((), ⟨s.console.data, .free⟩) := by
      rw [Mutex.release, hlock]
      exact if_pos rfl
    refine ⟨[.release i], Lib.run_cons_of_step [] ?_⟩
    rw [State.step, hoff]
    simp only [hcore, hrelease]
    rfl
  | .access write next, s, t', hoff, hcore, hlock, hrun => by
    have haccess : s.console.access i = some ⟨write s.console.data, .held i (next s.console.data)⟩ := by
      rw [Mutex.access, hlock]
      exact if_pos rfl
    have hstep : s.step io impl (.access i) =
        some { s with console := ⟨write s.console.data, .held i (next s.console.data)⟩ } := by
      rw [State.step, hoff]
      simp only [haccess]
      rfl
    obtain ⟨moves, hmoves⟩ := @finishes io impl i task (next s.console.data)
      { s with console := ⟨write s.console.data, .held i (next s.console.data)⟩ } t' hoff hcore rfl hrun
    exact ⟨.access i :: moves, (Lib.run_cons_of_step moves hstep).trans hmoves⟩
  | .panic, _, _, _, _, _, hrun => by cases hrun

theorem Orderly.finishes (hreliable : Reliable impl out) (h : Orderly io impl s t) (hoff : s.off = false) {i : Fin n}
    {rest : Section T Unit} (hlock : s.console.lock = .held i rest) : ∃ task moves t', s.cores i = .inside task ∧
      Lib.run (State.step io impl) s moves = some { s.setCore i task.after with console := ⟨t', .free⟩ } := by
  have hcommits := h.commits
  rw [Mutex.Commits, hlock] at hcommits
  obtain ⟨code, hcode, hrun⟩ := hcommits.resolve_right fun h' => h'.1
  unfold holding at hcode
  split at hcode
  · rename_i task hcore
    cases hcode
    obtain ⟨t', hrun', -⟩ := code_run io hreliable task t
    obtain ⟨moves, hmoves⟩ := State.finishes io impl hoff hcore hlock (hrun.trans hrun')
    exact ⟨task, moves, t', hcore, hmoves⟩
  · cases hcode

theorem powers_off {i : Fin n} (hoff : s.off = false) (hcore : s.cores i = .poweringOff) :
    Lib.run (State.step io impl) s [.systemOff i] = some { s with off := true } := by
  refine Lib.run_cons_of_step [] ?_
  rw [State.step, hoff]
  simp only [hcore]
  rfl

theorem Orderly.powers_off_inside (hreliable : Reliable impl out) (h : Orderly io impl s t) (hoff : s.off = false) {i : Fin n}
    {info : List (List U8)} (hcore : s.cores i = .inside (.panic info)) :
    ∃ moves s', Lib.run (State.step io impl) s (moves ++ [.systemOff i]) = some s' ∧ s'.off = true := by
  obtain ⟨rest, hlock⟩ := h.holder i _ hcore
  obtain ⟨task, moves, t', hcore', hmoves⟩ := h.finishes hreliable hoff hlock
  cases hcore.symm.trans hcore'
  have hlast : Lib.run (State.step io impl) { s.setCore i (Task.panic info).after with console := ⟨t', .free⟩ } [.systemOff i] =
      some { s.setCore i (Task.panic info).after with console := ⟨t', .free⟩, off := true } :=
    powers_off hoff (Function.update_self i _ s.cores)
  exact ⟨moves, _, (Lib.run_append _ hmoves).trans hlast, rfl⟩

theorem Orderly.powers_off_spinning (hreliable : Reliable impl out) (h : Orderly io impl s t) (hoff : s.off = false)
    {i : Fin n} {info : List (List U8)} (hcore : s.cores i = .spinning (.panic info)) (hfree : s.console.lock = .free) :
    ∃ moves s', Lib.run (State.step io impl) s (moves ++ [.systemOff i]) = some s' ∧ s'.off = true := by
  have hacquire : s.console.acquire i ((Task.panic info).code io impl) =
      some ⟨s.console.data, .held i ((Task.panic info).code io impl)⟩ := by
    rw [Mutex.acquire, hfree]
  have hstep : s.step io impl (.acquire i) = some { s.setCore i (.inside (.panic info)) with
      console := ⟨s.console.data, .held i ((Task.panic info).code io impl)⟩ } := by
    rw [State.step, hoff]
    simp only [hcore, hacquire]
    rfl
  have hinside : (s.setCore i (.inside (.panic info))).cores i = .inside (.panic info) := Function.update_self i _ s.cores
  obtain ⟨moves, s', hmoves, hs'⟩ := (h.acquire hacquire).powers_off_inside hreliable hoff hinside
  exact ⟨.acquire i :: moves, s', (Lib.run_cons_of_step _ hstep).trans hmoves, hs'⟩

end Invariant

/-! ## A console that fails -/

structure Ready (s : State n T) : Prop where
  logger : s.loggerReady = true → s.consoleReady = true
  cores : ∀ i task, s.cores i = .spinning task ∨ s.cores i = .inside task → s.consoleReady = true

/-- The core waits for the lock it holds. -/
structure Hung (s : State n T) (i : Fin n) (info : List (List U8)) : Prop where
  lock : s.console.lock = .held i .panic
  core : s.cores i = .spinning (.panic info)

section Failure

variable {io : EmbeddedIo} {impl : Impl T} {s s' : State n T} {move : Move n}

theorem Ready.setCore (h : Ready s) (i : Fin n) (activity : Activity)
    (hactivity : ∀ task, activity = .spinning task ∨ activity = .inside task → s.consoleReady = true) :
    Ready (s.setCore i activity) :=
  ⟨h.logger, forall_setCore (P := fun _ activity => ∀ task, activity = .spinning task ∨ activity = .inside task →
    s.consoleReady = true) (fun j _ => h.cores j) hactivity⟩

theorem Ready.enterPanic (h : Ready s) (i : Fin n) (info : List (List U8)) : Ready (s.enterPanic i info) := by
  refine h.setCore i _ fun task htask => ?_
  split at htask
  · assumption
  · rcases htask with htask | htask <;> cases htask

theorem Ready.step (h : Ready s) (hstep : Stepped io impl s move s') : Ready s' := by
  cases hstep with
  | initConsole => exact ⟨fun _ => rfl, fun _ _ _ => rfl⟩
  | initLogger hready => exact ⟨fun _ => hready, h.cores⟩
  | log _ hready => exact h.setCore _ _ fun _ _ => h.logger hready
  | drop => exact h
  | panic | fails | systemOffFails => exact h.enterPanic _ _
  | @acquire i task _ hcore =>
    have h' := h.setCore i (.inside task) fun _ _ => h.cores i task (.inl hcore)
    exact ⟨h'.logger, h'.cores⟩
  | access => exact ⟨h.logger, h.cores⟩
  | @release i task _ hcore =>
    have h' := h.setCore i task.after fun _ _ => h.cores i task (.inr hcore)
    exact ⟨h'.logger, h'.cores⟩
  | systemOff => exact ⟨h.logger, h.cores⟩

theorem Hung.setCore {i j : Fin n} {info : List (List U8)} (h : Hung s i info) (hj : i ≠ j) (activity : Activity) :
    Hung (s.setCore j activity) i info := by
  refine ⟨h.lock, ?_⟩
  rw [setCore_cores, Function.update_of_ne hj]
  exact h.core

theorem Hung.step {i : Fin n} {info : List (List U8)} (h : Hung s i info) (hstep : Stepped io impl s move s') :
    Hung s' i info := by
  have hne : ∀ {j : Fin n}, s.cores j ≠ .spinning (.panic info) → i ≠ j := fun hj heq => hj (heq ▸ h.core)
  cases hstep with
  | initConsole | initLogger | systemOff => exact ⟨h.lock, h.core⟩
  | drop => exact h
  | log hcore | panic hcore | systemOffFails hcore => exact h.setCore (hne (by rw [hcore]; exact nofun)) _
  | @fails j _ _ hcore => exact h.setCore (hne (by rw [hcore]; exact nofun)) _
  | acquire _ hlock =>
    rw [Mutex.acquire, h.lock] at hlock
    cases hlock
  | access hlock =>
    obtain ⟨_, _, hheld, -⟩ := Mutex.access_held hlock
    cases h.lock.symm.trans hheld
  | release _ hlock => cases h.lock.symm.trans (Mutex.release_held hlock).1

theorem hung_of_fails (hready : Ready s) {i : Fin n} {info : List (List U8)}
    (hstep : Stepped io impl s (.fails i info) s') : Hung s' i info := by
  cases hstep with
  | @fails _ task _ hcore hlock =>
    refine ⟨Mutex.panics_held hlock, ?_⟩
    rw [enterPanic, setCore_cores, Function.update_self, if_pos (hready.cores i task (.inr hcore))]

end Failure

end State

/-! ## Results -/

open State

/-- **Lines are whole.**  On a console that does not fail, whenever the lock is free, what is shown is the lines of the
records and panics of all cores one after the other, as their locks were given back. -/
theorem lines_whole (io : EmbeddedIo) {impl : Impl T} {out : T → List U8} (hreliable : Reliable impl out) (t : T)
    (moves : List (Move n)) (s : State n T) (hrun : run (State.step io impl) (boot t) moves = some s) (hfree : s.console.lock = .free) :
    out s.console.data = out t ++ (Lib.trace (State.step io impl) see (boot t) moves).flatten := by
  obtain ⟨t', h', hout⟩ := (orderly_boot io impl t).run hreliable hrun
  have hdata := h'.commits
  rw [Mutex.Commits, hfree] at hdata
  rw [hdata, hout]

section PlainIo

/-- Write what is left until nothing is; a write that takes nothing, or more than there is, panics.  A byte at least is
taken each time. -/
def writeAllFrom (impl : Impl T) : (fuel : Nat) → List U8 → Section T (Except Unit Unit)
  | _, [] => .done (.ok ())
  | 0, _ :: _ => .panic
  | fuel + 1, byte :: buf => .access (fun t => (impl.write (byte :: buf) t).2) fun t =>
    match (impl.write (byte :: buf) t).1 with
    | .error () => .done (.error ())
    | .ok 0 => .panic
    | .ok (taken + 1) =>
      if taken ≤ buf.length then writeAllFrom impl fuel (buf.drop taken) else .panic

def writeAll (impl : Impl T) (buf : List U8) : Section T (Except Unit Unit) := writeAllFrom impl buf.length buf

def writeFmt (impl : Impl T) : List (List U8) → Section T (Except Unit Unit)
  | [] => .done (.ok ())
  | piece :: pieces => (writeAll impl piece).bind fun result =>
    match result with
    | .ok () => writeFmt impl pieces
    | .error () => .done (.error ())

variable {impl : Impl T} {out : T → List U8} (h : Reliable impl out)
include h

theorem writeAllFrom_run : ∀ (fuel : Nat) (buf : List U8) (t : T), buf.length ≤ fuel →
    ∃ t', (writeAllFrom impl fuel buf).run t = some (.ok (), t') ∧ out t' = out t ++ buf
  | _, [], t, _ => ⟨t, by simp [writeAllFrom, Section.run], by simp⟩
  | fuel + 1, byte :: buf, t, hfuel => by
    obtain ⟨taken, hpos, hle, hwrite, hout⟩ := h.takes (byte :: buf) t (List.cons_ne_nil _ _)
    obtain ⟨taken, rfl⟩ := Nat.exists_eq_add_of_lt hpos
    rw [Nat.zero_add] at hle hwrite hout
    have hle' : taken ≤ buf.length := Nat.le_of_succ_le_succ hle
    have hrest : (buf.drop taken).length ≤ fuel := by
      rw [List.length_drop]
      exact Nat.le_trans (Nat.sub_le _ _) (Nat.le_of_succ_le_succ hfuel)
    obtain ⟨t', hrun, hout'⟩ := writeAllFrom_run fuel (buf.drop taken) (impl.write (byte :: buf) t).2 hrest
    refine ⟨t', ?_, ?_⟩
    · rw [writeAllFrom, Section.run]
      simp only [hwrite, if_pos hle']
      exact hrun
    · rw [hout', hout, List.take_succ_cons, List.append_assoc, List.cons_append, List.take_append_drop]

theorem writeFmt_run : ∀ (pieces : List (List U8)) (t : T),
    ∃ t', (writeFmt impl pieces).run t = some (.ok (), t') ∧ out t' = out t ++ pieces.flatten
  | [], t => ⟨t, rfl, by simp⟩
  | piece :: pieces, t => by
    obtain ⟨t₁, hrun, hout⟩ := writeAllFrom_run h piece.length piece t (Nat.le_refl _)
    obtain ⟨t', hrun', hout'⟩ := writeFmt_run pieces t₁
    refine ⟨t', ?_, ?_⟩
    · rw [writeFmt, Section.run_bind, writeAll, hrun]
      exact hrun'
    · rw [hout', hout, List.flatten_cons, List.append_assoc]

end PlainIo

def plainIo : EmbeddedIo where
  writeFmt := writeFmt
  writeFmt_run := writeFmt_run

/-- A UART of which the output is kept; it takes four bytes at a time. -/
def uart : Impl (List U8) where
  write buf t := (.ok (min 4 buf.length), t ++ buf.take 4)

theorem reliable_uart : Reliable uart id where
  takes buf t hne := by
    have hlength := List.length_pos_iff.2 hne
    refine ⟨min 4 buf.length, by omega, by omega, rfl, ?_⟩
    show t ++ buf.take 4 = t ++ buf.take (min 4 buf.length)
    rw [← List.take_take, List.take_length]

/-- Core `i` logs a record, which takes eight writes, while core `j` has panicked and waits. -/
def loggingMoves (i j : Fin n) : List (Move n) :=
  [.initConsole, .initLogger, .log i ⟨.info, [ascii "starting ritm"]⟩, .acquire i, .access i, .panic j [ascii "panicked"]] ++
    List.replicate 7 (.access i) ++ [.release i]

theorem lines_whole_logging : ∃ s : State 2 (List U8), run (State.step plainIo uart) (boot []) (loggingMoves 0 1) = some s ∧
    s.console.data = ascii "[INFO] starting ritm\n" := by
  obtain ⟨s, hs, hfree⟩ : ∃ s : State 2 (List U8), run (State.step plainIo uart) (boot []) (loggingMoves 0 1) = some s ∧
    s.console.lock = .free := ⟨_, rfl, rfl⟩
  refine ⟨s, hs, ?_⟩
  have hlines := lines_whole plainIo reliable_uart [] (loggingMoves 0 1) s hs hfree
  refine hlines.trans ?_
  decide +kernel

def Activity.panics : Activity → Bool
  | .spinning (.panic _) | .inside (.panic _) | .poweringOff => true
  | _ => false

/-- **A core that panics can get to `system_off`**, unless the system is off: no lock and no other core is in its way for
good. -/
theorem panic_can_power_off (io : EmbeddedIo) {impl : Impl T} {out : T → List U8} (hreliable : Reliable impl out) (t : T)
    (moves : List (Move n)) (s : State n T) (hrun : run (State.step io impl) (boot t) moves = some s) (i : Fin n)
    (hpanics : (s.cores i).panics = true) :
    s.off = true ∨ ∃ moves' s', run (State.step io impl) s (moves' ++ [.systemOff i]) = some s' ∧ s'.off = true := by
  obtain ⟨t₀, h, -⟩ := (orderly_boot io impl t).run hreliable hrun
  cases hoff : s.off with
  | true => exact .inl rfl
  | false =>
    refine .inr ?_
    unfold Activity.panics at hpanics
    split at hpanics
    · rename_i info hcore
      cases hlock : s.console.lock with
      | free => exact h.powers_off_spinning hreliable hoff hcore hlock
      | held j rest =>
        obtain ⟨task, moves₁, t₁, hcore', hmoves₁⟩ := h.finishes hreliable hoff hlock
        have hij : i ≠ j := by
          rintro rfl
          cases hcore.symm.trans hcore'
        obtain ⟨t₂, h₂, -⟩ := h.run hreliable hmoves₁
        have hspinning : (s.setCore j task.after).cores i = .spinning (.panic info) := by
          rw [setCore_cores, Function.update_of_ne hij]
          exact hcore
        obtain ⟨moves₂, s', hmoves₂, hs'⟩ := h₂.powers_off_spinning hreliable hoff hspinning rfl
        refine ⟨moves₁ ++ moves₂, s', ?_, hs'⟩
        rw [List.append_assoc]
        exact (Lib.run_append _ hmoves₁).trans hmoves₂
    · rename_i info hcore
      exact h.powers_off_inside hreliable hoff hcore
    · rename_i hcore
      exact ⟨[], _, powers_off hoff hcore, rfl⟩
    · cases hpanics

theorem panic_can_power_off_waiting : ∃ s : State 2 (List U8),
    run (State.step plainIo uart) (boot []) ((loggingMoves 0 1).take 8) = some s ∧ (s.cores 1).panics = true ∧
      ∃ moves s', run (State.step plainIo uart) s (moves ++ [.systemOff 1]) = some s' ∧ s'.off = true := by
  have hpanics : (run (State.step plainIo uart) (boot [] : State 2 (List U8)) ((loggingMoves 0 1).take 8)).map
      (fun s => ((s.cores 1).panics, s.off)) = some (true, false) := by decide +kernel
  obtain ⟨s, hs, hseen⟩ := Option.map_eq_some_iff.1 hpanics
  obtain ⟨hcore, hoff⟩ := Prod.mk.inj hseen
  refine ⟨s, hs, hcore, ?_⟩
  refine (panic_can_power_off plainIo reliable_uart [] ((loggingMoves 0 1).take 8) s hs 1 hcore).resolve_left fun h => ?_
  rw [hoff] at h
  cases h

/-- **A record that cannot be written hangs its core**: `log` panics with the lock held, and in every run from there on
the panic handler waits for that lock and does not get to `system_off`. -/
theorem failed_log_hangs (io : EmbeddedIo) (impl : Impl T) (t : T) (before after : List (Move n)) (i : Fin n)
    (info : List (List U8)) (s : State n T) (hrun : run (State.step io impl) (boot t) (before ++ .fails i info :: after) = some s) :
    s.cores i = .spinning (.panic info) ∧ s.console.lock = .held i .panic := by
  obtain ⟨s₀, hrun₀, hrun₁⟩ := Lib.run_split hrun
  obtain ⟨s₁, hstep, hrun₂⟩ := Lib.run_cons hrun₁
  have hready : Ready s₀ := Lib.invariant (C := fun _ _ => True) (fun _ _ _ h _ hstep => h.step (step_cases hstep)) before
    (boot t) s₀ ⟨nofun, fun _ _ h => by rcases h with h | h <;> cases h⟩ (Lib.meets_of_forall _ fun _ _ => trivial) hrun₀
  have hung : Hung s i info := Lib.invariant (C := fun _ _ => True) (I := fun s => Hung s i info)
    (fun _ _ _ h _ hstep => h.step (step_cases hstep)) after s₁ s (hung_of_fails hready (step_cases hstep))
    (Lib.meets_of_forall _ fun _ _ => trivial) hrun₂
  exact ⟨hung.core, hung.lock⟩

def brokenConsole : Impl Unit where
  write _ t := (.error (), t)

theorem failed_log_hangs_broken : ∃ s : State 2 Unit,
    run (State.step plainIo brokenConsole) (boot ()) ([.initConsole, .initLogger, .log 0 ⟨.info, []⟩, .acquire 0, .access 0] ++
      .fails 0 [ascii "writeln failed"] :: [.panic 1 [ascii "panicked"]]) = some s ∧
      s.cores 0 = .spinning (.panic [ascii "writeln failed"]) := by
  obtain ⟨s, hs⟩ := Option.isSome_iff_exists.1 (show (run (State.step plainIo brokenConsole) (boot () : State 2 Unit)
    ([.initConsole, .initLogger, .log 0 ⟨.info, []⟩, .acquire 0, .access 0] ++
      .fails 0 [ascii "writeln failed"] :: [.panic 1 [ascii "panicked"]])).isSome = true by decide +kernel)
  exact ⟨s, hs, (failed_log_hangs plainIo brokenConsole () _ _ 0 _ s hs).1⟩

end Console

end Ritm
