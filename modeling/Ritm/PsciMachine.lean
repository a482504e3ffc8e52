import Ritm.Hypervisor
import Ritm.Lib.Reach
/-!
# PsciMachine — the machine the guests are to see

The same cores with PSCI firmware and nothing in between: a core is off, runs its guest, waits for the answer to a call,
or is about to begin somewhere.  A call that does not decode is rejected; a CPU_ON starts its target where the call asks,
a CPU_SUSPEND may power the core down until it begins again where the call asks, a CPU_OFF turns it off, and any other
call is firmware's to answer.  There are no closures, stacks, contexts or entry points of a hypervisor here.  It is what
RITM is to look like (`Event`), not how it works.
-/
namespace Ritm
namespace Direct

variable {n : Nat}

/-- Where a guest that made a call continues: the instruction after it, the program status and x0–x30. -/
structure Frame where
  pc : U64
  spsr : U64
  x : Fin 31 → U64

def regAt (x : Fin 31 → U64) (k : Nat) : U64 := if h : k < 31 then x ⟨k, h⟩ else 0

namespace Frame

def call (frame : Frame) : GuestCall := ⟨regAt frame.x 0, regAt frame.x 1, regAt frame.x 2, regAt frame.x 3⟩

def fail (frame : Frame) (x0 : U64) : Frame := { frame with x := fun i => if i.val = 0 then x0 else frame.x i }

def respond (frame : Frame) (x0 : U64) : Frame :=
  { frame with x := fun i => if i.val = 0 then x0 else if i.val < 4 then 0 else frame.x i }

end Frame

inductive Core where
  | off
  | running
  | calling (frame : Frame)
  -- The call is answered; the guest continues in the frame.
  | answered (frame : Frame)
  | starting (entryPoint contextId : U64)
  | suspended (entryPoint contextId : U64)
  | halted

inductive Action (n : Nat) where
  | call (i : Fin n) (frame : Frame)
  -- The call does not decode.
  | reject (i : Fin n)
  -- Firmware answers a call that is neither CPU_ON nor CPU_SUSPEND; it returns from one that is; it starts a core.
  | forward (i : Fin n) (x0 : U64)
  | refuse (i : Fin n) (x0 : U64)
  | grant (i j : Fin n)
  | powerDown (i : Fin n)
  | turnOff (i : Fin n)
  | wake (i : Fin n)
  -- The guest of core `i` begins, or continues after its call.
  | begin (i : Fin n)
  | resume (i : Fin n)
  -- Core `i` stops for good.
  | halt (i : Fin n)

inductive Event (n : Nat) where
  | called (i : Fin n) (frame : Frame)
  | forwarded (i : Fin n) (functionId : U32) (args : List U64) (x0 : U64)
  | refused (i : Fin n) (x0 : U64)
  | granted (i j : Fin n)
  | poweredDown (i : Fin n)
  | turnedOff (i : Fin n)
  | woken (i : Fin n)
  | began (i : Fin n) (entryPoint contextId : U64)
  | returned (i : Fin n) (frame : Frame)
  | halted (i : Fin n)

abbrev State (n : Nat) := Fin n → Core

def decode (psci : PsciDecoder) (call : GuestCall) : Except U32 PsciFunction :=
  psci.tryFrom call.fnId call.arg0 call.arg1 call.arg2

def set (s : State n) (i : Fin n) (core : Core) : State n := Function.update s i core

def step (psci : PsciDecoder) (affinity : Fin n → U64) (s : State n) : Action n → Option (State n)
  | .call i frame =>
    match s i with
    | .running => if isPsciFunctionId frame.call.fnId then some (set s i (.calling frame)) else none
    | _ => none
  | .reject i =>
    match s i with
    | .calling frame =>
      match decode psci frame.call with
      | .error code => some (set s i (.answered (frame.fail (errorToU64 (.ofI32 code)))))
      | .ok _ => none
    | _ => none
  | .forward i x0 =>
    match s i with
    | .calling frame =>
      match decode psci frame.call with
      | .error _ | .ok (.cpuOn ..) | .ok (.cpuSuspend ..) => none
      | .ok _ => some (set s i (.answered (frame.respond x0)))
    | _ => none
  | .refuse i x0 =>
    match s i with
    | .calling frame =>
      match decode psci frame.call with
      | .ok (.cpuOn ..) => if x0 = 0 then none else some (set s i (.answered (frame.respond x0)))
      | .ok (.cpuSuspend ..) => some (set s i (.answered (frame.respond x0)))
      | _ => none
    | _ => none
  | .grant i j =>
    match s i, s j with
    | .calling frame, .off =>
      match decode psci frame.call with
      | .ok (.cpuOn target entry) =>
        if target = affinity j then
          some (set (set s i (.answered (frame.respond 0))) j (.starting entry.entryPointAddress entry.contextId))
        else none
      | _ => none
    | _, _ => none
  | .powerDown i =>
    match s i with
    | .calling frame =>
      match decode psci frame.call with
      | .ok (.cpuSuspend _ entry) => some (set s i (.suspended entry.entryPointAddress entry.contextId))
      | _ => none
    | _ => none
  | .turnOff i =>
    match s i with
    | .calling frame =>
      match decode psci frame.call with
      | .ok .cpuOff => some (set s i .off)
      | _ => none
    | _ => none
  | .wake i =>
    match s i with
    | .suspended entryPoint contextId => some (set s i (.starting entryPoint contextId))
    | _ => none
  | .begin i =>
    match s i with
    | .starting _ _ => some (set s i .running)
    | _ => none
  | .resume i =>
    match s i with
    | .answered _ => some (set s i .running)
    | _ => none
  | .halt i =>
    match s i with
    | .off | .suspended .. | .halted => none
    | _ => some (set s i .halted)

def see (s : State n) : Action n → List (Event n)
  | .call i frame => [.called i frame]
  | .reject _ => []
  | .forward i x0 =>
    match s i with
    | .calling frame =>
      [.forwarded i (frame.call.fnId.setWidth 32) (smcArgs frame.call.arg0 frame.call.arg1 frame.call.arg2) x0]
    | _ => []
  | .refuse i x0 => [.refused i x0]
  | .grant i j => [.granted i j]
  | .powerDown i => [.poweredDown i]
  | .turnOff i => [.turnedOff i]
  | .wake i => [.woken i]
  | .begin i =>
    match s i with
    | .starting entryPoint contextId => [.began i entryPoint contextId]
    | _ => []
  | .resume i =>
    match s i with
    | .answered frame => [.returned i frame]
    | _ => []
  | .halt i => [.halted i]

def boot (core : Fin n) (payload x0 : U64) : State n := fun i => if i = core then .starting payload x0 else .off

/-! ## Its steps -/

section Steps

variable {psci : PsciDecoder} {affinity : Fin n → U64} {s : State n} {i j : Fin n} {frame : Frame}

theorem step_call (h : s i = .running) (hid : isPsciFunctionId frame.call.fnId = true) :
    step psci affinity s (.call i frame) = some (set s i (.calling frame)) := by
  simp only [step, h, hid, if_true]

theorem step_reject {code : U32} (h : s i = .calling frame) (hd : decode psci frame.call = .error code) :
    step psci affinity s (.reject i) = some (set s i (.answered (frame.fail (errorToU64 (.ofI32 code))))) := by
  simp only [step, h, hd]

theorem step_forward {f : PsciFunction} {x0 : U64} (h : s i = .calling frame) (hd : decode psci frame.call = .ok f)
    (hon : ∀ t e, f ≠ .cpuOn t e) (hsuspend : ∀ st e, f ≠ .cpuSuspend st e) :
    step psci affinity s (.forward i x0) = some (set s i (.answered (frame.respond x0))) := by
  cases f with
  | cpuOn t e => exact absurd rfl (hon t e)
  | cpuSuspend st e => exact absurd rfl (hsuspend st e)
  | _ => simp only [step, h, hd]

theorem step_refuse_on {t x0 : U64} {e : EntryPoint} (h : s i = .calling frame)
    (hd : decode psci frame.call = .ok (.cpuOn t e)) (hx0 : x0 ≠ 0) :
    step psci affinity s (.refuse i x0) = some (set s i (.answered (frame.respond x0))) := by
  simp only [step, h, hd, if_neg hx0]

theorem step_refuse_suspend {st : U32} {x0 : U64} {e : EntryPoint} (h : s i = .calling frame)
    (hd : decode psci frame.call = .ok (.cpuSuspend st e)) :
    step psci affinity s (.refuse i x0) = some (set s i (.answered (frame.respond x0))) := by
  simp only [step, h, hd]

theorem step_grant {e : EntryPoint} (h : s i = .calling frame) (hoff : s j = .off)
    (hd : decode psci frame.call = .ok (.cpuOn (affinity j) e)) :
    step psci affinity s (.grant i j) =
      some (set (set s i (.answered (frame.respond 0))) j (.starting e.entryPointAddress e.contextId)) := by
  simp only [step, h, hoff, hd, if_true]

theorem step_powerDown {st : U32} {e : EntryPoint} (h : s i = .calling frame)
    (hd : decode psci frame.call = .ok (.cpuSuspend st e)) :
    step psci affinity s (.powerDown i) = some (set s i (.suspended e.entryPointAddress e.contextId)) := by
  simp only [step, h, hd]

theorem step_turnOff (h : s i = .calling frame) (hd : decode psci frame.call = .ok .cpuOff) :
    step psci affinity s (.turnOff i) = some (set s i .off) := by
  simp only [step, h, hd]

theorem step_wake {e c : U64} (h : s i = .suspended e c) :
    step psci affinity s (.wake i) = some (set s i (.starting e c)) := by
  simp only [step, h]

theorem step_begin {e c : U64} (h : s i = .starting e c) :
    step psci affinity s (.begin i) = some (set s i .running) ∧ see s (.begin i) = [.began i e c] := by
  simp only [step, see, h, and_self]

theorem step_resume (h : s i = .answered frame) :
    step psci affinity s (.resume i) = some (set s i .running) ∧ see s (.resume i) = [.returned i frame] := by
  simp only [step, see, h, and_self]

@[simp] theorem set_self (s : State n) (i : Fin n) (core : Core) : set s i core i = core := Function.update_self ..

end Steps

end Direct
end Ritm
