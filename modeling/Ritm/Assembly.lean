import Mathlib.Tactic.IntervalCases
import Ritm.Hypervisor
import Ritm.Lib.A64
/-!
# Assembly — the routines RITM has in assembly

`sync_lower` is entered on every trap: it saves x19–x28 in a frame, has compiled code read and change the frame, and
loads the registers from it again.  `run_payload_el2` turns the MMU and the caches off, through `disable_mmu_and_caches`,
and enters a payload at EL2.
-/
namespace Ritm

open Lib.A64

inductive Callee where
  | syncLowerWithNonvolatile
  | disableMmuAndCaches
  | disableMmuAndCachesImpl
  deriving DecidableEq, Repr

def syncLower : List (Instr Callee) :=
  [.subSp (8 * 12),
    .stp 19 20 (8 * 0),
    .stp 21 22 (8 * 2),
    .stp 23 24 (8 * 4),
    .stp 25 26 (8 * 6),
    .stp 27 28 (8 * 8),
    .str 30 (8 * 10),
    .movSp 1,
    .bl .syncLowerWithNonvolatile,
    .ldr 30 (8 * 10),
    .ldp 19 20 (8 * 0),
    .ldp 21 22 (8 * 2),
    .ldp 23 24 (8 * 4),
    .ldp 25 26 (8 * 6),
    .ldp 27 28 (8 * 8),
    .addSp (8 * 12),
    .ret]

def disableMmuAndCaches : List (Instr Callee) :=
  [.mov 27 29,
    .mov 28 30,
    .bl .disableMmuAndCachesImpl,
    -- `tlbi alle2is`, `dsb sy`
    .sync,
    .sync,
    .msrSctlr 0,
    -- `isb`
    .sync,
    .mov 29 27,
    .mov 30 28,
    -- `ic iallu`, `isb`
    .sync,
    .sync,
    .ret]

def runPayloadEl2 : List (Instr Callee) :=
  [.mov 19 0,
    .mov 20 1,
    .mov 21 2,
    .mov 22 3,
    .mov 23 4,
    .bl .disableMmuAndCaches,
    .mov 0 20,
    .mov 1 21,
    .mov 2 22,
    .mov 3 23,
    .br 19]

/-- The value `disable_mmu_and_caches_impl` returns: M, C and I are clear. -/
def disableMmuAndCachesImpl (sctlr : U64) : U64 := clearBit (clearBit (clearBit sctlr 0) 2) 12

/-! ## Traps -/

section SyncLower

def doubleword (memory : Word → Word) (address : Word) (k : Nat) : Word := memory (address + 8 * BitVec.ofNat 64 k)

/-- The frame of x19–x28, as it is in memory. -/
def nonvolatileAt (memory : Word → Word) (address : Word) : NonVolatileRegisters :=
  ⟨.ofFn fun k : Fin 10 => doubleword memory address k⟩

def nonvolatileOf (x : Nat → Word) : NonVolatileRegisters := ⟨.ofFn fun k : Fin 10 => x (19 + k)⟩

theorem nonvolatileAt_eq {memory : Word → Word} {address : Word} {x : Nat → Word}
    (h : ∀ k : Fin 10, doubleword memory address k = x (19 + k)) : nonvolatileAt memory address = nonvolatileOf x :=
  congrArg (fun f => NonVolatileRegisters.mk (.ofFn f)) (funext h)

/-- **What is relied on**: `aarch64_rt`'s frame is 24 doublewords. -/
structure VolatileFrame where
  read : (Word → Word) → Word → VolatileRegisters
  read_eq : ∀ {memory memory' : Word → Word} {address : Word},
    (∀ k < 24, doubleword memory' address k = doubleword memory address k) → read memory' address = read memory address

/-- The guest's registers while it is trapped: those in `aarch64_rt`'s frame, and x19–x28. -/
def VolatileFrame.guest (frame : VolatileFrame) (address : Word) (s : State) : GuestRegisterState :=
  ⟨frame.read s.memory address, nonvolatileOf s.x⟩

/-- **What is relied on**: `sync_lower_with_nonvolatile`, compiled and called with its pointers as `sync_lower` has them,
does `handle` to what they point to and leaves the rest of its caller's frame alone.  It does not return from a panic,
such as that for a null pointer. -/
structure Handles (frame : VolatileFrame) (handle : GuestRegisterState → Option GuestRegisterState)
    (f : State → Option State) : Prop where
  returns : ∀ s rs, s.x 0 = s.x 1 + 96 → s.x 1 ≠ 0 →
    handle ⟨frame.read s.memory (s.x 0), nonvolatileAt s.memory (s.x 1)⟩ = some rs →
    ∃ s', f s = some s' ∧ Preserves s s' ∧
      (⟨frame.read s'.memory (s.x 0), nonvolatileAt s'.memory (s.x 1)⟩ : GuestRegisterState) = rs ∧
      ∀ k, 10 ≤ k → k < 12 → doubleword s'.memory (s.x 1) k = doubleword s.memory (s.x 1) k
  panics : ∀ s, s.x 0 = s.x 1 + 96 →
    s.x 1 = 0 ∨ handle ⟨frame.read s.memory (s.x 0), nonvolatileAt s.memory (s.x 1)⟩ = none → f s = none

/-- What `sync_lower` saves, and where. -/
def savedSlots : List (Nat × Word) :=
  [(19, 0), (20, 8), (21, 16), (22, 24), (23, 32), (24, 40), (25, 48), (26, 56), (27, 64), (28, 72), (30, 80)]

theorem mem_savedSlots (k : Fin 10) : (19 + k.val, 8 * BitVec.ofNat 64 k) ∈ savedSlots := by
  revert k
  decide

/-- `sync_lower` as it calls compiled code: the registers are saved, and x1 points to them. -/
def syncLowerCall (link : Word) (s : State) : State :=
  let s := { s with sp := s.sp - 96 }.saveAll savedSlots
  (s.setX 1 s.sp).setX 30 link

def syncLowerReturn (s : State) : State :=
  let s := s.restoreAll ((30, 80) :: savedSlots.dropLast)
  { s with sp := s.sp + 96 }

variable {call : Callee → State → Option State} {pc : Word} {s s' : State}

theorem mod_sub_frame {sp : Word} (h : sp.toNat % 16 = 0) : (sp - 96).toNat % 16 = 0 := by
  bv_omega

theorem run_syncLower_call (hsp : s.sp.toNat % 16 = 0) : ∃ link pc',
    run call pc syncLower s =
      (call .syncLowerWithNonvolatile (syncLowerCall link s)).bind (run call pc' (syncLower.drop 9)) := by
  have hoffsets : ∀ slot ∈ savedSlots, slot.2.toNat % 8 = 0 := by decide
  have hsaves : steps call (pc + 4) ((syncLower.drop 1).take 6) { s with sp := s.sp - 96 } =
      some ({ s with sp := s.sp - 96 }.saveAll savedSlots) :=
    steps_stores (by decide) fun slot h => State.aligned_of_mod (mod_sub_frame hsp) (hoffsets slot h)
  obtain ⟨pc', hrun⟩ := run_block (syncLower.drop 7) (by decide) hsaves
  have hfirst : run call pc syncLower s =
      (step call pc s (.subSp (8 * 12))).bind (run call (pc + 4) (syncLower.drop 1)) := run_cons rfl
  refine ⟨pc' + 4 + 4, pc' + 4 + 4, ?_⟩
  rw [hfirst, step, Option.bind_some, show (8 * 12 : Word) = 96 by decide]
  exact hrun

theorem run_syncLower_return (hsp : s.sp.toNat % 16 = 0) :
    run call pc (syncLower.drop 9) s = some ((syncLowerReturn s).x 30, syncLowerReturn s) := by
  have hoffsets : ∀ slot ∈ (30, 80) :: savedSlots.dropLast, slot.2.toNat % 8 = 0 := by decide
  have hloads : steps call pc ((syncLower.drop 9).take 6) s = some (s.restoreAll ((30, 80) :: savedSlots.dropLast)) :=
    steps_loads (by decide) fun slot h => State.aligned_of_mod hsp (hoffsets slot h)
  obtain ⟨pc', hrun⟩ := run_block (syncLower.drop 15) (by decide) hloads
  exact hrun

section Call

variable (link : Word)

theorem syncLowerCall_sp : (syncLowerCall link s).sp = s.sp - 96 := by
  simp only [syncLowerCall, State.setX_sp, State.saveAll_sp]

theorem syncLowerCall_x_one : (syncLowerCall link s).x 1 = s.sp - 96 := by
  rw [syncLowerCall, State.setX_of_ne _ (by decide), State.setX_self, State.saveAll_sp]

theorem syncLowerCall_x {r : Nat} (hone : r ≠ 1) (hlink : r ≠ 30) : (syncLowerCall link s).x r = s.x r := by
  rw [syncLowerCall, State.setX_of_ne _ hlink, State.setX_of_ne _ hone, State.saveAll_x]

theorem syncLowerCall_memory : (syncLowerCall link s).memory = ({ s with sp := s.sp - 96 }.saveAll savedSlots).memory := by
  simp only [syncLowerCall, State.setX_memory]

theorem syncLowerCall_saved {r : Nat} {offset : Word} (h : (r, offset) ∈ savedSlots) :
    (syncLowerCall link s).memory (s.sp - 96 + offset) = s.x r := by
  rw [syncLowerCall_memory]
  exact State.saveAll_memory { s with sp := s.sp - 96 } (by decide) h

theorem frames_apart {sp offset : Word} {k : Nat} (hk : k < 24) (hoffset : offset.toNat < 96) :
    sp + 8 * BitVec.ofNat 64 k ≠ sp - 96 + offset := by
  bv_omega

theorem syncLowerCall_memory_above {k : Nat} (hk : k < 24) :
    doubleword (syncLowerCall link s).memory s.sp k = doubleword s.memory s.sp k := by
  have hlt : ∀ slot ∈ savedSlots, slot.2.toNat < 96 := by decide
  rw [doubleword, syncLowerCall_memory, State.saveAll_memory_of_ne _ _ fun slot hslot => frames_apart hk (hlt slot hslot)]
  rfl

theorem guest_syncLowerCall (frame : VolatileFrame) :
    (⟨frame.read (syncLowerCall link s).memory s.sp, nonvolatileAt (syncLowerCall link s).memory (s.sp - 96)⟩ :
      GuestRegisterState) = frame.guest s.sp s := by
  rw [frame.read_eq fun k hk => syncLowerCall_memory_above link hk,
    nonvolatileAt_eq fun k => syncLowerCall_saved link (mem_savedSlots k)]
  rfl

end Call

theorem syncLowerReturn_x {r : Nat} {offset : Word} (h : (r, offset) ∈ (30, 80) :: savedSlots.dropLast) :
    (syncLowerReturn s).x r = s.memory (s.sp + offset) := State.restoreAll_x s (by decide) h

theorem mem_restoredSlots (k : Fin 10) : (19 + k.val, 8 * BitVec.ofNat 64 k) ∈ (30, 80) :: savedSlots.dropLast := by
  revert k
  decide

theorem guest_syncLowerReturn (frame : VolatileFrame) (sp : Word) :
    frame.guest sp (syncLowerReturn s) = ⟨frame.read s.memory sp, nonvolatileAt s.memory s.sp⟩ := by
  have hmemory : (syncLowerReturn s).memory = s.memory := by
    simp only [syncLowerReturn, State.restoreAll_memory]
  rw [VolatileFrame.guest, hmemory, nonvolatileAt_eq fun k => (syncLowerReturn_x (mem_restoredSlots k)).symm]

theorem syncLowerReturn_sp : (syncLowerReturn s).sp = s.sp + 96 := by
  simp only [syncLowerReturn, State.restoreAll_sp]

theorem syncLowerReturn_fp : (syncLowerReturn s).x 29 = s.x 29 := by
  rw [syncLowerReturn, State.restoreAll_x_of_not_mem _ _ (by decide)]

/-- **`sync_lower` is transparent**: `handle` gets the guest's registers, of which x19–x28 have not been saved when it is
entered, and the guest gets back those that `handle` returns.  It returns to its caller with the stack as it was, or,
if `handle` panics, not at all. -/
theorem syncLower_transparent (frame : VolatileFrame) (handle : GuestRegisterState → Option GuestRegisterState)
    (hcall : Handles frame handle (call .syncLowerWithNonvolatile)) (hsp : s.sp.toNat % 16 = 0) (hnull : s.sp ≠ 96)
    (hx0 : s.x 0 = s.sp) :
    (∀ rs, handle (frame.guest s.sp s) = some rs → ∃ s', run call pc syncLower s = some (s.x 30, s') ∧
      frame.guest s.sp s' = rs ∧ s'.sp = s.sp ∧ s'.x 29 = s.x 29) ∧
    (handle (frame.guest s.sp s) = none → run call pc syncLower s = none) := by
  obtain ⟨link, pc', hrun⟩ := @run_syncLower_call call pc s hsp
  have hptr : (syncLowerCall link s).x 0 = s.sp := (syncLowerCall_x link (by decide) (by decide)).trans hx0
  have hframes : (syncLowerCall link s).x 0 = (syncLowerCall link s).x 1 + 96 := by
    rw [hptr, syncLowerCall_x_one, BitVec.sub_add_cancel]
  have hguest := guest_syncLowerCall (s := s) link frame
  constructor
  · intro rs hrs
    obtain ⟨t, ht, hkeeps, hleft, hrest⟩ := hcall.returns (syncLowerCall link s) rs hframes
      (by rw [syncLowerCall_x_one]; bv_omega) (by rw [hptr, syncLowerCall_x_one, hguest, hrs])
    have htsp : t.sp = s.sp - 96 := hkeeps.sp.trans (syncLowerCall_sp link)
    rw [hptr, syncLowerCall_x_one] at hleft
    rw [syncLowerCall_x_one] at hrest
    have hreturn : (syncLowerReturn t).x 30 = s.x 30 := by
      rw [syncLowerReturn_x List.mem_cons_self, htsp]
      exact (hrest 10 (by decide) (by decide)).trans (syncLowerCall_saved link (by decide))
    refine ⟨syncLowerReturn t, ?_, ?_, ?_, ?_⟩
    · rw [hrun, ht, Option.bind_some, run_syncLower_return (htsp ▸ mod_sub_frame hsp), hreturn]
    · rw [guest_syncLowerReturn, htsp, hleft]
    · rw [syncLowerReturn_sp, htsp, BitVec.sub_add_cancel]
    · rw [syncLowerReturn_fp, hkeeps.x 29 (by decide) (by decide), syncLowerCall_x link (by decide) (by decide)]
  · intro hnone
    have := hcall.panics (syncLowerCall link s) hframes (.inr (by rw [hptr, syncLowerCall_x_one, hguest, hnone]))
    rw [hrun, this, Option.bind_none]

/-- A frame of x0–x18, a doubleword of padding, x29, x30, ELR and SPSR. -/
def paddedFrame : VolatileFrame where
  read memory address := {
    registers := .ofFn fun k : Fin 19 => doubleword memory address k
    fp := doubleword memory address 20
    sp := doubleword memory address 21
    elr := doubleword memory address 22
    spsr := doubleword memory address 23 }
  read_eq h := by
    have hregisters := funext fun k : Fin 19 => h k (by omega)
    simp only [hregisters, h 20 (by decide), h 21 (by decide), h 22 (by decide), h 23 (by decide)]

def clearX19 : Callee → State → Option State := fun _ s =>
  if s.x 1 = 0 then none else some { s.setX 9 1 with memory := Function.update s.memory (s.x 1) 0 }

def withoutX19 (rs : GuestRegisterState) : GuestRegisterState :=
  { rs with nonvolatile := ⟨rs.nonvolatile.registers.set 0 0⟩ }

theorem nonvolatileAt_clear (memory : Word → Word) (address : Word) :
    nonvolatileAt (Function.update memory address 0) address = ⟨(nonvolatileAt memory address).registers.set 0 0⟩ := by
  refine congrArg NonVolatileRegisters.mk (Vector.ext fun i hi => ?_)
  rw [Vector.getElem_ofFn, Vector.getElem_set]
  by_cases h : 0 = i
  · subst h
    rw [if_pos rfl, doubleword, show address + 8 * BitVec.ofNat 64 0 = address by bv_omega, Function.update_self]
  · rw [if_neg h, doubleword, Function.update_of_ne (by bv_omega)]
    exact (Vector.getElem_ofFn (f := fun k : Fin 10 => doubleword memory address k) hi).symm

theorem handles_clearX19 : Handles paddedFrame (fun rs => some (withoutX19 rs)) (clearX19 .syncLowerWithNonvolatile) where
  returns s rs hframes hnull hrs := by
    refine ⟨{ s.setX 9 1 with memory := Function.update s.memory (s.x 1) 0 }, if_neg hnull,
      ⟨fun r _ _ => s.setX_of_ne (by omega) 1, rfl⟩, ?_, fun k hlow hhigh => Function.update_of_ne (by bv_omega) _ _⟩
    obtain rfl := Option.some.inj hrs
    have habove : ∀ k < 24, doubleword (Function.update s.memory (s.x 1) 0) (s.x 0) k = doubleword s.memory (s.x 0) k :=
      fun k hk => Function.update_of_ne (by bv_omega) _ _
    rw [nonvolatileAt_clear]
    exact congrArg (GuestRegisterState.mk · _) (paddedFrame.read_eq habove)
  panics s _ h := if_pos (h.resolve_right (Option.some_ne_none _))

theorem syncLower_transparent_clearX19 :
    let s : State := ⟨fun r => if r = 0 then 0x8000 else BitVec.ofNat 64 r, 0x8000, 0, fun address => address⟩
    ∃ s', run clearX19 0x1000 syncLower s = some (30, s') ∧
      paddedFrame.guest 0x8000 s' = withoutX19 (paddedFrame.guest 0x8000 s) ∧ s'.x 19 = 0 := by
  intro s
  obtain ⟨s', hrun, hguest, -⟩ := (@syncLower_transparent clearX19 0x1000 s paddedFrame _ handles_clearX19 (by decide)
    (by decide) rfl).1 _ rfl
  refine ⟨s', hrun, hguest, ?_⟩
  have hx19 := congrArg (fun rs => rs.nonvolatile.registers.get 0) hguest
  exact hx19

end SyncLower

/-! ## Entering a payload at EL2 -/

section RunPayloadEl2

/-- **What is relied on**: `disable_mmu_and_caches_impl`, compiled, returns the new value and writes to no memory but its
stack's. -/
structure ComputesSctlr (stack : Word → Prop) (f : State → Option State) : Prop where
  returns : ∀ s, ∃ s', f s = some s' ∧ Preserves s s' ∧ s'.x 0 = disableMmuAndCachesImpl s.sctlr ∧
    ∀ address, ¬ stack address → s'.memory address = s.memory address

variable {call : Callee → State → Option State} {pc pcMmu : Word} {stack : Word → Prop}

theorem run_disableMmuAndCaches_off (s : State) : run call pc (disableMmuAndCaches.drop 3) s =
    some (s.x 28, ({ s with sctlr := s.x 0 }.setX 29 (s.x 27)).setX 30 (s.x 28)) := rfl

theorem run_disableMmuAndCaches (himpl : ComputesSctlr stack (call .disableMmuAndCachesImpl)) (s : State) :
    ∃ s', run call pc disableMmuAndCaches s = some (s.x 30, s') ∧ (∀ r, 19 ≤ r → r ≤ 26 → s'.x r = s.x r) ∧
      s'.sp = s.sp ∧ s'.sctlr = disableMmuAndCachesImpl s.sctlr ∧
      ∀ address, ¬ stack address → s'.memory address = s.memory address := by
  let t := ((s.setX 27 (s.x 29)).setX 28 (s.x 30)).setX 30 (pc + 4 + 4 + 4)
  obtain ⟨t', ht', hkeeps, hx0, hmemory⟩ := himpl.returns t
  have hrun : run call pc disableMmuAndCaches s = (call .disableMmuAndCachesImpl t).bind
      (run call (pc + 4 + 4 + 4) (disableMmuAndCaches.drop 3)) := rfl
  have hlink : t'.x 28 = s.x 30 := hkeeps.x 28 (by decide) (by decide)
  rw [hrun, ht', Option.bind_some, run_disableMmuAndCaches_off, hlink]
  refine ⟨_, rfl, fun r hlow hhigh => ?_, hkeeps.sp, hx0, hmemory⟩
  have ht : t.x r = s.x r := by
    rw [State.setX_of_ne _ (by omega), State.setX_of_ne _ (by omega), State.setX_of_ne _ (by omega)]
  rw [State.setX_of_ne _ (by omega), State.setX_of_ne _ (by omega), ← ht]
  exact hkeeps.x r hlow (by omega)

theorem getLsbD_clearBit (x : U64) (i k : Nat) :
    (clearBit x k).getLsbD i = (x.getLsbD i && !decide (i = k)) := by
  by_cases hi : i < 64
  · simp only [clearBit, BitVec.getLsbD_and, BitVec.getLsbD_not, BitVec.getLsbD_shiftLeft, BitVec.getLsbD_one, hi]
    congr 1
    grind
  · rw [BitVec.getLsbD_of_ge _ _ (by omega), BitVec.getLsbD_of_ge _ _ (by omega), Bool.false_and]

theorem getLsbD_disableMmuAndCachesImpl (sctlr : U64) (i : Nat) :
    (disableMmuAndCachesImpl sctlr).getLsbD i = (sctlr.getLsbD i && !decide (i = 0 ∨ i = 2 ∨ i = 12)) := by
  rw [disableMmuAndCachesImpl, getLsbD_clearBit, getLsbD_clearBit, getLsbD_clearBit, Bool.and_assoc, Bool.and_assoc]
  congr 1
  grind

def withDisableMmuAndCaches (call : Callee → State → Option State) (pcMmu : Word) : Callee → State → Option State
  | .disableMmuAndCaches => callRoutine call pcMmu disableMmuAndCaches
  | f => call f

def runPayloadEl2Call (link : Word) (s : State) : State :=
  (((((s.setX 19 (s.x 0)).setX 20 (s.x 1)).setX 21 (s.x 2)).setX 22 (s.x 3)).setX 23 (s.x 4)).setX 30 link

theorem run_runPayloadEl2_call (s : State) : ∃ link pc', run call pc runPayloadEl2 s =
    (call .disableMmuAndCaches (runPayloadEl2Call link s)).bind (run call pc' (runPayloadEl2.drop 6)) := ⟨_, _, rfl⟩

theorem run_runPayloadEl2_last (s : State) : run call pc (runPayloadEl2.drop 6) s =
    some (s.x 19, (((s.setX 0 (s.x 20)).setX 1 (s.x 21)).setX 2 (s.x 22)).setX 3 (s.x 23)) := rfl

/-- **The payload is entered with its arguments and the MMU off**: at `entry_point`, with in x0–x3 what `main` passed, and
with no bit of SCTLR_EL2 changed but M, C and I.  Nothing in memory is written but RITM's stack. -/
theorem runPayloadEl2_enters (himpl : ComputesSctlr stack (call .disableMmuAndCachesImpl)) (s : State) :
    ∃ s', run (withDisableMmuAndCaches call pcMmu) pc runPayloadEl2 s = some (s.x 0, s') ∧
      (∀ r < 4, s'.x r = s.x (r + 1)) ∧
      (∀ i, s'.sctlr.getLsbD i = (s.sctlr.getLsbD i && !decide (i = 0 ∨ i = 2 ∨ i = 12))) ∧
      ∀ address, ¬ stack address → s'.memory address = s.memory address := by
  obtain ⟨link, pc', hrun⟩ := @run_runPayloadEl2_call (withDisableMmuAndCaches call pcMmu) pc s
  obtain ⟨t, ht, hkeeps, -, hsctlr, hmemory⟩ := @run_disableMmuAndCaches call pcMmu stack himpl (runPayloadEl2Call link s)
  rw [hrun, withDisableMmuAndCaches, callRoutine_eq ht, Option.bind_some, run_runPayloadEl2_last]
  have hsaved : ∀ r < 5, t.x (19 + r) = s.x r := fun r hr => by
    rw [hkeeps (19 + r) (by omega) (by omega)]
    interval_cases r <;> rfl
  have hentry : t.x 19 = s.x 0 := hsaved 0 (by decide)
  rw [hentry]
  refine ⟨_, rfl, fun r hr => ?_, fun i => ?_, hmemory⟩
  · rw [← hsaved (r + 1) (by omega)]
    interval_cases r <;> rfl
  · rw [← getLsbD_disableMmuAndCachesImpl]
    exact congrArg (fun sctlr : Word => sctlr.getLsbD i) hsctlr

end RunPayloadEl2

end Ritm
