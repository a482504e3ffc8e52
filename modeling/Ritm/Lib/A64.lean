import Mathlib.Data.List.Nodup
import Mathlib.Logic.Function.Basic
/-!
# A64 — routines in AArch64 assembly

A routine is a list of instructions that runs from its first to the one that leaves it.  Memory is seen in doublewords,
which is all these instructions transfer; an access through a stack pointer that is not on a 16-byte boundary, or at an
address that is not on an 8-byte boundary, faults.  The functions a routine calls are a parameter: they may be compiled
code, of which `Preserves` is what the procedure call standard promises, or routines (`callRoutine`).
-/
namespace Lib.A64

abbrev Word := BitVec 64

structure State where
  x : Nat → Word
  sp : Word
  sctlr : Word
  memory : Word → Word

/-- Instructions, over the functions `F` a routine can call.  Loads and stores are relative to `sp`. -/
inductive Instr (F : Type) where
  | mov (d s : Nat)
  | movSp (d : Nat)
  | addSp (bytes : Word)
  | subSp (bytes : Word)
  | str (r : Nat) (offset : Word)
  | stp (r r' : Nat) (offset : Word)
  | ldr (r : Nat) (offset : Word)
  | ldp (r r' : Nat) (offset : Word)
  | msrSctlr (s : Nat)
  -- A barrier, or maintenance of caches or translations: nothing changes that is part of the state.
  | sync
  | bl (f : F)
  | br (r : Nat)
  | ret

namespace State

def setX (s : State) (r : Nat) (value : Word) : State := { s with x := Function.update s.x r value }

@[simp] theorem setX_sp (s : State) (r : Nat) (value : Word) : (s.setX r value).sp = s.sp := rfl

@[simp] theorem setX_memory (s : State) (r : Nat) (value : Word) : (s.setX r value).memory = s.memory := rfl

@[simp] theorem setX_self (s : State) (r : Nat) (value : Word) : (s.setX r value).x r = value := Function.update_self ..

theorem setX_of_ne (s : State) {r r' : Nat} (h : r' ≠ r) (value : Word) : (s.setX r value).x r' = s.x r' :=
  Function.update_of_ne h ..

def aligned (s : State) (offset : Word) : Bool := s.sp.toNat % 16 == 0 && (s.sp + offset).toNat % 8 == 0

def store (s : State) (offset value : Word) : State :=
  { s with memory := Function.update s.memory (s.sp + offset) value }

def load (s : State) (offset : Word) : Word := s.memory (s.sp + offset)

end State

variable {F : Type}

/-- The instruction at `pc`, unless it leaves the routine; `none` is a fault, or a call that does not return. -/
def step (call : F → State → Option State) (pc : Word) (s : State) : Instr F → Option State
  | .mov d r => some (s.setX d (s.x r))
  | .movSp d => some (s.setX d s.sp)
  | .addSp bytes => some { s with sp := s.sp + bytes }
  | .subSp bytes => some { s with sp := s.sp - bytes }
  | .str r offset => if s.aligned offset then some (s.store offset (s.x r)) else none
  | .stp r r' offset =>
    if s.aligned offset then some ((s.store offset (s.x r)).store (offset + 8) (s.x r')) else none
  | .ldr r offset => if s.aligned offset then some (s.setX r (s.load offset)) else none
  | .ldp r r' offset =>
    if s.aligned offset then some ((s.setX r (s.load offset)).setX r' (s.load (offset + 8))) else none
  | .msrSctlr r => some { s with sctlr := s.x r }
  | .sync => some s
  | .bl f => call f (s.setX 30 (pc + 4))
  | .br _ | .ret => none

/-- A routine from the instruction at `pc` on, until it jumps; with the address it jumps to. -/
def run (call : F → State → Option State) : Word → List (Instr F) → State → Option (Word × State)
  | _, [], _ => none
  | _, .br r :: _, s => some (s.x r, s)
  | _, .ret :: _, s => some (s.x 30, s)
  | pc, instr :: instrs, s => (step call pc s instr).bind (run call (pc + 4) instrs)

def callRoutine (call : F → State → Option State) (pc : Word) (routine : List (Instr F)) (s : State) : Option State :=
  match run call pc routine s with
  | some (target, s') => if target = s.x 30 then some s' else none
  | none => none

/-- **The procedure call standard**: what a function leaves as it was. -/
structure Preserves (s s' : State) : Prop where
  x : ∀ r, 19 ≤ r → r ≤ 29 → s'.x r = s.x r
  sp : s'.sp = s.sp

namespace Instr

def isExit : Instr F → Bool
  | br _ | ret => true
  | _ => false

def isStore : Instr F → Bool
  | str .. | stp .. => true
  | _ => false

def isLoad : Instr F → Bool
  | ldr .. | ldp .. => true
  | _ => false

def slots : Instr F → List (Nat × Word)
  | str r offset | ldr r offset => [(r, offset)]
  | stp r r' offset | ldp r r' offset => [(r, offset), (r', offset + 8)]
  | _ => []

end Instr

section Run

variable {call : F → State → Option State} {pc : Word} {rest : List (Instr F)} {s : State}

def steps (call : F → State → Option State) : Word → List (Instr F) → State → Option State
  | _, [], s => some s
  | pc, instr :: instrs, s => (step call pc s instr).bind (steps call (pc + 4) instrs)

theorem run_cons {instr : Instr F} (h : instr.isExit = false) :
    run call pc (instr :: rest) s = (step call pc s instr).bind (run call (pc + 4) rest) := by
  cases instr with
  | br | ret => cases h
  | _ => rfl

theorem run_block : ∀ {block : List (Instr F)} (rest : List (Instr F)) {pc : Word} {s s' : State},
    (∀ instr ∈ block, instr.isExit = false) → steps call pc block s = some s' →
    ∃ pc', run call pc (block ++ rest) s = run call pc' rest s'
  | [], _, pc, _, _, _, h => by
    cases h
    exact ⟨pc, rfl⟩
  | instr :: block, rest, pc, s, s', hexit, h => by
    obtain ⟨t, ht, h'⟩ := Option.bind_eq_some_iff.1 h
    obtain ⟨pc', heq⟩ := run_block rest (fun i hi => hexit i (List.mem_cons_of_mem _ hi)) h'
    refine ⟨pc', ?_⟩
    rw [List.cons_append, run_cons (hexit instr List.mem_cons_self), ht, Option.bind_some, heq]

theorem callRoutine_eq {routine : List (Instr F)} {s' : State}
    (h : run call pc routine s = some (s.x 30, s')) : callRoutine call pc routine s = some s' := by
  rw [callRoutine, h]
  exact if_pos rfl

end Run

theorem State.aligned_of_mod {s : State} {offset : Word} (hsp : s.sp.toNat % 16 = 0) (hoffset : offset.toNat % 8 = 0) :
    s.aligned offset = true := by
  have hsum : (s.sp + offset).toNat % 8 = 0 := by
    rw [BitVec.toNat_add]
    omega
  rw [aligned, hsp, hsum]
  rfl

/-! ## Saving and restoring

A block of stores, or of loads, is the list of its slots. -/

namespace State

def saveAll (s : State) (slots : List (Nat × Word)) : State :=
  slots.foldl (fun s slot => s.store slot.2 (s.x slot.1)) s

def restoreAll (s : State) (slots : List (Nat × Word)) : State :=
  slots.foldl (fun s slot => s.setX slot.1 (s.load slot.2)) s

theorem saveAll_eq : ∀ (slots : List (Nat × Word)) (s : State),
    s.saveAll slots = { s with memory := (s.saveAll slots).memory }
  | [], _ => rfl
  | slot :: slots, s => saveAll_eq slots (s.store slot.2 (s.x slot.1))

@[simp] theorem saveAll_sp (s : State) (slots : List (Nat × Word)) : (s.saveAll slots).sp = s.sp := by
  rw [saveAll_eq]

@[simp] theorem saveAll_x (s : State) (slots : List (Nat × Word)) : (s.saveAll slots).x = s.x := by
  rw [saveAll_eq]

theorem saveAll_memory_of_ne : ∀ (slots : List (Nat × Word)) (s : State) {address : Word},
    (∀ slot ∈ slots, address ≠ s.sp + slot.2) → (s.saveAll slots).memory address = s.memory address
  | [], _, _, _ => rfl
  | slot :: slots, s, address, h => by
    have ih := saveAll_memory_of_ne slots (s.store slot.2 (s.x slot.1))
      fun slot' hslot' => h slot' (List.mem_cons_of_mem _ hslot')
    exact ih.trans (Function.update_of_ne (h slot List.mem_cons_self) _ _)

/-- **Each slot holds its register**, if no two are at the same offset. -/
theorem saveAll_memory : ∀ {slots : List (Nat × Word)} (s : State) {r : Nat} {offset : Word},
    (slots.map Prod.snd).Nodup → (r, offset) ∈ slots → (s.saveAll slots).memory (s.sp + offset) = s.x r
  | slot :: slots, s, r, offset, hnodup, hmem => by
    obtain ⟨hfresh, hnodup'⟩ := List.nodup_cons.1 hnodup
    rcases List.mem_cons.1 hmem with rfl | hmem'
    · refine (saveAll_memory_of_ne slots _ fun slot' hslot' heq => hfresh ?_).trans (Function.update_self ..)
      exact List.mem_map.2 ⟨slot', hslot', (BitVec.add_right_inj s.sp).1 heq.symm⟩
    · exact saveAll_memory (s.store slot.2 (s.x slot.1)) hnodup' hmem'

theorem restoreAll_eq : ∀ (slots : List (Nat × Word)) (s : State),
    s.restoreAll slots = { s with x := (s.restoreAll slots).x }
  | [], _ => rfl
  | slot :: slots, s => restoreAll_eq slots (s.setX slot.1 (s.load slot.2))

@[simp] theorem restoreAll_sp (s : State) (slots : List (Nat × Word)) : (s.restoreAll slots).sp = s.sp := by
  rw [restoreAll_eq]

@[simp] theorem restoreAll_memory (s : State) (slots : List (Nat × Word)) : (s.restoreAll slots).memory = s.memory := by
  rw [restoreAll_eq]

theorem restoreAll_x_of_not_mem : ∀ (slots : List (Nat × Word)) (s : State) {r : Nat},
    r ∉ slots.map Prod.fst → (s.restoreAll slots).x r = s.x r
  | [], _, _, _ => rfl
  | slot :: slots, s, r, h => by
    obtain ⟨hne, h'⟩ := List.ne_and_not_mem_of_not_mem_cons h
    exact (restoreAll_x_of_not_mem slots _ h').trans (Function.update_of_ne hne _ _)

/-- **Each register is what its slot holds**, if no two slots are of the same register. -/
theorem restoreAll_x : ∀ {slots : List (Nat × Word)} (s : State) {r : Nat} {offset : Word},
    (slots.map Prod.fst).Nodup → (r, offset) ∈ slots → (s.restoreAll slots).x r = s.memory (s.sp + offset)
  | slot :: slots, s, r, offset, hnodup, hmem => by
    obtain ⟨hfresh, hnodup'⟩ := List.nodup_cons.1 hnodup
    rcases List.mem_cons.1 hmem with rfl | hmem'
    · exact (restoreAll_x_of_not_mem slots _ hfresh).trans (Function.update_self ..)
    · exact restoreAll_x (s.setX slot.1 (s.load slot.2)) hnodup' hmem'

end State

section Blocks

variable {call : F → State → Option State} {pc : Word} {s : State}

theorem step_store {instr : Instr F} (h : instr.isStore = true)
    (haligned : ∀ slot ∈ instr.slots, s.aligned slot.2 = true) : step call pc s instr = some (s.saveAll instr.slots) := by
  cases instr with
  | str r offset | stp r r' offset => exact if_pos (haligned (r, offset) List.mem_cons_self)
  | _ => cases h

theorem step_load {instr : Instr F} (h : instr.isLoad = true)
    (haligned : ∀ slot ∈ instr.slots, s.aligned slot.2 = true) :
    step call pc s instr = some (s.restoreAll instr.slots) := by
  cases instr with
  | ldr r offset | ldp r r' offset => exact if_pos (haligned (r, offset) List.mem_cons_self)
  | _ => cases h

/-- **A block of stores saves its slots.** -/
theorem steps_stores : ∀ {block : List (Instr F)} {pc : Word} {s : State}, (∀ instr ∈ block, instr.isStore = true) →
    (∀ slot ∈ block.flatMap Instr.slots, s.aligned slot.2 = true) →
    steps call pc block s = some (s.saveAll (block.flatMap Instr.slots))
  | [], _, _, _, _ => rfl
  | instr :: block, pc, s, hstore, haligned => by
    rw [List.flatMap_cons] at haligned ⊢
    rw [steps, step_store (hstore instr List.mem_cons_self) fun slot h => haligned slot (List.mem_append_left _ h),
      Option.bind_some, steps_stores (fun i h => hstore i (List.mem_cons_of_mem _ h)) fun slot h => ?_]
    · rw [State.saveAll, State.saveAll, State.saveAll, List.foldl_append]
    · rw [State.aligned, State.saveAll_sp]
      exact haligned slot (List.mem_append_right _ h)

theorem steps_loads : ∀ {block : List (Instr F)} {pc : Word} {s : State}, (∀ instr ∈ block, instr.isLoad = true) →
    (∀ slot ∈ block.flatMap Instr.slots, s.aligned slot.2 = true) →
    steps call pc block s = some (s.restoreAll (block.flatMap Instr.slots))
  | [], _, _, _, _ => rfl
  | instr :: block, pc, s, hload, haligned => by
    rw [List.flatMap_cons] at haligned ⊢
    rw [steps, step_load (hload instr List.mem_cons_self) fun slot h => haligned slot (List.mem_append_left _ h),
      Option.bind_some, steps_loads (fun i h => hload i (List.mem_cons_of_mem _ h)) fun slot h => ?_]
    · rw [State.restoreAll, State.restoreAll, State.restoreAll, List.foldl_append]
    · rw [State.aligned, State.restoreAll_sp]
      exact haligned slot (List.mem_append_right _ h)

end Blocks

end Lib.A64
