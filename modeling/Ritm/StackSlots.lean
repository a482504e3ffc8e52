import Mathlib.Data.List.Dedup
import Ritm.Lib.Refine
import Ritm.Hypervisor
/-!
# StackSlots — the stacks in SECONDARY_STACKS stay where they are

`get_secondary_stack` hands out raw pointers that outlive the map's lock, so what a core has on its stack depends on
every later call.  Here the map holds the stacks themselves: between the calls, which the lock makes atomic, the cores
write through the pointers they have.  `secondaryStackSlot`, which the machine uses, is the same code on a map that has
forgotten the contents.
-/
namespace Ritm

abbrev SecondaryStacks (V : Type) (maxCores : Nat) := SimpleMap U64 V maxCores

namespace SecondaryStacks

variable {V : Type} {maxCores : Nat} (fresh : V)

/-- `get_secondary_stack` under its lock, with `fresh` for `Stack::default()`; `none` is the panic of `insert`. -/
def getSecondaryStack (stackMap : SecondaryStacks V maxCores) (mpidr : U64) : Option (Nat × SecondaryStacks V maxCores) :=
  match stackMap.getMut mpidr with
  | some slot => some (slot, stackMap)
  | none => stackMap.insert mpidr fresh

/-- **The machine's map is this one with the contents forgotten.** -/
theorem secondaryStackSlot_forget (stackMap : SecondaryStacks V maxCores) (mpidr : U64) :
    secondaryStackSlot (stackMap.mapValues fun _ => ()) mpidr =
      (getSecondaryStack fresh stackMap mpidr).map (Prod.map id (SimpleMap.mapValues fun _ => ())) := by
  unfold secondaryStackSlot getSecondaryStack
  rw [SimpleMap.getMut_mapValues]
  cases stackMap.getMut mpidr with
  | some slot => rfl
  | none => exact SimpleMap.insert_mapValues (fun _ => ()) stackMap mpidr fresh

/-! ## One call -/

section Call

variable {fresh} {stackMap stackMap' : SecondaryStacks V maxCores} {mpidr : U64} {slot : Nat}

theorem mem_keys_getSecondaryStack (h : getSecondaryStack fresh stackMap mpidr = some (slot, stackMap')) (key : U64) :
    key ∈ stackMap'.keys ↔ key = mpidr ∨ key ∈ stackMap.keys := by
  unfold getSecondaryStack at h
  split at h
  · rename_i slot' hfound
    cases h
    have hmem : mpidr ∈ stackMap.keys := Classical.byContradiction fun hnot => by
      rw [SimpleMap.getMut_eq_none_iff.2 hnot] at hfound
      cases hfound
    refine ⟨.inr, ?_⟩
    rintro (rfl | hkey)
    · exact hmem
    · exact hkey
  · exact SimpleMap.mem_keys_insert h key

theorem getMut_getSecondaryStack (h : getSecondaryStack fresh stackMap mpidr = some (slot, stackMap')) :
    stackMap'.getMut mpidr = some slot := by
  unfold getSecondaryStack at h
  split at h
  · rename_i hfound
    cases h
    exact hfound
  · exact SimpleMap.getMut_insert_self h

/-- **A call leaves every stack in its slot and as it is**, that of its own core included. -/
theorem getSecondaryStack_keeps (h : getSecondaryStack fresh stackMap mpidr = some (slot, stackMap')) {key : U64} {s : Nat}
    (hs : stackMap.getMut key = some s) :
    stackMap'.getMut key = some s ∧ stackMap'.valueAt s = stackMap.valueAt s := by
  unfold getSecondaryStack at h
  split at h
  · cases h
    exact ⟨hs, rfl⟩
  · rename_i hnew
    have hne : key ≠ mpidr := fun hk => by
      rw [hk, hnew] at hs
      cases hs
    have hs' : stackMap'.getMut key = some s := by
      rw [SimpleMap.getMut_insert hnew h, if_neg hne, hs]
    refine ⟨hs', ?_⟩
    rw [SimpleMap.valueAt_of_getMut hs', SimpleMap.valueAt_of_getMut hs, SimpleMap.get_insert h, if_neg hne]

theorem getSecondaryStack_isSome {cores : List U64} (fresh : V) (hkeys : ∀ key ∈ stackMap.keys, key ∈ cores)
    (hmpidr : mpidr ∈ cores) (hcores : cores.length ≤ maxCores) :
    ∃ slot stackMap', getSecondaryStack fresh stackMap mpidr = some (slot, stackMap') := by
  unfold getSecondaryStack
  split
  · exact ⟨_, _, rfl⟩
  · exact SimpleMap.insert_isSome fresh hkeys hmpidr hcores

end Call

/-! ## Runs -/

/-- A call by some core, or a write through a pointer that an earlier call returned. -/
inductive Event (V : Type) where
  | call (mpidr : U64)
  | write (slot : Nat) (update : V → V)

def Event.mpidr : Event V → Option U64
  | call mpidr => some mpidr
  | write .. => none

def step (stackMap : SecondaryStacks V maxCores) : Event V → Option (Option (U64 × Nat) × SecondaryStacks V maxCores)
  | .call mpidr => (getSecondaryStack fresh stackMap mpidr).map fun (slot, stackMap') => (some (mpidr, slot), stackMap')
  | .write slot update => some (none, stackMap.updateAt slot update)

def Given (stackMap : SecondaryStacks V maxCores) (given : Option (U64 × Nat)) : Prop :=
  ∀ key slot, given = some (key, slot) → stackMap.getMut key = some slot

theorem given_step {stackMap stackMap' : SecondaryStacks V maxCores} {event : Event V} {answer : Option (U64 × Nat)}
    (h : step fresh stackMap event = some (answer, stackMap')) : Given stackMap' answer := by
  rintro key slot rfl
  cases event with
  | call mpidr =>
    obtain ⟨⟨slot', m⟩, hcall, heq⟩ := Option.map_eq_some_iff.1 h
    cases heq
    exact getMut_getSecondaryStack hcall
  | write slot' update => cases h

theorem Given.step {stackMap stackMap' : SecondaryStacks V maxCores} {event : Event V} {given answer : Option (U64 × Nat)}
    (hgiven : Given stackMap given) (h : step fresh stackMap event = some (answer, stackMap')) :
    Given stackMap' given := by
  intro key slot hks
  have hslot := hgiven key slot hks
  cases event with
  | call mpidr =>
    obtain ⟨⟨slot', m⟩, hcall, heq⟩ := Option.map_eq_some_iff.1 h
    cases heq
    exact (getSecondaryStack_keeps hcall hslot).1
  | write slot' update =>
    cases h
    rw [SimpleMap.getMut_updateAt, hslot]

theorem step_progress {cores : List U64} (hcores : cores.length ≤ maxCores) (stackMap : SecondaryStacks V maxCores)
    (event : Event V) (hkeys : ∀ key ∈ stackMap.keys, key ∈ cores)
    (hmpidr : ∀ mpidr, event.mpidr = some mpidr → mpidr ∈ cores) :
    ∃ answer stackMap', step fresh stackMap event = some (answer, stackMap') ∧ ∀ key ∈ stackMap'.keys, key ∈ cores := by
  cases event with
  | call mpidr =>
    have hmem := hmpidr mpidr rfl
    obtain ⟨slot, stackMap', hcall⟩ := getSecondaryStack_isSome fresh hkeys hmem hcores
    refine ⟨some (mpidr, slot), stackMap', ?_, fun key hkey => ?_⟩
    · rw [step, hcall]
      rfl
    · rcases (mem_keys_getSecondaryStack hcall key).1 hkey with rfl | hkey
      · exact hmem
      · exact hkeys key hkey
  | write slot update =>
    refine ⟨none, stackMap.updateAt slot update, rfl, ?_⟩
    rw [SimpleMap.keys_updateAt]
    exact hkeys

/-- **Stacks never move or alias**: in every run with at most as many keys as there are slots, no call panics, two calls
return one slot exactly if they are for one key, and whatever call comes next leaves every stack there is in its slot
and with its contents. -/
theorem stacks_never_move_or_alias (events : List (Event V))
    (hcores : (events.filterMap Event.mpidr).dedup.length ≤ maxCores) :
    ∃ answers stackMap, Lib.Object.run (step fresh) (SimpleMap.new : SecondaryStacks V maxCores) events =
        (answers, some stackMap) ∧
      (∀ key slot key' slot', some (key, slot) ∈ answers → some (key', slot') ∈ answers → (key = key' ↔ slot = slot')) ∧
      (∀ key slot, some (key, slot) ∈ answers → stackMap.getMut key = some slot) ∧
      ∀ mpidr slot stackMap', getSecondaryStack fresh stackMap mpidr = some (slot, stackMap') →
        ∀ key s, stackMap.getMut key = some s →
          stackMap'.getMut key = some s ∧ stackMap'.valueAt s = stackMap.valueAt s := by
  obtain ⟨answers, stackMap, hrun, -⟩ := Lib.Object.run_progress (step_progress fresh hcores) events
    (s := SimpleMap.new) (by simp) (fun event hevent mpidr hmpidr =>
      List.mem_dedup.2 (List.mem_filterMap.2 ⟨event, hevent, hmpidr⟩))
  have hgiven : ∀ key slot, some (key, slot) ∈ answers → stackMap.getMut key = some slot := fun key slot hmem =>
    Lib.Object.run_answers (J := fun given m => Given m given) (fun _ _ _ _ => given_step fresh)
      (fun _ _ _ _ _ => Given.step fresh) events (congrArg Prod.snd hrun) _
      ((congrArg Prod.fst hrun).symm ▸ hmem) key slot rfl
  refine ⟨answers, stackMap, hrun, fun key slot key' slot' hmem hmem' => ?_, hgiven,
    fun _ _ _ hcall _ _ => getSecondaryStack_keeps hcall⟩
  have hslot := hgiven key slot hmem
  have hslot' := hgiven key' slot' hmem'
  constructor
  · rintro rfl
    exact Option.some.inj (hslot.symm.trans hslot')
  · rintro rfl
    exact SimpleMap.getMut_injective hslot hslot'

theorem stacks_never_move_or_alias_two_cores :
    let events : List (Event Nat) := [.call 0, .write 0 (· + 7), .call 1, .write 1 (· + 5), .call 0]
    let ran := Lib.Object.run (step 0) (SimpleMap.new : SecondaryStacks Nat 2) events
    (events.filterMap Event.mpidr).dedup.length ≤ 2 ∧ ran.1 = [some (0, 0), none, some (1, 1), none, some (0, 0)] ∧
      ∃ stackMap, ran.2 = some stackMap ∧ stackMap.getMut 1 = some 1 ∧ stackMap.valueAt 0 = some 7 := by
  intro events ran
  have hcores : (events.filterMap Event.mpidr).dedup.length ≤ 2 := by decide
  obtain ⟨answers, stackMap, hrun, -, hgiven, -⟩ := @stacks_never_move_or_alias Nat 2 0 events hcores
  refine ⟨hcores, by decide, stackMap, congrArg Prod.snd hrun, ?_, ?_⟩ <;> cases hrun
  · exact hgiven 1 1 (by decide)
  · decide

end SecondaryStacks
end Ritm
