import Ritm.Lib.Mutex
import Ritm.Machine
/-!
# CriticalSections — the maps, slot by slot

`SECONDARY_STACKS` and `SUSPEND_CONTEXTS` are each behind a spin lock, and every call that uses one takes its lock, loops
over the slots, and releases it.  Here the loops are sections that access one slot at a time; each computes what the
call does in one go.
-/
namespace Ritm

open Lib (Section Mutex)

variable {K V σ : Type}

/-! ## Loops -/

namespace Slots

def itemAt (k : Nat) (items : Slots K V) : Option (Item K V) := (items[k]?).join

theorem itemAt_append (before : Slots K V) (slot : Option (Item K V)) (after : Slots K V) :
    itemAt before.length (before ++ slot :: after) = slot := by
  simp [itemAt]

theorem set_append (before : Slots K V) (slot slot' : Option (Item K V)) (after : Slots K V) :
    (before ++ slot :: after).set before.length slot' = before ++ slot' :: after := by
  simp

section Loops

variable [DecidableEq K]

/-- `get_mut`'s loop over `slots` slots from slot `k` on. -/
def getMutFrom (key : K) : (slots k : Nat) → Section (Slots K V) (Option Nat)
  | 0, _ => .done none
  | slots + 1, k => .access id fun items =>
    match items.itemAt k with
    | some item => if item.key = key then .done (some k) else getMutFrom key slots (k + 1)
    | none => getMutFrom key slots (k + 1)

def removeFrom (key : K) : (slots k : Nat) → Section (Slots K V) (Option V)
  | 0, _ => .done none
  | slots + 1, k =>
    .access
      (fun items =>
        match items.itemAt k with
        | some item => if item.key = key then items.set k none else items
        | none => items)
      (fun items =>
        match items.itemAt k with
        | some item => if item.key = key then .done (some item.value) else removeFrom key slots (k + 1)
        | none => removeFrom key slots (k + 1))

end Loops

/-- `insert`'s loop, once its key has been removed. -/
def putFrom (item : Item K V) : (slots k : Nat) → Section (Slots K V) Nat
  | 0, _ => .panic
  | slots + 1, k =>
    .access
      (fun items =>
        match items.itemAt k with
        | some _ => items
        | none => items.set k (some item))
      (fun items =>
        match items.itemAt k with
        | some _ => putFrom item slots (k + 1)
        | none => .done k)

theorem putFrom_within (item : Item K V) : ∀ slots k : Nat, (putFrom item slots k).Within slots
  | 0, _ => trivial
  | slots + 1, k => by
    refine ⟨Nat.succ_pos slots, fun items => ?_⟩
    dsimp only
    split
    · exact putFrom_within item slots (k + 1)
    · trivial

theorem append_cons_eq (before : Slots K V) (slot : Option (Item K V)) (after : Slots K V) :
    (before ++ [slot]).length = before.length + 1 ∧ before ++ slot :: after = before ++ [slot] ++ after := by
  simp

theorem putFrom_run (item : Item K V) : ∀ before after : Slots K V,
    (putFrom item after.length before.length).run (before ++ after) =
      (putItem item after).map fun r => (before.length + r.1, before ++ r.2)
  | _, [] => rfl
  | before, slot :: after => by
    obtain ⟨hlength, happend⟩ := append_cons_eq before slot after
    have ih := putFrom_run item (before ++ [slot]) after
    rw [hlength, ← happend] at ih
    rw [List.length_cons, putFrom, Section.run, itemAt_append]
    cases slot with
    | none =>
      dsimp only
      rw [set_append]
      rfl
    | some other =>
      dsimp only
      rw [ih, putItem, Option.map_map]
      congr 1
      funext r
      simp [Nat.add_assoc, Nat.add_comm 1]

variable [DecidableEq K]

theorem getMutFrom_within (key : K) : ∀ slots k : Nat, (getMutFrom key slots k : Section (Slots K V) _).Within slots
  | 0, _ => trivial
  | slots + 1, k => by
    refine ⟨Nat.succ_pos slots, fun items => ?_⟩
    dsimp only
    split
    · split
      · trivial
      · exact getMutFrom_within key slots (k + 1)
    · exact getMutFrom_within key slots (k + 1)

theorem removeFrom_within (key : K) : ∀ slots k : Nat, (removeFrom key slots k : Section (Slots K V) _).Within slots
  | 0, _ => trivial
  | slots + 1, k => by
    refine ⟨Nat.succ_pos slots, fun items => ?_⟩
    dsimp only
    split
    · split
      · trivial
      · exact removeFrom_within key slots (k + 1)
    · exact removeFrom_within key slots (k + 1)

theorem getMutFrom_run (key : K) : ∀ before after : Slots K V,
    (getMutFrom key after.length before.length).run (before ++ after) =
      some ((slotOf key after).map (before.length + ·), before ++ after)
  | _, [] => rfl
  | before, slot :: after => by
    obtain ⟨hlength, happend⟩ := append_cons_eq before slot after
    have ih := getMutFrom_run key (before ++ [slot]) after
    rw [hlength, ← happend] at ih
    have hmap : ((slotOf key after).map (· + 1)).map (before.length + ·) = (slotOf key after).map (before.length + 1 + ·) := by
      rw [Option.map_map]
      congr 1
      funext k
      show before.length + (k + 1) = before.length + 1 + k
      omega
    rw [List.length_cons, getMutFrom, Section.run, itemAt_append]
    cases slot with
    | none =>
      rw [slotOf, hmap]
      exact ih
    | some item =>
      dsimp only
      rw [slotOf]
      split
      · rfl
      · rw [hmap]
        exact ih

theorem removeFrom_run (key : K) : ∀ before after : Slots K V,
    (removeFrom key after.length before.length).run (before ++ after) =
      some ((removeItem key after).1, before ++ (removeItem key after).2)
  | _, [] => rfl
  | before, slot :: after => by
    obtain ⟨hlength, happend⟩ := append_cons_eq before slot after
    have ih := removeFrom_run key (before ++ [slot]) after
    rw [hlength, ← happend, List.append_assoc] at ih
    rw [List.length_cons, removeFrom, Section.run, itemAt_append]
    cases slot with
    | none => exact ih
    | some item =>
      dsimp only
      rw [removeItem]
      split
      · rw [set_append]
        rfl
      · exact ih

end Slots

/-! ## Calls -/

section Calls

variable [DecidableEq K]

def insertSection (capacity : Nat) (key : K) (value : V) : Section (Slots K V) Nat :=
  (Slots.removeFrom key capacity 0).bind fun _ => Slots.putFrom ⟨key, value⟩ capacity 0

/-- `get_secondary_stack` between `lock` and the end of its scope. -/
def getSecondaryStackSection (capacity : Nat) (mpidr : U64) : Section (Slots U64 Unit) Nat :=
  (Slots.getMutFrom mpidr capacity 0).bind fun slot =>
    match slot with
    | some slot => .done slot
    | none => insertSection capacity mpidr ()

theorem removeSection_run {capacity : Nat} (m : SimpleMap K V capacity) (key : K) :
    (Slots.removeFrom key capacity 0).run m.items = some ((m.remove key).1, (m.remove key).2.items) := by
  have h := Slots.removeFrom_run key [] m.items
  rwa [m.length_eq] at h

theorem insert_items {capacity : Nat} (m : SimpleMap K V capacity) (key : K) (value : V) :
    (m.insert key value).map (fun r => (r.1, r.2.items)) = (m.remove key).2.items.putItem ⟨key, value⟩ := by
  unfold SimpleMap.insert
  split
  · rename_i h
    exact h.symm
  · rename_i h
    exact h.symm

theorem insertSection_run {capacity : Nat} (m : SimpleMap K V capacity) (key : K) (value : V) :
    (insertSection capacity key value).run m.items = (m.insert key value).map fun r => (r.1, r.2.items) := by
  rw [insertSection, Section.run_bind, removeSection_run, Option.bind_some]
  have h := Slots.putFrom_run ⟨key, value⟩ [] (m.remove key).2.items
  rw [(m.remove key).2.length_eq] at h
  rw [insert_items]
  refine h.trans ?_
  simp

theorem getSecondaryStackSection_run {capacity : Nat} (m : SimpleMap U64 Unit capacity) (mpidr : U64) :
    (getSecondaryStackSection capacity mpidr).run m.items =
      (secondaryStackSlot m mpidr).map fun r => (r.1, r.2.items) := by
  have h := Slots.getMutFrom_run mpidr [] m.items
  rw [m.length_eq] at h
  have hslot : (Slots.getMutFrom mpidr capacity 0).run m.items = some (m.getMut mpidr, m.items) := by
    refine h.trans ?_
    simp [SimpleMap.getMut]
  rw [getSecondaryStackSection, Section.run_bind, hslot, Option.bind_some, secondaryStackSlot]
  cases m.getMut mpidr with
  | some slot => rfl
  | none => exact insertSection_run m mpidr ()

theorem insertSection_within (capacity : Nat) (key : K) (value : V) :
    (insertSection capacity key value).Within (capacity + capacity) :=
  (Slots.removeFrom_within key capacity 0).bind fun _ => Slots.putFrom_within ⟨key, value⟩ capacity 0

theorem getSecondaryStackSection_within (capacity : Nat) (mpidr : U64) :
    (getSecondaryStackSection capacity mpidr).Within (capacity + (capacity + capacity)) := by
  refine (Slots.getMutFrom_within mpidr capacity 0).bind fun slot => ?_
  cases slot with
  | some slot => trivial
  | none => exact insertSection_within capacity mpidr ()

end Calls

/-! ## Locks -/

inductive MapLock where
  | secondaryStacks
  | suspendContexts
  deriving DecidableEq, Repr

namespace MapLock

@[reducible] def Value : MapLock → Type
  | secondaryStacks => Unit
  | suspendContexts => SuspendCoreData

abbrev Data (l : MapLock) : Type := Slots U64 l.Value

@[reducible] def Answer : MapLock → Type
  | secondaryStacks => Nat
  | suspendContexts => Option SuspendCoreData

end MapLock

namespace Eff

/-- What a call does while it holds the lock. -/
def code (capacity : Nat) : Eff σ → (l : MapLock) → Option (Section l.Data l.Answer)
  | getSecondaryStack mpidr, .secondaryStacks => some (getSecondaryStackSection capacity mpidr)
  | suspendInsert mpidr context, .suspendContexts =>
    some ((insertSection capacity mpidr context).bind fun _ => .done none)
  | suspendRemove mpidr, .suspendContexts => some (Slots.removeFrom mpidr capacity 0)
  | _, _ => none

def ofAnswer : (e : Eff σ) → (l : MapLock) → l.Answer → Option e.Resp
  | getSecondaryStack _, .secondaryStacks, slot => some slot
  | suspendInsert _ _, .suspendContexts, _ => some ()
  | suspendRemove _, .suspendContexts, context => some context
  | _, _, _ => none

def takesLock : Eff σ → Bool
  | getSecondaryStack _ | suspendInsert _ _ | suspendRemove _ => true
  | _ => false

theorem takesLock_of_code {capacity : Nat} {e : Eff σ} {l : MapLock} {code : Section l.Data l.Answer}
    (h : e.code capacity l = some code) : e.takesLock = true := by
  cases e with
  | getSecondaryStack | suspendInsert | suspendRemove => rfl
  | _ => cases l <;> cases h

/-- **A call goes through the slots three times at most.** -/
theorem code_within {capacity : Nat} {e : Eff σ} {l : MapLock} {code : Section l.Data l.Answer}
    (h : e.code capacity l = some code) : code.Within (3 * capacity) := by
  cases e with
  | getSecondaryStack mpidr =>
    cases l with
    | suspendContexts => cases h
    | secondaryStacks =>
      cases h
      exact (getSecondaryStackSection_within capacity mpidr).mono (by omega)
  | suspendInsert mpidr context =>
    cases l with
    | secondaryStacks => cases h
    | suspendContexts =>
      cases h
      have hdone : ∀ _ : Nat, (.done none : Section (Slots U64 SuspendCoreData) (Option SuspendCoreData)).Within 0 :=
        fun _ => trivial
      exact ((insertSection_within capacity mpidr context).bind hdone).mono (by omega)
  | suspendRemove mpidr =>
    cases l with
    | secondaryStacks => cases h
    | suspendContexts =>
      cases h
      exact (Slots.removeFrom_within mpidr capacity 0).mono (by omega)
  | _ => cases l <;> cases h

theorem code_unique {capacity : Nat} {e : Eff σ} {l l' : MapLock} {code : Section l.Data l.Answer}
    (h : e.code capacity l = some code) (hne : l' ≠ l) : e.code capacity l' = none := by
  cases e with
  | getSecondaryStack | suspendInsert | suspendRemove =>
    cases l <;> cases l' <;> first | rfl | exact absurd rfl hne | cases h
  | _ => cases l' <;> rfl

theorem ofAnswer_eq_none {capacity : Nat} {e : Eff σ} {l l' : MapLock} {code : Section l.Data l.Answer}
    (h : e.code capacity l = some code) (hne : l' ≠ l) (answer : l'.Answer) : e.ofAnswer l' answer = none := by
  cases e with
  | getSecondaryStack | suspendInsert | suspendRemove =>
    cases l <;> cases l' <;> first | rfl | exact absurd rfl hne | cases h
  | _ => cases l' <;> rfl

end Eff

namespace Shared

variable {maxCores : Nat}

def items (s : Shared σ maxCores) : (l : MapLock) → l.Data
  | .secondaryStacks => s.stackMap.items
  | .suspendContexts => s.contexts.items

def bare (s : Shared σ maxCores) : Shared σ maxCores := { s with stackMap := .new, contexts := .new }

/-- **A call is its section in one go.** -/
theorem perform_of_code (s : Shared σ maxCores) {e : Eff σ} {l : MapLock} {code : Section l.Data l.Answer}
    (hcode : e.code maxCores l = some code) {answer : l.Answer} {data : l.Data}
    (hrun : code.run (s.items l) = some (answer, data)) : ∃ r s', e.ofAnswer l answer = some r ∧
      s.perform e = some (.ok (r, s')) ∧ s'.items l = data ∧ (∀ l', l' ≠ l → s'.items l' = s.items l') ∧
      s'.bare = s.bare := by
  cases e with
  | getSecondaryStack mpidr =>
    cases l with
    | suspendContexts => cases hcode
    | secondaryStacks =>
      cases hcode
      rw [items, getSecondaryStackSection_run, Option.map_eq_some_iff] at hrun
      obtain ⟨⟨slot, stackMap⟩, hslot, heq⟩ := hrun
      cases heq
      refine ⟨slot, { s with stackMap := stackMap }, rfl, ?_, rfl, fun l' hne => ?_, rfl⟩
      · rw [perform, hslot]
      · cases l' with
        | secondaryStacks => exact absurd rfl hne
        | suspendContexts => rfl
  | suspendInsert mpidr context =>
    cases l with
    | secondaryStacks => cases hcode
    | suspendContexts =>
      cases hcode
      have hinsert := insertSection_run s.contexts mpidr context
      cases hm : s.contexts.insert mpidr context with
      | none =>
        rw [hm] at hinsert
        rw [Section.run_bind, items, hinsert] at hrun
        cases hrun
      | some r =>
        rw [hm] at hinsert
        rw [Section.run_bind, items, hinsert] at hrun
        cases hrun
        refine ⟨(), { s with contexts := r.2 }, rfl, ?_, rfl, fun l' hne => ?_, rfl⟩
        · rw [perform, hm]
        · cases l' with
          | secondaryStacks => rfl
          | suspendContexts => exact absurd rfl hne
  | suspendRemove mpidr =>
    cases l with
    | secondaryStacks => cases hcode
    | suspendContexts =>
      cases hcode
      rw [items, removeSection_run] at hrun
      cases hrun
      refine ⟨_, _, rfl, rfl, rfl, fun l' hne => ?_, rfl⟩
      cases l' with
      | secondaryStacks => rfl
      | suspendContexts => exact absurd rfl hne
  | _ => cases l <;> cases hcode

theorem perform_of_code_none (s : Shared σ maxCores) {e : Eff σ} {l : MapLock} {code : Section l.Data l.Answer}
    (hcode : e.code maxCores l = some code) (hrun : code.run (s.items l) = none) :
    s.perform e = some (.error capacityExceeded) := by
  cases e with
  | getSecondaryStack mpidr =>
    cases l with
    | suspendContexts => cases hcode
    | secondaryStacks =>
      cases hcode
      rw [items, getSecondaryStackSection_run, Option.map_eq_none_iff] at hrun
      rw [perform, hrun]
  | suspendInsert mpidr context =>
    cases l with
    | secondaryStacks => cases hcode
    | suspendContexts =>
      cases hcode
      rw [Section.run_bind, items, insertSection_run] at hrun
      cases hm : s.contexts.insert mpidr context with
      | none => rw [perform, hm]
      | some r =>
        rw [hm] at hrun
        cases hrun
  | suspendRemove mpidr =>
    cases l with
    | secondaryStacks => cases hcode
    | suspendContexts =>
      cases hcode
      rw [items, removeSection_run] at hrun
      cases hrun
  | _ => cases l <;> cases hcode

end Shared

end Ritm
