import Mathlib.Data.Finmap
import Ritm.Lib.Refine
import Ritm.SimpleMap
/-!
# FiniteMap — what a SimpleMap is

The specification is a finite map with room for `capacity` keys.  A `SimpleMap` answers every sequence of operations as
the specification does and panics where it does: a slot freed by one key and taken by another cannot be told apart from
a map that has no slots.
-/
namespace Ritm

variable {K V : Type} [DecidableEq K] {capacity : Nat}

/-- An operation on a map; `getMut` comes with what its caller does to the value it is given. -/
inductive MapOp (K V : Type) where
  | getMut (key : K) (update : V → V)
  | insert (key : K) (value : V)
  | remove (key : K)

/-- One operation on the array; the answer of `getMut` and `insert` is what their reference reads. -/
def SimpleMap.answer (m : SimpleMap K V capacity) : MapOp K V → Option (Option V × SimpleMap K V capacity)
  | .getMut key update =>
    match m.getMut key with
    | none => some (none, m)
    | some slot => some (m.valueAt slot, m.updateAt slot update)
  | .insert key value => (m.insert key value).map fun (slot, m') => (m'.valueAt slot, m')
  | .remove key => some (m.remove key)

abbrev FiniteMap (K V : Type) := Finmap fun _ : K => V

/-- One operation on a finite map that may hold `capacity` keys. -/
def FiniteMap.answer (capacity : Nat) (f : FiniteMap K V) : MapOp K V → Option (Option V × FiniteMap K V)
  | .getMut key update =>
    match f.lookup key with
    | none => some (none, f)
    | some value => some (some value, f.insert key (update value))
  | .insert key value =>
    if key ∉ f ∧ f.keys.card = capacity then none else some (some value, f.insert key value)
  | .remove key => some (f.lookup key, f.erase key)

def SimpleMap.Holds (m : SimpleMap K V capacity) (f : FiniteMap K V) : Prop := ∀ key, m.get key = f.lookup key

namespace SimpleMap.Holds

variable {m m' : SimpleMap K V capacity} {f : FiniteMap K V}

theorem new : (SimpleMap.new : SimpleMap K V capacity).Holds ∅ := by
  intro key
  simp

theorem mem_iff (h : m.Holds f) (key : K) : key ∈ m.keys ↔ key ∈ f := by
  rw [← not_iff_not, ← SimpleMap.get_eq_none_iff, h key, Finmap.lookup_eq_none]

theorem getMut_eq_none_iff (h : m.Holds f) (key : K) : m.getMut key = none ↔ f.lookup key = none := by
  rw [SimpleMap.getMut_eq_none_iff, ← SimpleMap.get_eq_none_iff, h key]

theorem length_keys (h : m.Holds f) : m.keys.length = f.keys.card := by
  have hkeys : m.keys.toFinset = f.keys := by
    ext key
    rw [List.mem_toFinset, h.mem_iff, Finmap.mem_keys]
  rw [← hkeys]
  exact (List.toFinset_card_of_nodup m.keys_nodup).symm

theorem insert_eq_none_iff (h : m.Holds f) (key : K) (value : V) :
    m.insert key value = none ↔ key ∉ f ∧ f.keys.card = capacity := by
  rw [SimpleMap.insert_eq_none_iff, h.mem_iff, h.length_keys]

theorem insert (h : m.Holds f) {key : K} {value : V} {slot : Nat} (hi : m.insert key value = some (slot, m')) :
    m'.Holds (f.insert key value) := by
  intro key'
  rw [SimpleMap.get_insert hi]
  by_cases hk : key' = key
  · rw [if_pos hk, hk, Finmap.lookup_insert]
  · rw [if_neg hk, Finmap.lookup_insert_of_ne _ hk, h key']

theorem remove (h : m.Holds f) (key : K) : (m.remove key).2.Holds (f.erase key) := by
  intro key'
  rw [SimpleMap.get_remove]
  by_cases hk : key' = key
  · rw [if_pos hk, hk, Finmap.lookup_erase]
  · rw [if_neg hk, Finmap.lookup_erase_ne hk, h key']

theorem update (h : m.Holds f) {key : K} {slot : Nat} {value : V} (hslot : m.getMut key = some slot)
    (hvalue : f.lookup key = some value) (update : V → V) :
    (m.updateAt slot update).Holds (f.insert key (update value)) := by
  intro key'
  rw [SimpleMap.get_updateAt]
  by_cases hk : key' = key
  · rw [hk, if_pos hslot, Finmap.lookup_insert, h key, hvalue]
    rfl
  · have hne : m.getMut key' ≠ some slot := fun h' => hk (SimpleMap.getMut_injective h' hslot)
    rw [if_neg hne, Finmap.lookup_insert_of_ne _ hk, h key']

end SimpleMap.Holds

/-- **Each operation on the array is the operation on the map.** -/
theorem SimpleMap.refines : Lib.Object.Refines (fun (m : SimpleMap K V capacity) (f : FiniteMap K V) => m.Holds f)
    SimpleMap.answer (FiniteMap.answer capacity) := by
  intro m f h op
  cases op with
  | getMut key update =>
    cases hvalue : f.lookup key with
    | none =>
      simp only [SimpleMap.answer, FiniteMap.answer, (h.getMut_eq_none_iff key).2 hvalue, hvalue]
      exact .some ⟨rfl, h⟩
    | some value =>
      cases hslot : m.getMut key with
      | none =>
        rw [(h.getMut_eq_none_iff key).1 hslot] at hvalue
        cases hvalue
      | some slot =>
        simp only [SimpleMap.answer, FiniteMap.answer, hslot, hvalue]
        refine .some ⟨?_, h.update hslot hvalue update⟩
        rw [SimpleMap.valueAt_of_getMut hslot, h key, hvalue]
  | insert key value =>
    have hpanic := h.insert_eq_none_iff key value
    cases hi : m.insert key value with
    | none =>
      simp only [SimpleMap.answer, FiniteMap.answer, hi, if_pos (hpanic.1 hi), Option.map_none]
      exact .none
    | some r =>
      have hroom : ¬ (key ∉ f ∧ f.keys.card = capacity) := fun hfull => by
        rw [hpanic.2 hfull] at hi
        cases hi
      simp only [SimpleMap.answer, FiniteMap.answer, hi, if_neg hroom, Option.map_some]
      refine .some ⟨?_, h.insert hi⟩
      rw [SimpleMap.valueAt_of_getMut (SimpleMap.getMut_insert_self hi), SimpleMap.get_insert hi, if_pos rfl]
  | remove key => exact .some ⟨(m.remove_fst key).trans (h key), h.remove key⟩

/-- **A SimpleMap is a finite map**: it answers every sequence of operations as one with room for `capacity` keys, and
panics where that is full.  Its array never holds a key in two slots, and a key it holds can be overwritten even when
there is no free slot. -/
theorem simpleMap_refines_finiteMap (ops : List (MapOp K V)) :
    let array := Lib.Object.run SimpleMap.answer (SimpleMap.new : SimpleMap K V capacity) ops
    let map := Lib.Object.run (FiniteMap.answer capacity) (∅ : FiniteMap K V) ops
    array.1 = map.1 ∧ (array.2 = none ↔ map.2 = none) ∧
      ∀ m, array.2 = some m → ∃ f, map.2 = some f ∧ m.Holds f ∧
        (∀ (i j : Nat) (item item' : Item K V), m.items[i]? = some (some item) → m.items[j]? = some (some item') →
          item.key = item'.key → i = j) ∧
        (∀ key value, m.insert key value = none ↔ key ∉ f ∧ f.keys.card = capacity) ∧
        (∀ key value, key ∈ f → f.keys.card = capacity →
          ∃ slot m', m.insert key value = some (slot, m') ∧ m'.Holds (f.insert key value)) := by
  intro array map
  obtain ⟨hanswers, hlast⟩ := SimpleMap.refines.run ops (SimpleMap.Holds.new (K := K) (V := V))
  refine ⟨hanswers, ?_, fun m hm => ?_⟩
  · rcases hlast with ⟨hm, hf⟩ | ⟨m, f, hm, hf, -⟩ <;> simp [array, map, hm, hf]
  · obtain ⟨f, hf, hholds⟩ : ∃ f, map.2 = some f ∧ m.Holds f := by
      rcases hlast with ⟨hnone, -⟩ | ⟨m', f, hm', hf, hholds⟩
      · cases hnone.symm.trans hm
      · cases hm'.symm.trans hm
        exact ⟨f, hf, hholds⟩
    refine ⟨f, hf, hholds, fun _ _ _ _ hi hj => m.slot_unique hi hj, hholds.insert_eq_none_iff, fun key value hkey _ => ?_⟩
    cases hi : m.insert key value with
    | none => exact absurd hkey ((hholds.insert_eq_none_iff key value).1 hi).1
    | some r => exact ⟨r.1, r.2, rfl, hholds.insert hi⟩

theorem simpleMap_refines_finiteMap_reused_slot :
    let ops : List (MapOp Nat Nat) := [.insert 1 10, .insert 2 20, .remove 1, .insert 3 30, .getMut 3 (· + 1), .remove 4]
    let array := Lib.Object.run SimpleMap.answer (SimpleMap.new : SimpleMap Nat Nat 2) ops
    array.1 = [some 10, some 20, some 10, some 30, some 30, none] ∧
      ∃ m f, array.2 = some m ∧ m.Holds f ∧
        ∃ slot m', m.insert 2 21 = some (slot, m') ∧ m'.Holds (f.insert 2 21) := by
  intro ops array
  have h := @simpleMap_refines_finiteMap Nat Nat _ 2 ops
  obtain ⟨f, -, hholds, -, -, hoverwrite⟩ := h.2.2 _ rfl
  exact ⟨by decide, _, f, rfl, hholds, hoverwrite 2 21 ((hholds.mem_iff 2).1 (by decide))
    (hholds.length_keys.symm.trans (by decide))⟩

end Ritm
