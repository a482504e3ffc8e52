import Mathlib.Data.List.Perm.Subperm
/-!
# SimpleMap — the fixed-capacity map

An array of optional items, searched from its first slot.  A `&mut V` into the map is the index of its slot, through
which its holder reads and writes the value (`valueAt`, `updateAt`).  The three loops are functions on the list of slots
(`slotOf`, `removeItem`, `putItem`); a `SimpleMap` carries that the array has its capacity and that no key occurs twice,
which `insert` keeps because it removes the key first.

As a map of keys to values it is described by `get`; `insert` panics exactly when its key is new and every slot holds
another (`insert_eq_none_iff`), so it never does while the keys in use fit the capacity (`insert_isSome`).
-/
namespace Ritm

variable {K V W : Type}

structure Item (K V : Type) where
  key : K
  value : V
  deriving DecidableEq, Repr

abbrev Slots (K V : Type) := List (Option (Item K V))

namespace Slots

def keys (items : Slots K V) : List K := items.filterMap (Option.map Item.key)

section Loops

variable [DecidableEq K]

def slotOf (key : K) : Slots K V → Option Nat
  | [] => none
  | none :: rest => (slotOf key rest).map (· + 1)
  | some item :: rest => if item.key = key then some 0 else (slotOf key rest).map (· + 1)

def removeItem (key : K) : Slots K V → Option V × Slots K V
  | [] => (none, [])
  | none :: rest => ((removeItem key rest).1, none :: (removeItem key rest).2)
  | some item :: rest =>
    if item.key = key then (some item.value, none :: rest)
    else ((removeItem key rest).1, some item :: (removeItem key rest).2)

def get (key : K) : Slots K V → Option V
  | [] => none
  | none :: rest => get key rest
  | some item :: rest => if item.key = key then some item.value else get key rest

end Loops

def putItem (item : Item K V) : Slots K V → Option (Nat × Slots K V)
  | [] => none
  | none :: rest => some (0, some item :: rest)
  | some other :: rest => (putItem item rest).map (fun r => (r.1 + 1, some other :: r.2))

/-- What a reference to the value in a slot reads. -/
def valueAt (slot : Nat) (items : Slots K V) : Option V := (items[slot]?).join.map Item.value

def updateAt (slot : Nat) (update : V → V) (items : Slots K V) : Slots K V :=
  items.modify slot (Option.map fun item => { item with value := update item.value })

def mapValues (g : V → W) (items : Slots K V) : Slots K W :=
  items.map (Option.map fun item => ⟨item.key, g item.value⟩)

@[simp] theorem keys_nil : keys ([] : Slots K V) = [] := rfl

@[simp] theorem keys_cons_none (rest : Slots K V) : keys (none :: rest) = keys rest := rfl

@[simp] theorem keys_cons_some (item : Item K V) (rest : Slots K V) :
    keys (some item :: rest) = item.key :: keys rest := rfl

theorem keys_replicate_none (n : Nat) : keys (List.replicate n (none : Option (Item K V))) = [] := by
  induction n with
  | zero => rfl
  | succ n ih => rw [List.replicate_succ, keys_cons_none, ih]

theorem putItem_length (item : Item K V) : ∀ (items : Slots K V) {i : Nat} {items' : Slots K V},
    putItem item items = some (i, items') → items'.length = items.length
  | [], _, _, h => by cases h
  | none :: rest, _, _, h => by
    cases h
    rfl
  | some other :: rest, _, _, h => by
    obtain ⟨⟨j, rest'⟩, hr, heq⟩ := Option.map_eq_some_iff.1 h
    cases heq
    rw [List.length_cons, List.length_cons, putItem_length item rest hr]

theorem keys_putItem (item : Item K V) : ∀ (items : Slots K V) {i : Nat} {items' : Slots K V},
    putItem item items = some (i, items') → (keys items').Perm (item.key :: keys items)
  | [], _, _, h => by cases h
  | none :: rest, _, _, h => by
    cases h
    exact List.Perm.refl _
  | some other :: rest, _, _, h => by
    obtain ⟨⟨j, rest'⟩, hr, heq⟩ := Option.map_eq_some_iff.1 h
    cases heq
    exact ((keys_putItem item rest hr).cons _).trans (List.Perm.swap ..)

@[simp] theorem valueAt_zero (head : Option (Item K V)) (rest : Slots K V) :
    valueAt 0 (head :: rest) = head.map Item.value := rfl

@[simp] theorem valueAt_succ (slot : Nat) (head : Option (Item K V)) (rest : Slots K V) :
    valueAt (slot + 1) (head :: rest) = valueAt slot rest := rfl

@[simp] theorem updateAt_nil (slot : Nat) (update : V → V) : updateAt slot update ([] : Slots K V) = [] := by
  cases slot <;> rfl

@[simp] theorem updateAt_zero (update : V → V) (head : Option (Item K V)) (rest : Slots K V) :
    updateAt 0 update (head :: rest) = head.map (fun item => { item with value := update item.value }) :: rest := rfl

@[simp] theorem updateAt_succ (slot : Nat) (update : V → V) (head : Option (Item K V)) (rest : Slots K V) :
    updateAt (slot + 1) update (head :: rest) = head :: updateAt slot update rest := rfl

theorem updateAt_length (slot : Nat) (update : V → V) (items : Slots K V) :
    (updateAt slot update items).length = items.length := List.length_modify ..

theorem keys_updateAt (update : V → V) : ∀ (slot : Nat) (items : Slots K V), keys (updateAt slot update items) = keys items
  | slot, [] => by simp
  | 0, none :: rest => rfl
  | 0, some item :: rest => rfl
  | slot + 1, none :: rest => by simp [keys_updateAt update slot rest]
  | slot + 1, some item :: rest => by simp [keys_updateAt update slot rest]

theorem mem_keys_of_getElem {items : Slots K V} {slot : Nat} {item : Item K V} (h : items[slot]? = some (some item)) :
    item.key ∈ items.keys := List.mem_filterMap.2 ⟨some item, List.mem_of_getElem? h, rfl⟩

theorem length_keys_le (items : Slots K V) : items.keys.length ≤ items.length := List.length_filterMap_le ..

theorem putItem_eq_none_iff (item : Item K V) : ∀ items : Slots K V,
    putItem item items = none ↔ (keys items).length = items.length
  | [] => by simp [putItem]
  | none :: rest => by
    have hle := length_keys_le rest
    simp only [putItem, keys_cons_none, List.length_cons, reduceCtorEq, false_iff]
    omega
  | some other :: rest => by simp [putItem, putItem_eq_none_iff item rest]

theorem keys_mapValues (g : V → W) (items : Slots K V) : keys (mapValues g items) = keys items := by
  unfold keys mapValues
  rw [List.filterMap_map]
  refine List.filterMap_congr fun item _ => ?_
  cases item <;> rfl

theorem putItem_mapValues (g : V → W) (item : Item K V) : ∀ items : Slots K V,
    putItem ⟨item.key, g item.value⟩ (mapValues g items) = (putItem item items).map (Prod.map id (mapValues g))
  | [] => rfl
  | none :: rest => rfl
  | some other :: rest => by
    have ih := putItem_mapValues g item rest
    unfold mapValues at ih ⊢
    simp only [List.map_cons, Option.map_some, putItem, ih, Option.map_map]
    rfl

variable [DecidableEq K]

theorem removeItem_length (key : K) : ∀ items : Slots K V, (removeItem key items).2.length = items.length
  | [] => rfl
  | none :: rest => by rw [removeItem, List.length_cons, List.length_cons, removeItem_length key rest]
  | some item :: rest => by
    rw [removeItem]
    split
    · rfl
    · rw [List.length_cons, List.length_cons, removeItem_length key rest]

theorem keys_removeItem (key : K) : ∀ items : Slots K V, keys (removeItem key items).2 = (keys items).erase key
  | [] => rfl
  | none :: rest => by rw [removeItem, keys_cons_none, keys_cons_none, keys_removeItem key rest]
  | some item :: rest => by
    rw [removeItem, keys_cons_some]
    split
    · rename_i h
      rw [h, List.erase_cons_head]
      rfl
    · rename_i h
      rw [List.erase_cons_tail (by simpa using h), keys_cons_some, keys_removeItem key rest]

theorem get_eq_none_iff (key : K) : ∀ items : Slots K V, get key items = none ↔ key ∉ keys items
  | [] => by simp [get]
  | none :: rest => by rw [get, keys_cons_none, get_eq_none_iff key rest]
  | some item :: rest => by
    rw [get, keys_cons_some, List.mem_cons, not_or, ← get_eq_none_iff key rest]
    split
    · rename_i h
      simp [h]
    · rename_i h
      simp [Ne.symm h]

theorem slotOf_eq_none_iff (key : K) : ∀ items : Slots K V, slotOf key items = none ↔ key ∉ keys items
  | [] => by simp [slotOf]
  | none :: rest => by rw [slotOf, Option.map_eq_none_iff, keys_cons_none, slotOf_eq_none_iff key rest]
  | some item :: rest => by
    rw [slotOf, keys_cons_some, List.mem_cons, not_or, ← slotOf_eq_none_iff key rest]
    split
    · rename_i h
      simp [h]
    · rename_i h
      simp [Ne.symm h]

theorem removeItem_of_not_mem (key : K) : ∀ {items : Slots K V}, key ∉ keys items →
    removeItem key items = (none, items)
  | [], _ => rfl
  | none :: rest, h => by
    rw [keys_cons_none] at h
    rw [removeItem, removeItem_of_not_mem key h]
  | some item :: rest, h => by
    rw [keys_cons_some, List.mem_cons, not_or] at h
    rw [removeItem, if_neg (Ne.symm h.1), removeItem_of_not_mem key h.2]

theorem removeItem_fst (key : K) : ∀ items : Slots K V, (removeItem key items).1 = get key items
  | [] => rfl
  | none :: rest => by rw [removeItem, get, removeItem_fst key rest]
  | some item :: rest => by
    rw [removeItem, get]
    split
    · rfl
    · exact removeItem_fst key rest

theorem get_removeItem_ne {key key' : K} (h : key' ≠ key) : ∀ items : Slots K V,
    get key' (removeItem key items).2 = get key' items
  | [] => rfl
  | none :: rest => by rw [removeItem, get, get, get_removeItem_ne h rest]
  | some item :: rest => by
    rw [removeItem]
    split
    · rename_i hk
      rw [get, get, hk, if_neg (Ne.symm h)]
    · rw [get, get, get_removeItem_ne h rest]

theorem get_putItem (item : Item K V) (key : K) : ∀ {items : Slots K V} {i : Nat} {items' : Slots K V},
    item.key ∉ keys items → putItem item items = some (i, items') →
    get key items' = if key = item.key then some item.value else get key items
  | [], _, _, _, h => by cases h
  | none :: rest, _, _, hnot, h => by
    cases h
    rw [get, get]
    by_cases hk : key = item.key
    · rw [if_pos hk, if_pos hk.symm]
    · rw [if_neg hk, if_neg (Ne.symm hk)]
  | some other :: rest, _, _, hnot, h => by
    obtain ⟨⟨j, rest'⟩, hr, heq⟩ := Option.map_eq_some_iff.1 h
    cases heq
    rw [keys_cons_some, List.mem_cons, not_or] at hnot
    rw [get, get, get_putItem item key hnot.2 hr]
    by_cases hk : key = item.key
    · rw [if_pos hk, if_neg (by rw [hk]; exact Ne.symm hnot.1)]
      exact (if_pos hk).symm
    · rw [if_neg hk, if_neg hk]

theorem slotOf_putItem (item : Item K V) (key : K) : ∀ {items : Slots K V} {i : Nat} {items' : Slots K V},
    item.key ∉ keys items → putItem item items = some (i, items') →
    slotOf key items' = if key = item.key then some i else slotOf key items
  | [], _, _, _, h => by cases h
  | none :: rest, _, _, hnot, h => by
    cases h
    rw [slotOf, slotOf]
    by_cases hk : key = item.key
    · rw [if_pos hk, if_pos hk.symm]
    · rw [if_neg hk, if_neg (Ne.symm hk)]
  | some other :: rest, _, _, hnot, h => by
    obtain ⟨⟨j, rest'⟩, hr, heq⟩ := Option.map_eq_some_iff.1 h
    cases heq
    rw [keys_cons_some, List.mem_cons, not_or] at hnot
    rw [slotOf, slotOf, slotOf_putItem item key hnot.2 hr]
    by_cases hk : key = item.key
    · rw [if_pos hk, if_neg (by rw [hk]; exact Ne.symm hnot.1), if_pos hk]
      rfl
    · rw [if_neg hk, if_neg hk]

theorem slotOf_injective {key key' : K} : ∀ {items : Slots K V} {i : Nat}, slotOf key items = some i →
    slotOf key' items = some i → key = key'
  | [], _, h, _ => by cases h
  | none :: rest, _, h, h' => by
    obtain ⟨j, hj, rfl⟩ := Option.map_eq_some_iff.1 h
    obtain ⟨j', hj', heq⟩ := Option.map_eq_some_iff.1 h'
    cases heq
    exact slotOf_injective hj hj'
  | some item :: rest, i, h, h' => by
    rw [slotOf] at h h'
    by_cases hk : item.key = key
    · by_cases hk' : item.key = key'
      · exact hk.symm.trans hk'
      · rw [if_pos hk] at h
        rw [if_neg hk'] at h'
        obtain ⟨j', -, hj'⟩ := Option.map_eq_some_iff.1 h'
        cases h
        cases hj'
    · rw [if_neg hk] at h
      obtain ⟨j, hj, rfl⟩ := Option.map_eq_some_iff.1 h
      by_cases hk' : item.key = key'
      · rw [if_pos hk'] at h'
        cases h'
      · rw [if_neg hk'] at h'
        obtain ⟨j', hj', heq⟩ := Option.map_eq_some_iff.1 h'
        cases heq
        exact slotOf_injective hj hj'

theorem slotOf_updateAt (key : K) (update : V → V) : ∀ (slot : Nat) (items : Slots K V),
    slotOf key (updateAt slot update items) = slotOf key items
  | slot, [] => by simp
  | 0, none :: rest => rfl
  | 0, some item :: rest => rfl
  | slot + 1, none :: rest => by simp [slotOf, slotOf_updateAt key update slot rest]
  | slot + 1, some item :: rest => by simp [slotOf, slotOf_updateAt key update slot rest]

theorem get_updateAt (key : K) (update : V → V) : ∀ (slot : Nat) (items : Slots K V),
    get key (updateAt slot update items) = if slotOf key items = some slot then (get key items).map update else get key items
  | slot, [] => by simp [slotOf]
  | 0, none :: rest => by simp [slotOf, get]
  | 0, some item :: rest => by
    by_cases h : item.key = key <;> simp [slotOf, get, h]
  | slot + 1, none :: rest => by simp [slotOf, get, get_updateAt key update slot rest]
  | slot + 1, some item :: rest => by
    by_cases h : item.key = key <;> simp [slotOf, get, h, get_updateAt key update slot rest]

theorem valueAt_of_slotOf {key : K} : ∀ {items : Slots K V} {slot : Nat}, slotOf key items = some slot →
    valueAt slot items = get key items
  | [], _, h => by cases h
  | none :: rest, _, h => by
    obtain ⟨slot, hslot, rfl⟩ := Option.map_eq_some_iff.1 h
    simp [get, valueAt_of_slotOf hslot]
  | some item :: rest, _, h => by
    rw [slotOf] at h
    split at h
    · rename_i hkey
      cases h
      simp [get, hkey]
    · rename_i hkey
      obtain ⟨slot, hslot, rfl⟩ := Option.map_eq_some_iff.1 h
      simp [get, hkey, valueAt_of_slotOf hslot]

theorem slotOf_of_getElem : ∀ {items : Slots K V} {slot : Nat} {item : Item K V}, items.keys.Nodup →
    items[slot]? = some (some item) → slotOf item.key items = some slot
  | none :: rest, slot + 1, item, hnodup, h => by
    rw [keys_cons_none] at hnodup
    have hrest : rest[slot]? = some (some item) := h
    simp [slotOf, slotOf_of_getElem hnodup hrest]
  | some head :: rest, 0, item, hnodup, h => by
    cases h
    exact if_pos rfl
  | some head :: rest, slot + 1, item, hnodup, h => by
    rw [keys_cons_some, List.nodup_cons] at hnodup
    have hrest : rest[slot]? = some (some item) := h
    have hne : head.key ≠ item.key := fun heq => hnodup.1 (heq ▸ mem_keys_of_getElem hrest)
    simp [slotOf, hne, slotOf_of_getElem hnodup.2 hrest]

theorem slotOf_mapValues (g : V → W) (key : K) : ∀ items : Slots K V, slotOf key (mapValues g items) = slotOf key items
  | [] => rfl
  | none :: rest => congrArg (Option.map _) (slotOf_mapValues g key rest)
  | some item :: rest => by
    have ih := slotOf_mapValues g key rest
    unfold mapValues at ih ⊢
    simp only [List.map_cons, Option.map_some, slotOf, ih]

theorem removeItem_mapValues (g : V → W) (key : K) : ∀ items : Slots K V,
    (removeItem key (mapValues g items)).2 = mapValues g (removeItem key items).2
  | [] => rfl
  | none :: rest => congrArg (List.cons none) (removeItem_mapValues g key rest)
  | some item :: rest => by
    have ih := removeItem_mapValues g key rest
    unfold mapValues at ih ⊢
    simp only [List.map_cons, Option.map_some, removeItem]
    split <;> simp [ih]

end Slots

/-- The map: `CAPACITY` slots, no key twice. -/
structure SimpleMap (K V : Type) (capacity : Nat) where
  items : Slots K V
  length_eq : items.length = capacity
  keys_nodup : items.keys.Nodup

namespace SimpleMap

variable {capacity : Nat}

def new : SimpleMap K V capacity where
  items := List.replicate capacity none
  length_eq := List.length_replicate
  keys_nodup := by
    rw [Slots.keys_replicate_none]
    exact List.nodup_nil

def keys (m : SimpleMap K V capacity) : List K := m.items.keys

@[simp] theorem keys_new : (new : SimpleMap K V capacity).keys = [] := Slots.keys_replicate_none capacity

def valueAt (m : SimpleMap K V capacity) (slot : Nat) : Option V := m.items.valueAt slot

def updateAt (m : SimpleMap K V capacity) (slot : Nat) (update : V → V) : SimpleMap K V capacity where
  items := m.items.updateAt slot update
  length_eq := (Slots.updateAt_length slot update m.items).trans m.length_eq
  keys_nodup := by
    rw [Slots.keys_updateAt]
    exact m.keys_nodup

@[simp] theorem keys_updateAt (m : SimpleMap K V capacity) (slot : Nat) (update : V → V) :
    (m.updateAt slot update).keys = m.keys := Slots.keys_updateAt update slot m.items

def mapValues (g : V → W) (m : SimpleMap K V capacity) : SimpleMap K W capacity where
  items := m.items.mapValues g
  length_eq := (List.length_map _).trans m.length_eq
  keys_nodup := by
    rw [Slots.keys_mapValues]
    exact m.keys_nodup

variable [DecidableEq K]

def getMut (m : SimpleMap K V capacity) (key : K) : Option Nat := m.items.slotOf key

def get (m : SimpleMap K V capacity) (key : K) : Option V := m.items.get key

def remove (m : SimpleMap K V capacity) (key : K) : Option V × SimpleMap K V capacity :=
  ((m.items.removeItem key).1, {
    items := (m.items.removeItem key).2
    length_eq := (Slots.removeItem_length key m.items).trans m.length_eq
    keys_nodup := by
      rw [Slots.keys_removeItem]
      exact m.keys_nodup.erase key })

theorem not_mem_keys_remove (m : SimpleMap K V capacity) (key : K) : key ∉ (m.remove key).2.items.keys := by
  show key ∉ (m.items.removeItem key).2.keys
  rw [Slots.keys_removeItem]
  exact m.keys_nodup.not_mem_erase

/-- Inserts the value and returns its slot; `none` is the panic "maximum capacity exceeded". -/
def insert (m : SimpleMap K V capacity) (key : K) (value : V) : Option (Nat × SimpleMap K V capacity) :=
  match h : (m.remove key).2.items.putItem ⟨key, value⟩ with
  | none => none
  | some (slot, items) => some (slot, {
      items := items
      length_eq := (Slots.putItem_length _ _ h).trans (m.remove key).2.length_eq
      keys_nodup := (Slots.keys_putItem _ _ h).nodup_iff.2
        (List.nodup_cons.2 ⟨m.not_mem_keys_remove key, (m.remove key).2.keys_nodup⟩) })

theorem insert_eq_some {m m' : SimpleMap K V capacity} {key : K} {value : V} {slot : Nat}
    (h : m.insert key value = some (slot, m')) :
    (m.remove key).2.items.putItem ⟨key, value⟩ = some (slot, m'.items) := by
  unfold insert at h
  split at h
  · cases h
  · rename_i h'
    cases h
    exact h'

theorem get_eq_none_iff {m : SimpleMap K V capacity} {key : K} : m.get key = none ↔ key ∉ m.keys :=
  Slots.get_eq_none_iff key m.items

theorem getMut_eq_none_iff {m : SimpleMap K V capacity} {key : K} : m.getMut key = none ↔ key ∉ m.keys :=
  Slots.slotOf_eq_none_iff key m.items

@[simp] theorem get_new (key : K) : (new : SimpleMap K V capacity).get key = none :=
  get_eq_none_iff.2 (by simp)

theorem remove_fst (m : SimpleMap K V capacity) (key : K) : (m.remove key).1 = m.get key :=
  Slots.removeItem_fst key m.items

/-- **A removal takes away its key and no other.** -/
theorem get_remove (m : SimpleMap K V capacity) (key key' : K) :
    (m.remove key).2.get key' = if key' = key then none else m.get key' := by
  by_cases h : key' = key
  · rw [if_pos h, h]
    exact get_eq_none_iff.2 (m.not_mem_keys_remove key)
  · rw [if_neg h]
    exact Slots.get_removeItem_ne h m.items

/-- **An insertion sets its key and no other.** -/
theorem get_insert {m m' : SimpleMap K V capacity} {key : K} {value : V} {slot : Nat}
    (h : m.insert key value = some (slot, m')) (key' : K) :
    m'.get key' = if key' = key then some value else m.get key' := by
  have hput := Slots.get_putItem ⟨key, value⟩ key' (m.not_mem_keys_remove key) (insert_eq_some h)
  rw [get, hput]
  by_cases hk : key' = key
  · rw [if_pos hk, if_pos hk]
  · rw [if_neg hk, if_neg hk]
    exact Slots.get_removeItem_ne hk m.items

theorem getMut_insert {m m' : SimpleMap K V capacity} {key : K} {value : V} {slot : Nat} (hnew : m.getMut key = none)
    (h : m.insert key value = some (slot, m')) (key' : K) :
    m'.getMut key' = if key' = key then some slot else m.getMut key' := by
  have hput := Slots.slotOf_putItem ⟨key, value⟩ key' (m.not_mem_keys_remove key) (insert_eq_some h)
  have hrem : (m.remove key).2.items = m.items :=
    congrArg Prod.snd (Slots.removeItem_of_not_mem key (getMut_eq_none_iff.1 hnew))
  rw [getMut, hput, hrem]
  rfl

theorem mem_keys_insert {m m' : SimpleMap K V capacity} {key : K} {value : V} {slot : Nat}
    (h : m.insert key value = some (slot, m')) (key' : K) : key' ∈ m'.keys ↔ key' = key ∨ key' ∈ m.keys := by
  have h' := Slots.keys_putItem _ _ (insert_eq_some h)
  show key' ∈ m'.items.keys ↔ _
  rw [h'.mem_iff, List.mem_cons]
  show _ ∨ key' ∈ (m.items.removeItem key).2.keys ↔ _
  rw [Slots.keys_removeItem]
  by_cases hk : key' = key
  · simp [hk]
  · simp [hk, keys]

theorem getMut_injective {m : SimpleMap K V capacity} {key key' : K} {slot : Nat} (h : m.getMut key = some slot)
    (h' : m.getMut key' = some slot) : key = key' := Slots.slotOf_injective h h'

theorem keys_remove (m : SimpleMap K V capacity) (key : K) : (m.remove key).2.keys = m.keys.erase key :=
  Slots.keys_removeItem key m.items

theorem slot_unique (m : SimpleMap K V capacity) {i j : Nat} {item item' : Item K V} (hi : m.items[i]? = some (some item))
    (hj : m.items[j]? = some (some item')) (hkey : item.key = item'.key) : i = j := by
  have hi' := Slots.slotOf_of_getElem m.keys_nodup hi
  rw [hkey, Slots.slotOf_of_getElem m.keys_nodup hj] at hi'
  exact (Option.some.inj hi').symm

@[simp] theorem getMut_updateAt (m : SimpleMap K V capacity) (slot : Nat) (update : V → V) (key : K) :
    (m.updateAt slot update).getMut key = m.getMut key := Slots.slotOf_updateAt key update slot m.items

theorem get_updateAt (m : SimpleMap K V capacity) (slot : Nat) (update : V → V) (key : K) :
    (m.updateAt slot update).get key = if m.getMut key = some slot then (m.get key).map update else m.get key :=
  Slots.get_updateAt key update slot m.items

theorem valueAt_of_getMut {m : SimpleMap K V capacity} {key : K} {slot : Nat} (h : m.getMut key = some slot) :
    m.valueAt slot = m.get key := Slots.valueAt_of_slotOf h

theorem getMut_insert_self {m m' : SimpleMap K V capacity} {key : K} {value : V} {slot : Nat}
    (h : m.insert key value = some (slot, m')) : m'.getMut key = some slot := by
  have hput := Slots.slotOf_putItem ⟨key, value⟩ key (m.not_mem_keys_remove key) (insert_eq_some h)
  rw [getMut, hput]
  exact if_pos rfl

/-- **`insert` panics exactly when its key is new and every slot holds another.** -/
theorem insert_eq_none_iff {m : SimpleMap K V capacity} {key : K} {value : V} :
    m.insert key value = none ↔ key ∉ m.keys ∧ m.keys.length = capacity := by
  have hput := Slots.putItem_eq_none_iff ⟨key, value⟩ (m.remove key).2.items
  have hinsert : m.insert key value = none ↔ (m.remove key).2.items.putItem ⟨key, value⟩ = none := by
    unfold insert
    split <;> simp [*]
  have hle : m.keys.length ≤ capacity := Nat.le_trans (Slots.length_keys_le m.items) (Nat.le_of_eq m.length_eq)
  have herase : (m.remove key).2.items.keys = m.keys.erase key := m.keys_remove key
  rw [hinsert, hput, (m.remove key).2.length_eq, herase]
  by_cases hmem : key ∈ m.keys
  · -- the removal has freed a slot
    have hpos := List.length_pos_of_mem hmem
    rw [List.length_erase_of_mem hmem]
    simp only [hmem, not_true_eq_false, false_and, iff_false]
    omega
  · simp [List.erase_of_not_mem hmem, hmem]

/-- **While the keys in use fit the capacity, `insert` does not panic.** -/
theorem insert_isSome {m : SimpleMap K V capacity} {key : K} {pool : List K} (value : V)
    (h : ∀ k ∈ m.keys, k ∈ pool) (hkey : key ∈ pool) (hcap : pool.length ≤ capacity) :
    ∃ slot m', m.insert key value = some (slot, m') := by
  cases hi : m.insert key value with
  | some r => exact ⟨r.1, r.2, rfl⟩
  | none =>
    exfalso
    -- with the new key, the keys are too many for the pool
    obtain ⟨hnew, hfull⟩ := insert_eq_none_iff.1 hi
    have hsub : ∀ k ∈ key :: m.keys, k ∈ pool := List.forall_mem_cons.2 ⟨hkey, h⟩
    have hle := ((List.nodup_cons.2 ⟨hnew, m.keys_nodup⟩).subperm hsub).length_le
    rw [List.length_cons] at hle
    omega

theorem getMut_mapValues (g : V → W) (m : SimpleMap K V capacity) (key : K) :
    (m.mapValues g).getMut key = m.getMut key := Slots.slotOf_mapValues g key m.items

theorem insert_mapValues (g : V → W) (m : SimpleMap K V capacity) (key : K) (value : V) :
    (m.mapValues g).insert key (g value) = (m.insert key value).map (Prod.map id (mapValues g)) := by
  have hput := Slots.putItem_mapValues g ⟨key, value⟩ (m.remove key).2.items
  have hremove : (m.remove key).2.items.mapValues g = ((m.mapValues g).remove key).2.items :=
    (Slots.removeItem_mapValues g key m.items).symm
  rw [hremove] at hput
  unfold insert
  split
  · rename_i h
    rw [h] at hput
    split
    · rfl
    · rename_i h'
      rw [h'] at hput
      cases hput
  · rename_i h
    rw [h] at hput
    split
    · rename_i h'
      rw [h'] at hput
      cases hput
    · rename_i h'
      rw [h'] at hput
      cases hput
      rfl

end SimpleMap
end Ritm
