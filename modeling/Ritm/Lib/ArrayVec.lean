/-!
# ArrayVec — vectors with a fixed capacity

The bound on the length is part of the value.  A `push` or an `insert` that does not fit panics in the crate, and is
`none` here.
-/
namespace Lib

@[ext]
structure ArrayVec (α : Type) (cap : Nat) where
  items : List α
  length_le : items.length ≤ cap

namespace ArrayVec

variable {α : Type} {cap : Nat}

def new : ArrayVec α cap := ⟨[], Nat.zero_le cap⟩

def push (v : ArrayVec α cap) (a : α) : Option (ArrayVec α cap) :=
  if h : v.items.length < cap then some ⟨v.items ++ [a], by rw [List.length_append, List.length_singleton]; exact h⟩
  else none

def insert (v : ArrayVec α cap) (i : Nat) (a : α) : Option (ArrayVec α cap) :=
  if h : i ≤ v.items.length ∧ v.items.length < cap then
    some ⟨v.items.insertIdx i a, by rw [List.length_insertIdx_of_le_length h.1]; exact h.2⟩
  else none

theorem push_of_lt {v : ArrayVec α cap} (h : v.items.length < cap) (a : α) :
    ∃ w, v.push a = some w ∧ w.items = v.items ++ [a] := by
  unfold push
  rw [dif_pos h]
  exact ⟨_, rfl, rfl⟩

theorem insert_of_lt {v : ArrayVec α cap} {i : Nat} (hi : i ≤ v.items.length) (h : v.items.length < cap) (a : α) :
    ∃ w, v.insert i a = some w ∧ w.items = v.items.insertIdx i a := by
  unfold insert
  rw [dif_pos ⟨hi, h⟩]
  exact ⟨_, rfl, rfl⟩

end ArrayVec
end Lib
