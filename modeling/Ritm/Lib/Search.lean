/-!
# Search — searching and growing ordered slices

`binarySearchBy` is the standard library's loop: it halves a window without an early exit and looks at one element at
the end.  On a slice whose elements compare as less, then equal, then greater, it finds an equal element whenever there
is one (`binarySearchBy_complete`), and what it finds is equal on every slice (`binarySearchBy_sound`).
`partitionPoint` is the same loop over a predicate, and cuts the slice where the predicate stops
(`partitionPoint_spec`); an insertion at that index keeps an order (`pairwise_insertIdx`).
-/
namespace Lib

variable {α : Type}

/-- The window loop of `slice::binary_search_by`, with `fuel` for its iterations. -/
def searchLoop (f : α → Ordering) (l : List α) : Nat → Nat → Nat → Nat
  | 0, _, base => base
  | fuel + 1, size, base =>
    if 1 < size then
      let half := size / 2
      let mid := base + half
      searchLoop f l fuel (size - half) (if l[mid]?.map f = some .gt then base else mid)
    else base

/-- `slice::binary_search_by`: `ok` with the index of an equal element, `error` with an insertion index. -/
def binarySearchBy (f : α → Ordering) (l : List α) : Except Nat Nat :=
  if l.length = 0 then .error 0
  else
    let base := searchLoop f l l.length l.length 0
    match l[base]?.map f with
    | some .eq => .ok base
    | some .lt => .error (base + 1)
    | _ => .error base

def partitionPoint (p : α → Bool) (l : List α) : Nat :=
  match binarySearchBy (fun x => if p x then .lt else .gt) l with
  | .ok i => i
  | .error i => i

/-- **The slice is ordered for the comparison**: less, then equal, then greater. -/
def SearchOrdered (f : α → Ordering) (l : List α) : Prop :=
  l.Pairwise (fun a b => (f a = .gt → f b = .gt) ∧ (f b = .lt → f a = .lt))

theorem SearchOrdered.rel {f : α → Ordering} {l : List α} (hs : SearchOrdered f l) {i j : Nat} (hij : i < j) {a b : α}
    (ha : l[i]? = some a) (hb : l[j]? = some b) : (f a = .gt → f b = .gt) ∧ (f b = .lt → f a = .lt) := by
  obtain ⟨hi, rfl⟩ := List.getElem?_eq_some_iff.1 ha
  obtain ⟨hj, rfl⟩ := List.getElem?_eq_some_iff.1 hb
  exact List.pairwise_iff_getElem.1 hs i j hi hj hij

/-- **Where the window loop stops**: every element after the last window is greater, and the element it stops at is not,
unless it never moved. -/
theorem searchLoop_spec {f : α → Ordering} {l : List α} (hs : SearchOrdered f l) : ∀ (fuel size base : Nat),
    1 ≤ size → size ≤ fuel + 1 → base + size ≤ l.length →
    (base = 0 ∨ ∀ x, l[base]? = some x → f x ≠ .gt) →
    (∀ i, base + size ≤ i → ∀ x, l[i]? = some x → f x = .gt) →
    searchLoop f l fuel size base < l.length ∧
    (searchLoop f l fuel size base = 0 ∨ ∀ x, l[searchLoop f l fuel size base]? = some x → f x ≠ .gt) ∧
    ∀ i, searchLoop f l fuel size base < i → ∀ x, l[i]? = some x → f x = .gt
  | 0, size, base, h1, hf, hlen, hlow, hhigh => by
    refine ⟨?_, hlow, fun i hi x hx => hhigh i ?_ x hx⟩
    · show base < l.length
      omega
    · have hi : base < i := hi
      omega
  | fuel + 1, size, base, h1, hf, hlen, hlow, hhigh => by
    rw [searchLoop]
    split
    · rename_i hsz
      have hmid : base + size / 2 < l.length := by omega
      have hget : l[base + size / 2]? = some (l.get ⟨base + size / 2, hmid⟩) := List.getElem?_eq_getElem hmid
      simp only [hget, Option.map_some, Option.some.injEq]
      split
      · rename_i hgt
        refine searchLoop_spec hs fuel _ _ (by omega) (by omega) (by omega) hlow (fun i hi x hx => ?_)
        by_cases hin : base + size / 2 = i
        · subst hin
          rw [hget, Option.some.injEq] at hx
          rw [← hx, hgt]
        · exact (hs.rel (by omega) hget hx).1 hgt
      · rename_i hgt
        refine searchLoop_spec hs fuel _ _ (by omega) (by omega) (by omega) (Or.inr fun x hx => ?_) (fun i hi x hx => ?_)
        · rw [hget, Option.some.injEq] at hx
          rw [← hx]
          exact hgt
        · exact hhigh i (by omega) x hx
    · refine ⟨by omega, hlow, fun i hi x hx => hhigh i (by omega) x hx⟩

theorem binarySearchBy_stop {f : α → Ordering} {l : List α} (hs : SearchOrdered f l) (hl : l.length ≠ 0) :
    searchLoop f l l.length l.length 0 < l.length ∧
    (searchLoop f l l.length l.length 0 = 0 ∨
      ∀ x, l[searchLoop f l l.length l.length 0]? = some x → f x ≠ .gt) ∧
    ∀ i, searchLoop f l l.length l.length 0 < i → ∀ x, l[i]? = some x → f x = .gt :=
  searchLoop_spec hs l.length l.length 0 (by omega) (by omega) (by omega) (Or.inl rfl) (fun i hi x hx => by
    rw [List.getElem?_eq_none (by omega)] at hx
    cases hx)

theorem binarySearchBy_sound {f : α → Ordering} {l : List α} {i : Nat} (h : binarySearchBy f l = .ok i) :
    ∃ x, l[i]? = some x ∧ f x = .eq := by
  unfold binarySearchBy at h
  split at h
  · cases h
  · simp only at h
    split at h
    · rename_i hx
      obtain ⟨x, hx, hfx⟩ := Option.map_eq_some_iff.1 hx
      cases h
      exact ⟨x, hx, hfx⟩
    · cases h
    · cases h

theorem binarySearchBy_complete {f : α → Ordering} {l : List α} (hs : SearchOrdered f l) {x : α} (hx : x ∈ l)
    (hfx : f x = .eq) : ∃ i, binarySearchBy f l = .ok i := by
  have hl : l.length ≠ 0 := fun h => by
    rw [List.length_eq_zero_iff.1 h] at hx
    cases hx
  obtain ⟨hlt, hlow, hhigh⟩ := binarySearchBy_stop hs hl
  unfold binarySearchBy
  rw [if_neg hl]
  generalize searchLoop f l l.length l.length 0 = base at hlt hlow hhigh
  obtain ⟨j, hj⟩ := List.getElem?_of_mem hx
  have hget : l[base]? = some (l.get ⟨base, hlt⟩) := List.getElem?_eq_getElem hlt
  -- the equal element is not after the window, and if it is before, the element looked at is neither less nor greater
  have hjb : j ≤ base := Nat.le_of_not_lt fun h => by
    have := hhigh j h x hj
    rw [hfx] at this
    cases this
  have heq : f (l.get ⟨base, hlt⟩) = .eq := by
    by_cases hjb' : j = base
    · subst hjb'
      rw [hj, Option.some.injEq] at hget
      rw [← hget, hfx]
    · have hrel := (hs.rel (by omega) hj hget).2
      have hngt : f (l.get ⟨base, hlt⟩) ≠ .gt := hlow.resolve_left (by omega) _ hget
      cases hc : f (l.get ⟨base, hlt⟩) with
      | lt =>
        have := hrel hc
        rw [hfx] at this
        cases this
      | eq => rfl
      | gt => exact absurd hc hngt
  exact ⟨base, by simp only [hget, Option.map_some, heq]⟩

/-- **Where the predicate stops**: on a slice that the predicate splits into a prefix and a rest, every element before
the partition point satisfies it and none after does. -/
theorem partitionPoint_spec {p : α → Bool} {l : List α} (hp : l.Pairwise (fun a b => p b = true → p a = true)) :
    partitionPoint p l ≤ l.length ∧ (∀ x ∈ l.take (partitionPoint p l), p x = true) ∧
    ∀ x ∈ l.drop (partitionPoint p l), p x = false := by
  by_cases hl : l.length = 0
  · rw [List.length_eq_zero_iff.1 hl]
    exact ⟨Nat.le_refl 0, by simp, by simp⟩
  have hs : SearchOrdered (fun x => if p x then .lt else .gt) l := by
    refine hp.imp (fun {a b} hab => ?_)
    cases ha : p a <;> cases hb : p b <;> simp_all
  obtain ⟨hlt, hlow, hhigh⟩ := binarySearchBy_stop hs hl
  unfold partitionPoint binarySearchBy
  rw [if_neg hl]
  simp only
  generalize searchLoop (fun x => if p x then Ordering.lt else .gt) l l.length l.length 0 = base at hlt hlow hhigh
  have hget : l[base]? = some (l.get ⟨base, hlt⟩) := List.getElem?_eq_getElem hlt
  have hafter : ∀ i x, base < i → l[i]? = some x → p x = false := fun i x hi hx => by
    have := hhigh i hi x hx
    cases hpx : p x with
    | true => rw [hpx] at this; cases this
    | false => rfl
  rw [hget, Option.map_some]
  cases hpb : p (l.get ⟨base, hlt⟩) with
  | true =>
    simp only [if_true]
    refine ⟨hlt, fun x hx => ?_, fun x hx => ?_⟩
    · obtain ⟨i, hi, rfl⟩ := List.mem_take_iff_getElem.1 hx
      by_cases hib : i = base
      · subst hib
        exact hpb
      · exact List.pairwise_iff_getElem.1 hp i base (by omega) hlt (by omega) hpb
    · obtain ⟨i, hi, rfl⟩ := List.mem_drop_iff_getElem.1 hx
      exact hafter (base + 1 + i) _ (by omega) (List.getElem?_eq_getElem _)
  | false =>
    simp only [Bool.false_eq_true, if_false]
    -- the loop stops at an element that fails the predicate only if it never moved
    have hb0 : base = 0 := hlow.resolve_right fun h => by
      have := h _ hget
      rw [hpb] at this
      exact this rfl
    subst hb0
    refine ⟨by omega, by simp, fun x hx => ?_⟩
    obtain ⟨i, hi, rfl⟩ := List.mem_drop_iff_getElem.1 hx
    by_cases hi0 : i = 0
    · subst hi0
      exact hpb
    · exact hafter (0 + i) _ (by omega) (List.getElem?_eq_getElem _)

theorem insertIdx_eq_take_drop (x : α) : ∀ (l : List α) (n : Nat), n ≤ l.length →
    l.insertIdx n x = l.take n ++ x :: l.drop n
  | _, 0, _ => by simp
  | [], n + 1, h => by simp at h
  | a :: l, n + 1, h => by
    rw [List.insertIdx_succ_cons, insertIdx_eq_take_drop x l n (by simpa using h)]
    simp

theorem pairwise_insertIdx {R : α → α → Prop} {l : List α} {n : Nat} {x : α} (hl : l.Pairwise R) (hn : n ≤ l.length)
    (hbefore : ∀ y ∈ l.take n, R y x) (hafter : ∀ y ∈ l.drop n, R x y) : (l.insertIdx n x).Pairwise R := by
  rw [insertIdx_eq_take_drop x l n hn, List.pairwise_append]
  rw [← List.take_append_drop n l, List.pairwise_append] at hl
  obtain ⟨ht, hd, htd⟩ := hl
  refine ⟨ht, List.pairwise_cons.2 ⟨hafter, hd⟩, fun a ha b hb => ?_⟩
  rcases List.mem_cons.1 hb with rfl | hb
  · exact hbefore a ha
  · exact htd a ha b hb

end Lib
