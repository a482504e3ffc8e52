import Ritm.Stage2
/-!
# Stage2Policy — what every sequence of builder calls keeps

One lemma says what a call can do (`allowRange_cases`, `handleRange_cases`); the policy invariant follows from it for
one call (`apply_inv`) and by induction for every sequence of calls, failed ones included (`applyAll_inv`).  On an
ordered registry the binary search finds exactly the region an IPA lies in (`find_eq_some_iff`).
-/
namespace Ritm

open Lib (ArrayVec partitionPoint binarySearchBy SearchOrdered)

variable {σ : Type}

/-! ## Ranges -/

def ValidRange (baseIpa size : U64) : Prop :=
  baseIpa.toNat % pageSize = 0 ∧ 0 < size.toNat ∧ size.toNat % pageSize = 0 ∧ baseIpa.toNat + size.toNat < 2 ^ 64

theorem ValidRange.toNat_end {baseIpa size : U64} (h : ValidRange baseIpa size) :
    (baseIpa + size).toNat = baseIpa.toNat + size.toNat := by
  rw [BitVec.toNat_add, Nat.mod_eq_of_lt h.2.2.2]

namespace Stage2Range

def Disjoint (r s : Stage2Range) : Prop :=
  r.endIpa.toNat ≤ s.baseIpa.toNat ∨ s.endIpa.toNat ≤ r.baseIpa.toNat

theorem Disjoint.symm {r s : Stage2Range} (h : r.Disjoint s) : s.Disjoint r := Or.symm h

theorem base_lt_end (r : Stage2Range) : r.baseIpa.toNat < r.endIpa.toNat := by
  have := r.end_eq
  have := r.size_pos
  omega

theorem Disjoint.not_contains {r s : Stage2Range} (h : r.Disjoint s) {ipa : U64} (hr : r.Contains ipa) :
    ¬ s.Contains ipa := by
  intro hs
  unfold Disjoint at h
  unfold Contains at hr hs
  omega

theorem validRange (r : Stage2Range) : ValidRange r.baseIpa r.size :=
  ⟨r.base_aligned, r.size_pos, r.size_pages, by rw [← r.end_eq]; exact r.endIpa.isLt⟩

theorem new_ok {baseIpa size : U64} {r : Stage2Range}
    (h : new baseIpa size = .ok r) :
    r.baseIpa = baseIpa ∧ r.size = size := by
  unfold new at h
  split at h
  · cases h
  · split at h
    · cases h
    · cases h
      exact ⟨rfl, rfl⟩

theorem endIpa_eq {baseIpa size : U64} {r : Stage2Range} (h : new baseIpa size = .ok r) : r.endIpa = baseIpa + size := by
  have hend := r.end_eq
  obtain ⟨rfl, rfl⟩ := new_ok h
  refine BitVec.eq_of_toNat_eq ?_
  rw [hend, r.validRange.toNat_end]

/-- **A range is accepted exactly when it is page aligned, a non-zero number of pages, and ends below 2⁶⁴.** -/
theorem new_ok_iff (baseIpa size : U64) :
    (∃ r, new baseIpa size = .ok r) ↔ ValidRange baseIpa size := by
  constructor
  · rintro ⟨r, h⟩
    obtain ⟨rfl, rfl⟩ := new_ok h
    exact r.validRange
  · rintro ⟨hb, hp, hs, hlt⟩
    have hz : ¬ size = 0 := fun h0 => by
      rw [h0] at hp
      exact absurd hp (by decide)
    have he : checkedRangeEnd baseIpa size = .ok (baseIpa + size) := by
      unfold checkedRangeEnd
      rw [if_pos hlt]
    have hv : validateRange baseIpa size = .ok () := by
      unfold validateRange
      rw [if_neg (by omega), if_neg hz, if_neg (by omega), he]
    unfold new
    split
    · rename_i hv'
      rw [hv] at hv'
      cases hv'
    · split
      · rename_i he'
        rw [he] at he'
        cases he'
      · exact ⟨_, rfl⟩

end Stage2Range

/-- **The overlap test is right and symmetric on non-empty ranges**, though it looks at one end only. -/
theorem pageRangesOverlap_eq_false_iff (r s : Stage2Range) :
    pageRangesOverlap r.baseIpa r.endIpa s.baseIpa s.endIpa = false ↔ r.Disjoint s := by
  have hr := r.base_lt_end
  have hs := s.base_lt_end
  unfold pageRangesOverlap Stage2Range.Disjoint
  split
  · rename_i heq
    split at heq
    · rename_i hle
      cases heq
      rw [BitVec.le_def] at hle
      rw [decide_eq_false_iff_not, BitVec.lt_def]
      omega
    · rename_i hle
      cases heq
      rw [BitVec.le_def] at hle
      rw [decide_eq_false_iff_not, BitVec.lt_def]
      omega

theorem any_overlap_eq_false_iff {α : Type} (l : List α) (f : α → Bool) (P : α → Prop)
    (hf : ∀ a, f a = false ↔ P a) : l.any f = false ↔ ∀ a ∈ l, P a := by
  rw [List.any_eq_false]
  exact forall₂_congr fun a _ => by rw [Bool.not_eq_true, hf]

/-! ## The registry -/

namespace MemoryAccessRegion

@[simp] theorem endIpaOf_eq (region : MemoryAccessRegion σ) : region.endIpaOf = region.endIpa := by
  have hlt := region.toStage2Range.validRange.2.2.2
  unfold endIpaOf checkedRangeEnd
  rw [if_pos hlt]
  apply BitVec.eq_of_toNat_eq
  rw [BitVec.toNat_add, Nat.mod_eq_of_lt hlt, region.end_eq]

end MemoryAccessRegion

namespace MemoryAccessHandlerRegistry

/-- **The regions are in increasing order and no two overlap**: each ends at or before the next begins. -/
def Ordered (self : MemoryAccessHandlerRegistry σ) : Prop :=
  self.regions.items.Pairwise (fun a b => a.endIpa.toNat ≤ b.baseIpa.toNat)

theorem ordered_new : (new : MemoryAccessHandlerRegistry σ).Ordered := List.Pairwise.nil

theorem compareIpa_eq_iff (ipa : U64) (region : MemoryAccessRegion σ) :
    compareIpa ipa region = .eq ↔ region.Contains ipa := by
  unfold compareIpa Stage2Range.Contains
  simp only [MemoryAccessRegion.endIpaOf_eq, BitVec.lt_def, BitVec.le_def]
  split
  · simp only [reduceCtorEq, false_iff]
    omega
  · split
    · simp only [reduceCtorEq, false_iff]
      omega
    · simp only [true_iff]
      omega

theorem Ordered.searchOrdered {self : MemoryAccessHandlerRegistry σ} (h : self.Ordered) (ipa : U64) :
    SearchOrdered (compareIpa ipa) self.regions.items := by
  refine h.imp (fun {a b} hab => ?_)
  have ha := a.base_lt_end
  have hb := b.base_lt_end
  unfold compareIpa
  simp only [MemoryAccessRegion.endIpaOf_eq, BitVec.lt_def, BitVec.le_def]
  constructor
  · intro hgt
    split at hgt
    · rw [if_pos (by omega)]
    · split at hgt <;> cases hgt
  · intro hlt
    split at hlt
    · cases hlt
    · split at hlt
      · rw [if_neg (by omega), if_pos (by omega)]
      · cases hlt

theorem Ordered.unique {self : MemoryAccessHandlerRegistry σ} (h : self.Ordered) {a b : MemoryAccessRegion σ} {ipa : U64}
    (ha : a ∈ self.regions.items) (hb : b ∈ self.regions.items) (hai : a.Contains ipa) (hbi : b.Contains ipa) : a = b := by
  obtain ⟨i, hi, rfl⟩ := List.getElem_of_mem ha
  obtain ⟨j, hj, rfl⟩ := List.getElem_of_mem hb
  unfold Stage2Range.Contains at hai hbi
  rcases Nat.lt_trichotomy i j with hij | hij | hij
  · have := List.pairwise_iff_getElem.1 h i j hi hj hij
    omega
  · subst hij
    rfl
  · have := List.pairwise_iff_getElem.1 h j i hj hi hij
    omega

/-- **The lookup is exact**: the region the IPA lies in, with the IPA's offset in it. -/
theorem find_eq_some_iff {self : MemoryAccessHandlerRegistry σ} (h : self.Ordered) (ipa : U64)
    (m : MemoryAccessHandlerMatch σ) :
    self.find ipa = some m ↔ m.region ∈ self.regions.items ∧ m.region.Contains ipa ∧ m.offset = m.region.offsetOf ipa := by
  unfold find
  constructor
  · intro hm
    split at hm
    · cases hm
    rename_i index hidx
    obtain ⟨x, hx, hcmp⟩ := Lib.binarySearchBy_sound hidx
    rw [hx] at hm
    cases hm
    exact ⟨List.mem_of_getElem? hx, (compareIpa_eq_iff ipa x).1 hcmp, rfl⟩
  · rintro ⟨hmem, hin, hoff⟩
    obtain ⟨index, hidx⟩ := Lib.binarySearchBy_complete (h.searchOrdered ipa) hmem ((compareIpa_eq_iff ipa _).2 hin)
    obtain ⟨x, hx, hcmp⟩ := Lib.binarySearchBy_sound hidx
    have hxm : x = m.region := h.unique (List.mem_of_getElem? hx) hmem ((compareIpa_eq_iff ipa x).1 hcmp) hin
    rw [hidx]
    simp only [hx, hxm, ← hoff]

theorem find_eq_none_iff {self : MemoryAccessHandlerRegistry σ} (h : self.Ordered) (ipa : U64) :
    self.find ipa = none ↔ ∀ region ∈ self.regions.items, ¬ region.Contains ipa := by
  rw [Option.eq_none_iff_forall_not_mem]
  constructor
  · intro hn region hmem hin
    exact hn ⟨region, region.offsetOf ipa⟩ ((find_eq_some_iff h ipa _).2 ⟨hmem, hin, rfl⟩)
  · intro hn m hm
    obtain ⟨hmem, hin, -⟩ := (find_eq_some_iff h ipa m).1 hm
    exact hn m.region hmem hin

theorem Ordered.base_lt {self : MemoryAccessHandlerRegistry σ} (h : self.Ordered) :
    self.regions.items.Pairwise (fun a b => a.baseIpa.toNat < b.baseIpa.toNat) :=
  h.imp fun {a b} hab => by
    have := a.base_lt_end
    omega

/-- **What `register` can do**: refuse and leave the registry alone, or insert a region disjoint from all others. -/
theorem register_cases {self : MemoryAccessHandlerRegistry σ} (h : self.Ordered) (region : MemoryAccessRegion σ) :
    (maxMemoryAccessHandlers ≤ self.regions.items.length ∧
      self.register region =
        some (.error .tooManyMemoryAccessHandlerRegions, self)) ∨
    ((∃ g ∈ self.regions.items, ¬ region.Disjoint g.toStage2Range) ∧
      self.register region =
        some (.error .memoryAccessHandlerRangeOverlap, self)) ∨
    (self.regions.items.length < maxMemoryAccessHandlers ∧
      (∀ g ∈ self.regions.items, region.Disjoint g.toStage2Range) ∧
      ∃ self', self.register region = some (.ok (), self') ∧
        self'.Ordered ∧ self'.regions.items.Perm (region :: self.regions.items)) := by
  unfold register
  by_cases hfull : maxMemoryAccessHandlers ≤ self.regions.items.length
  · exact Or.inl ⟨hfull, if_pos hfull⟩
  rw [if_neg hfull]
  have hany := any_overlap_eq_false_iff self.regions.items
    (fun existing => pageRangesOverlap region.baseIpa region.endIpa existing.baseIpa existing.endIpa) _
    (fun g => pageRangesOverlap_eq_false_iff region.toStage2Range g.toStage2Range)
  by_cases hover : self.regions.items.any (fun existing =>
      pageRangesOverlap region.baseIpa region.endIpa existing.baseIpa existing.endIpa) = true
  · refine Or.inr (Or.inl ⟨?_, if_pos hover⟩)
    have hne : ¬ ∀ g ∈ self.regions.items, region.Disjoint g.toStage2Range := fun hall => by
      rw [hany.2 hall] at hover
      cases hover
    simpa using hne
  have hdis := hany.1 (by simpa using hover)
  refine Or.inr (Or.inr ⟨by omega, hdis, ?_⟩)
  rw [if_neg hover]
  -- the regions that begin before the new one are a prefix, since the registry is ordered
  obtain ⟨hle, hbefore, hafter⟩ := Lib.partitionPoint_spec
    (p := fun existing : MemoryAccessRegion σ => decide (existing.baseIpa < region.baseIpa)) (l := self.regions.items)
    (h.base_lt.imp fun {a b} hab hb => by
      simp only [decide_eq_true_eq, BitVec.lt_def] at hb ⊢
      omega)
  simp only
  generalize partitionPoint (fun existing => decide (existing.baseIpa < region.baseIpa)) self.regions.items = n
    at hle hbefore hafter ⊢
  obtain ⟨w, hw, hitems⟩ := ArrayVec.insert_of_lt hle (by omega) region
  rw [hw]
  refine ⟨⟨w⟩, rfl, ?_, ?_⟩
  · unfold Ordered
    rw [hitems]
    refine Lib.pairwise_insertIdx h hle (fun g hg => ?_) (fun g hg => ?_)
    · have hlt := hbefore g hg
      have hd := hdis g (List.mem_of_mem_take hg)
      have hb := region.base_lt_end
      simp only [decide_eq_true_eq, BitVec.lt_def] at hlt
      unfold Stage2Range.Disjoint at hd
      omega
    · have hlt := hafter g hg
      have hd := hdis g (List.mem_of_mem_drop hg)
      have hb := g.base_lt_end
      simp only [decide_eq_false_iff_not, BitVec.lt_def] at hlt
      unfold Stage2Range.Disjoint at hd
      omega
  · show w.items.Perm _
    rw [hitems]
    exact List.perm_insertIdx region self.regions.items hle

end MemoryAccessHandlerRegistry

/-! ## The builder's checks -/

namespace Stage2Builder

variable {M : Type}

theorem checkAllowedRangeCapacity_ok {b : Stage2Builder M σ} :
    b.checkAllowedRangeCapacity = .ok () ↔ b.allowedRanges.items.length < maxAllowedRanges := by
  unfold checkAllowedRangeCapacity
  split
  · simp only [reduceCtorEq, false_iff]
    omega
  · simp only [true_iff]
    omega

theorem checkNoAllowedOverlap_ok {b : Stage2Builder M σ} {range : Stage2Range} :
    b.checkNoAllowedOverlap range = .ok () ↔ ∀ r ∈ b.allowedRanges.items, range.Disjoint r := by
  rw [← any_overlap_eq_false_iff b.allowedRanges.items (fun existing => range.overlaps existing) _
    (fun r => pageRangesOverlap_eq_false_iff range r)]
  unfold checkNoAllowedOverlap
  cases b.allowedRanges.items.any (fun existing => range.overlaps existing) <;> simp

theorem checkNoRegisteredOverlap_ok {b : Stage2Builder M σ} {range : Stage2Range} :
    b.checkNoRegisteredOverlap range = .ok () ↔
      ∀ g ∈ b.memoryAccessHandlers.regions.items, g.Disjoint range := by
  rw [← any_overlap_eq_false_iff b.memoryAccessHandlers.regions.items (fun region => region.overlapsRange range) _
    (fun g => pageRangesOverlap_eq_false_iff g.toStage2Range range)]
  unfold checkNoRegisteredOverlap
  cases b.memoryAccessHandlers.regions.items.any (fun region => region.overlapsRange range) <;> simp

theorem bind_unit_ok {α β : Type} {x : Except α Unit} {f : Unit → Except α β} {b : β} :
    (x >>= f) = .ok b ↔ x = .ok () ∧ f () = .ok b := by
  cases x <;> simp [bind, Except.bind]

theorem bind_ok {α β γ : Type} {x : Except α γ} {f : γ → Except α β} {b : β} :
    (x >>= f) = .ok b ↔ ∃ a, x = .ok a ∧ f a = .ok b := by
  cases x <;> simp [bind, Except.bind]

/-- **When `allow_range` gets as far as the page table**: the range is valid, there is room, and it meets no stored
range. -/
theorem checkAllow_ok {b : Stage2Builder M σ} {baseIpa size : U64} {range : Stage2Range} :
    b.checkAllow baseIpa size = .ok range ↔
      Stage2Range.new baseIpa size = .ok range ∧
      b.allowedRanges.items.length < maxAllowedRanges ∧ (∀ r ∈ b.allowedRanges.items, range.Disjoint r) ∧
      ∀ g ∈ b.memoryAccessHandlers.regions.items, g.Disjoint range := by
  unfold checkAllow
  rw [bind_ok]
  constructor
  · rintro ⟨r, hnew, h⟩
    rw [bind_unit_ok, bind_unit_ok, bind_unit_ok] at h
    obtain ⟨hcap, hall, hreg, hr⟩ := h
    cases hr
    exact ⟨hnew, checkAllowedRangeCapacity_ok.1 hcap, checkNoAllowedOverlap_ok.1 hall, checkNoRegisteredOverlap_ok.1 hreg⟩
  · rintro ⟨hnew, hcap, hall, hreg⟩
    refine ⟨range, hnew, ?_⟩
    rw [checkAllowedRangeCapacity_ok.2 hcap, checkNoAllowedOverlap_ok.2 hall, checkNoRegisteredOverlap_ok.2 hreg]
    rfl

theorem checkHandle_ok {b : Stage2Builder M σ} {baseIpa size : U64} {range : Stage2Range} :
    b.checkHandle baseIpa size = .ok range ↔
      Stage2Range.new baseIpa size = .ok range ∧
      ∀ r ∈ b.allowedRanges.items, range.Disjoint r := by
  unfold checkHandle
  rw [bind_ok]
  constructor
  · rintro ⟨r, hnew, h⟩
    rw [bind_unit_ok] at h
    obtain ⟨hall, hr⟩ := h
    cases hr
    exact ⟨hnew, checkNoAllowedOverlap_ok.1 hall⟩
  · rintro ⟨hnew, hall⟩
    refine ⟨range, hnew, ?_⟩
    rw [checkNoAllowedOverlap_ok.2 hall]
    rfl

/-! ## What a call can do -/

/-- **What `handle_range` can do**: fail and leave the builder alone, or insert the region in its place. -/
theorem handleRange_cases (b : Stage2Builder M σ) (h : b.memoryAccessHandlers.Ordered) (baseIpa size : U64)
    (handler : MemoryAccessHandler σ) :
    (∃ e, b.checkHandle baseIpa size = .error e ∧ b.handleRange baseIpa size handler = some (.error e, b)) ∨
    ∃ range, b.checkHandle baseIpa size = .ok range ∧
      ((maxMemoryAccessHandlers ≤ b.memoryAccessHandlers.regions.items.length ∧
          b.handleRange baseIpa size handler = some (.error .tooManyMemoryAccessHandlerRegions, b)) ∨
        ((∃ g ∈ b.memoryAccessHandlers.regions.items, ¬ range.Disjoint g.toStage2Range) ∧
          b.handleRange baseIpa size handler = some (.error .memoryAccessHandlerRangeOverlap, b)) ∨
        (b.memoryAccessHandlers.regions.items.length < maxMemoryAccessHandlers ∧
          (∀ g ∈ b.memoryAccessHandlers.regions.items, range.Disjoint g.toStage2Range) ∧
          ∃ registry, registry.Ordered ∧
            registry.regions.items.Perm (.new range handler :: b.memoryAccessHandlers.regions.items) ∧
            b.handleRange baseIpa size handler = some (.ok (), { b with memoryAccessHandlers := registry }))) := by
  unfold handleRange
  cases hc : b.checkHandle baseIpa size with
  | error e => exact Or.inl ⟨e, rfl, rfl⟩
  | ok range =>
    refine Or.inr ⟨range, rfl, ?_⟩
    simp only
    obtain ⟨hfull, hr⟩ | ⟨hover, hr⟩ | ⟨hroom, hdis, registry, hr, hord, hperm⟩ :=
      MemoryAccessHandlerRegistry.register_cases h (.new range handler)
    · exact Or.inl ⟨hfull, by rw [hr]⟩
    · exact Or.inr (Or.inl ⟨hover, by rw [hr]⟩)
    · exact Or.inr (Or.inr ⟨hroom, hdis, registry, hord, hperm, by rw [hr]⟩)

theorem handleRange_ok {b b' : Stage2Builder M σ} (hord : b.memoryAccessHandlers.Ordered) {baseIpa size : U64}
    {handler : MemoryAccessHandler σ} (h : b.handleRange baseIpa size handler = some (.ok (), b')) :
    ∃ range registry, b.checkHandle baseIpa size = .ok range ∧
      b.memoryAccessHandlers.regions.items.length < maxMemoryAccessHandlers ∧
      (∀ g ∈ b.memoryAccessHandlers.regions.items, range.Disjoint g.toStage2Range) ∧ registry.Ordered ∧
      registry.regions.items.Perm (.new range handler :: b.memoryAccessHandlers.regions.items) ∧
      b' = { b with memoryAccessHandlers := registry } := by
  obtain ⟨e, -, hr⟩ | ⟨range, hc, ⟨-, hr⟩ | ⟨-, hr⟩ | ⟨hroom, hdis, registry, hord', hperm, hr⟩⟩ :=
    b.handleRange_cases hord baseIpa size handler
  · rw [h] at hr
    cases hr
  · rw [h] at hr
    cases hr
  · rw [h] at hr
    cases hr
  · rw [h] at hr
    cases hr
    exact ⟨range, registry, hc, hroom, hdis, hord', hperm, rfl⟩

theorem handleRange_of_disjoint {b : Stage2Builder M σ} (hord : b.memoryAccessHandlers.Ordered) {baseIpa size : U64}
    (handler : MemoryAccessHandler σ) {range : Stage2Range} (hc : b.checkHandle baseIpa size = .ok range)
    (hroom : b.memoryAccessHandlers.regions.items.length < maxMemoryAccessHandlers)
    (hdis : ∀ g ∈ b.memoryAccessHandlers.regions.items, range.Disjoint g.toStage2Range) :
    ∃ b', b.handleRange baseIpa size handler = some (.ok (), b') := by
  obtain ⟨e, hc', -⟩ | ⟨range', hc', ⟨hfull, -⟩ | ⟨⟨g, hg, hnd⟩, -⟩ | ⟨-, -, registry, -, -, hr⟩⟩ :=
    b.handleRange_cases hord baseIpa size handler
  · rw [hc] at hc'
    cases hc'
  · omega
  · rw [hc] at hc'
    cases hc'
    exact absurd (hdis g hg) hnd
  · exact ⟨_, hr⟩

variable [IdMap M]

/-- **What `allow_range` can do**: fail before the page table and leave the builder alone; fail in the page table and
leave the ranges alone; or map the range and store it. -/
theorem allowRange_cases (b : Stage2Builder M σ) (baseIpa size : U64) (attributes : Stage2Attributes) :
    (∃ e, b.checkAllow baseIpa size = .error e ∧ b.allowRange baseIpa size attributes = some (.error e, b)) ∨
    ∃ range, b.checkAllow baseIpa size = .ok range ∧
      ((∃ e m, IdMap.mapRange b.idmap ⟨baseIpa, range.endIpa⟩ attributes = (.error e, m) ∧
          b.allowRange baseIpa size attributes = some (.error (.mapRange e), { b with idmap := m })) ∨
        ∃ m allowed, IdMap.mapRange b.idmap ⟨baseIpa, range.endIpa⟩ attributes = (.ok (), m) ∧
          allowed.items = b.allowedRanges.items ++ [range] ∧
          b.allowRange baseIpa size attributes = some (.ok (), { b with idmap := m, allowedRanges := allowed })) := by
  unfold allowRange
  cases hc : b.checkAllow baseIpa size with
  | error e => exact Or.inl ⟨e, rfl, rfl⟩
  | ok range =>
    refine Or.inr ⟨range, rfl, ?_⟩
    simp only
    cases hm : IdMap.mapRange b.idmap ⟨baseIpa, range.endIpa⟩ attributes with
    | mk result m =>
      cases result with
      | error e => exact Or.inl ⟨e, m, rfl, rfl⟩
      | ok u =>
        obtain ⟨allowed, hpush, hitems⟩ := ArrayVec.push_of_lt (checkAllow_ok.1 hc).2.1 range
        refine Or.inr ⟨m, allowed, rfl, hitems, ?_⟩
        simp only [trackAllowedRange, hpush]

theorem allowRange_ok {b b' : Stage2Builder M σ} {baseIpa size : U64} {attributes : Stage2Attributes}
    (h : b.allowRange baseIpa size attributes = some (.ok (), b')) :
    ∃ range m allowed, b.checkAllow baseIpa size = .ok range ∧
      IdMap.mapRange b.idmap ⟨baseIpa, range.endIpa⟩ attributes = (.ok (), m) ∧
      allowed.items = b.allowedRanges.items ++ [range] ∧ b' = { b with idmap := m, allowedRanges := allowed } := by
  obtain ⟨e, -, hr⟩ | ⟨range, hc, ⟨e, m, hm, hr⟩ | ⟨m, allowed, hm, hitems, hr⟩⟩ :=
    b.allowRange_cases baseIpa size attributes
  · rw [h] at hr
    cases hr
  · rw [h] at hr
    cases hr
  · rw [h] at hr
    cases hr
    exact ⟨range, m, allowed, hc, hm, hitems, rfl⟩

theorem allowRange_of_mapRange_ok {b : Stage2Builder M σ} {baseIpa size : U64} {attributes : Stage2Attributes}
    {range : Stage2Range} (hc : b.checkAllow baseIpa size = .ok range)
    (hm : (IdMap.mapRange b.idmap ⟨baseIpa, range.endIpa⟩ attributes).1 = .ok ()) :
    ∃ b', b.allowRange baseIpa size attributes = some (.ok (), b') := by
  obtain ⟨e, hc', -⟩ | ⟨range', hc', ⟨e, m, hm', -⟩ | ⟨m, allowed, -, -, hr⟩⟩ :=
    b.allowRange_cases baseIpa size attributes
  · rw [hc] at hc'
    cases hc'
  · rw [hc] at hc'
    cases hc'
    rw [hm'] at hm
    cases hm
  · exact ⟨_, hr⟩

/-! ## The policy, over every sequence of calls -/

/-- **The invariant of the builder**: the regions are ordered, the allowed ranges disjoint from each other and from the
regions. -/
structure Inv (b : Stage2Builder M σ) : Prop where
  ordered : b.memoryAccessHandlers.Ordered
  allowed_disjoint : b.allowedRanges.items.Pairwise Stage2Range.Disjoint
  separate : ∀ r ∈ b.allowedRanges.items, ∀ g ∈ b.memoryAccessHandlers.regions.items, r.Disjoint g.toStage2Range

/-- And the table maps the union of the allowed ranges. -/
def MapsAllowed (b : Stage2Builder M σ) : Prop :=
  ∀ ipa, (IdMap.lookup b.idmap ipa).isSome ↔ ∃ r ∈ b.allowedRanges.items, r.Contains ipa

end Stage2Builder

inductive Stage2Request (σ : Type) where
  | allowRange (baseIpa size : U64) (attributes : Stage2Attributes)
  | handleRange (baseIpa size : U64) (handler : MemoryAccessHandler σ)

/-- The table maps pages with the attributes of the call. -/
def Stage2Request.Maps (M : Type) [IdMap M] : Stage2Request σ → Prop
  | .allowRange _ _ attributes => IdMap.Maps M attributes
  | .handleRange .. => True

namespace Stage2Builder

variable {M : Type} [IdMap M]

def apply (b : Stage2Builder M σ) :
    Stage2Request σ → Option (Except Stage2ConfigError Unit × Stage2Builder M σ)
  | .allowRange baseIpa size attributes => b.allowRange baseIpa size attributes
  | .handleRange baseIpa size handler => b.handleRange baseIpa size handler

def applyAll : Stage2Builder M σ → List (Stage2Request σ) →
    Option (List (Except Stage2ConfigError Unit) × Stage2Builder M σ)
  | b, [] => some ([], b)
  | b, req :: reqs =>
    match b.apply req with
    | none => none
    | some (result, b') => (applyAll b' reqs).map (fun x => (result :: x.1, x.2))

omit [IdMap M] in
theorem Inv.of_register {b : Stage2Builder M σ} (h : b.Inv) {baseIpa size : U64} {range : Stage2Range}
    {handler : MemoryAccessHandler σ} {registry : MemoryAccessHandlerRegistry σ}
    (hc : b.checkHandle baseIpa size = .ok range) (hord : registry.Ordered)
    (hperm : registry.regions.items.Perm (.new range handler :: b.memoryAccessHandlers.regions.items)) :
    Inv { b with memoryAccessHandlers := registry } where
  ordered := hord
  allowed_disjoint := h.allowed_disjoint
  separate r hr g hg := by
    rcases List.mem_cons.1 (hperm.mem_iff.1 hg) with rfl | hg
    · exact ((checkHandle_ok.1 hc).2 r hr).symm
    · exact h.separate r hr g hg

/-- **The policy a builder stands for is consistent**: every stored range is valid, no two of them meet, and the handler
regions are in order. -/
structure Consistent (b : Stage2Builder M σ) : Prop where
  allowed_valid : ∀ r ∈ b.allowedRanges.items,
    ValidRange r.baseIpa r.size ∧ r.endIpa.toNat = r.baseIpa.toNat + r.size.toNat
  regions_valid : ∀ g ∈ b.memoryAccessHandlers.regions.items,
    ValidRange g.baseIpa g.size ∧ g.endIpa.toNat = g.baseIpa.toNat + g.size.toNat
  allowed_disjoint : b.allowedRanges.items.Pairwise Stage2Range.Disjoint
  regions_disjoint : b.memoryAccessHandlers.regions.items.Pairwise (fun g g' => g.Disjoint g'.toStage2Range)
  regions_increasing : b.memoryAccessHandlers.regions.items.Pairwise (fun g g' => g.baseIpa.toNat < g'.baseIpa.toNat)
  separate : ∀ r ∈ b.allowedRanges.items, ∀ g ∈ b.memoryAccessHandlers.regions.items, r.Disjoint g.toStage2Range
  allowed_length : b.allowedRanges.items.length ≤ 32
  regions_length : b.memoryAccessHandlers.regions.items.length ≤ 16

/-- **And its table agrees**: it maps the allowed ranges and nothing else, so that no IPA is both mapped and handled. -/
structure Enforced (b : Stage2Builder M σ) : Prop where
  mapped_iff : ∀ ipa, (IdMap.lookup b.idmap ipa).isSome ↔ ∃ r ∈ b.allowedRanges.items, r.Contains ipa
  not_both : ∀ ipa, (IdMap.lookup b.idmap ipa).isSome → b.memoryAccessHandlers.find ipa = none

omit [IdMap M] in
theorem Inv.consistent {b : Stage2Builder M σ} (h : b.Inv) : b.Consistent where
  allowed_valid r _ := ⟨r.validRange, r.end_eq⟩
  regions_valid g _ := ⟨g.toStage2Range.validRange, g.end_eq⟩
  allowed_disjoint := h.allowed_disjoint
  regions_disjoint := h.ordered.imp fun hab => Or.inl hab
  regions_increasing := h.ordered.base_lt
  separate := h.separate
  allowed_length := b.allowedRanges.length_le
  regions_length := b.memoryAccessHandlers.regions.length_le

theorem Inv.enforced {b : Stage2Builder M σ} (h : b.Inv) (hmaps : b.MapsAllowed) : b.Enforced where
  mapped_iff := hmaps
  not_both ipa hs := by
    obtain ⟨r, hr, hri⟩ := (hmaps ipa).1 hs
    exact (MemoryAccessHandlerRegistry.find_eq_none_iff h.ordered ipa).2 fun g hg =>
      (h.separate r hr g hg).not_contains hri

theorem inv_new : (new : Stage2Builder M σ).Inv where
  ordered := MemoryAccessHandlerRegistry.ordered_new
  allowed_disjoint := List.Pairwise.nil
  separate _ hr := by cases hr

omit [IdMap M] in
theorem Inv.of_allow {b : Stage2Builder M σ} (h : b.Inv) {baseIpa size : U64} {range : Stage2Range} {m : M}
    {allowed : ArrayVec Stage2Range maxAllowedRanges} (hc : b.checkAllow baseIpa size = .ok range)
    (hitems : allowed.items = b.allowedRanges.items ++ [range]) :
    Inv { b with idmap := m, allowedRanges := allowed } := by
  obtain ⟨hnew, -, hall, hreg⟩ := checkAllow_ok.1 hc
  refine ⟨h.ordered, ?_, ?_⟩
  · show allowed.items.Pairwise _
    rw [hitems, List.pairwise_append]
    refine ⟨h.allowed_disjoint, List.pairwise_singleton _ _, fun r hr s hs => ?_⟩
    rw [List.mem_singleton.1 hs]
    exact (hall r hr).symm
  · intro r hr g hg
    rw [hitems, List.mem_append, List.mem_singleton] at hr
    rcases hr with hr | rfl
    · exact h.separate r hr g hg
    · exact (hreg g hg).symm

/-- **One call keeps the invariant**, whatever it returns, and never panics. -/
theorem apply_inv {b : Stage2Builder M σ} (h : b.Inv) (req : Stage2Request σ) :
    ∃ result b', b.apply req = some (result, b') ∧ b'.Inv := by
  cases req with
  | allowRange baseIpa size attributes =>
    obtain ⟨e, -, hr⟩ | ⟨range, hc, ⟨e, m, hm, hr⟩ | ⟨m, allowed, hm, hitems, hr⟩⟩ :=
      b.allowRange_cases baseIpa size attributes
    · exact ⟨_, _, hr, h⟩
    · exact ⟨_, _, hr, h.ordered, h.allowed_disjoint, h.separate⟩
    · exact ⟨_, _, hr, h.of_allow hc hitems⟩
  | handleRange baseIpa size handler =>
    obtain ⟨e, -, hr⟩ | ⟨range, hc, ⟨-, hr⟩ | ⟨-, hr⟩ | ⟨-, -, registry, hord, hperm, hr⟩⟩ :=
      b.handleRange_cases h.ordered baseIpa size handler
    · exact ⟨_, _, hr, h⟩
    · exact ⟨_, _, hr, h⟩
    · exact ⟨_, _, hr, h⟩
    · exact ⟨_, _, hr, h.of_register hc hord hperm⟩

theorem applyAll_inv : ∀ (reqs : List (Stage2Request σ)) {b : Stage2Builder M σ}, b.Inv →
    ∃ results b', b.applyAll reqs = some (results, b') ∧ results.length = reqs.length ∧ b'.Inv
  | [], b, h => ⟨[], b, rfl, rfl, h⟩
  | req :: reqs, b, h => by
    obtain ⟨result, b₁, hr, h₁⟩ := apply_inv h req
    obtain ⟨results, b₂, hrs, hlen, h₂⟩ := applyAll_inv reqs h₁
    refine ⟨result :: results, b₂, ?_, by simp [hlen], h₂⟩
    rw [applyAll, hr]
    simp only [hrs, Option.map_some]

variable [LawfulIdMap M]

theorem mapsAllowed_new : (new : Stage2Builder M σ).MapsAllowed := fun ipa => by
  show (IdMap.lookup (IdMap.new : M) ipa).isSome ↔ _
  rw [LawfulIdMap.lookup_new]
  simp [new, ArrayVec.new]

theorem MapsAllowed.of_mapRange_ok {b : Stage2Builder M σ} (h : b.MapsAllowed) {range : Stage2Range}
    {a : Stage2Attributes} (ha : IdMap.Maps M a) {m : M} {allowed : ArrayVec Stage2Range maxAllowedRanges}
    (hm : IdMap.mapRange b.idmap ⟨range.baseIpa, range.endIpa⟩ a = (.ok (), m))
    (hitems : allowed.items = b.allowedRanges.items ++ [range]) :
    MapsAllowed { b with idmap := m, allowedRanges := allowed } := fun ipa => by
  have hl := LawfulIdMap.lookup_mapRange_ok ha (congrArg Prod.fst hm) ipa
  rw [hm] at hl
  show (IdMap.lookup m ipa).isSome ↔ ∃ r ∈ allowed.items, r.Contains ipa
  rw [hl, hitems]
  by_cases hin : (⟨range.baseIpa, range.endIpa⟩ : MemoryRegion).Contains ipa
  · rw [if_pos hin]
    exact ⟨fun _ => ⟨range, by simp, hin⟩, fun _ => rfl⟩
  · rw [if_neg hin, h ipa]
    constructor
    · rintro ⟨r, hr, hri⟩
      exact ⟨r, by simp [hr], hri⟩
    · rintro ⟨r, hr, hri⟩
      rw [List.mem_append, List.mem_singleton] at hr
      rcases hr with hr | rfl
      · exact ⟨r, hr, hri⟩
      · exact absurd hri hin

theorem apply_error_lookup {b b' : Stage2Builder M σ} (hord : b.memoryAccessHandlers.Ordered) {req : Stage2Request σ}
    {e : Stage2ConfigError} (h : b.apply req = some (.error e, b')) (ipa : U64) :
    IdMap.lookup b'.idmap ipa = IdMap.lookup b.idmap ipa := by
  cases req with
  | allowRange baseIpa size attributes =>
    obtain ⟨e, -, hr⟩ | ⟨range, hc, ⟨e, m, hm, hr⟩ | ⟨m, allowed, hm, hitems, hr⟩⟩ :=
      b.allowRange_cases baseIpa size attributes <;> cases hr.symm.trans h
    · rfl
    · have := LawfulIdMap.lookup_mapRange_error (congrArg Prod.fst hm) ipa
      rwa [hm] at this
  | handleRange baseIpa size handler =>
    obtain ⟨e, -, hr⟩ | ⟨range, hc, ⟨-, hr⟩ | ⟨-, hr⟩ | ⟨-, -, registry, hord, hperm, hr⟩⟩ :=
      b.handleRange_cases hord baseIpa size handler <;> cases hr.symm.trans h <;> rfl

theorem MapsAllowed.apply {b b' : Stage2Builder M σ} (h : b.MapsAllowed) (hord : b.memoryAccessHandlers.Ordered)
    {req : Stage2Request σ} (hreq : req.Maps M) {result : Except Stage2ConfigError Unit}
    (hr : b.apply req = some (result, b')) : b'.MapsAllowed := by
  cases req with
  | allowRange baseIpa size attributes =>
    obtain ⟨e, -, hr'⟩ | ⟨range, hc, ⟨e, m, hm, hr'⟩ | ⟨m, allowed, hm, hitems, hr'⟩⟩ :=
      b.allowRange_cases baseIpa size attributes
    · cases hr'.symm.trans hr
      exact h
    · have herror : b.apply (.allowRange baseIpa size attributes) = _ := hr'
      have hlookup := apply_error_lookup hord herror
      cases hr'.symm.trans hr
      intro ipa
      rw [hlookup]
      exact h ipa
    · cases hr'.symm.trans hr
      obtain ⟨rfl, rfl⟩ := Stage2Range.new_ok (checkAllow_ok.1 hc).1
      exact h.of_mapRange_ok hreq hm hitems
  | handleRange baseIpa size handler =>
    obtain ⟨e, -, hr'⟩ | ⟨range, -, ⟨-, hr'⟩ | ⟨-, hr'⟩ | ⟨-, -, registry, -, -, hr'⟩⟩ :=
      b.handleRange_cases hord baseIpa size handler <;> cases hr'.symm.trans hr <;> exact h

theorem MapsAllowed.applyAll : ∀ {reqs : List (Stage2Request σ)} {b b' : Stage2Builder M σ}, b.MapsAllowed → b.Inv →
    (∀ req ∈ reqs, req.Maps M) → ∀ {results}, b.applyAll reqs = some (results, b') → b'.MapsAllowed
  | [], _, _, h, _, _, _, hr => by
    cases hr
    exact h
  | req :: reqs, b, b', h, hinv, hreqs, results, hr => by
    obtain ⟨hreq, hrest⟩ := List.forall_mem_cons.1 hreqs
    obtain ⟨result, b₁, hr₁, hinv₁⟩ := apply_inv hinv req
    rw [Stage2Builder.applyAll, hr₁] at hr
    obtain ⟨⟨rs, b₂⟩, hrs, heq⟩ := Option.map_eq_some_iff.1 hr
    cases heq
    exact (h.apply hinv.ordered hreq hr₁).applyAll hinv₁ hrest hrs

/-- **Every sequence of builder calls, failed ones included, runs without a panic and leaves a consistent policy**, which
its table enforces if the attributes of the calls are ones it maps pages with. -/
theorem applyAll_consistent (reqs : List (Stage2Request σ)) :
    ∃ results b, (new : Stage2Builder M σ).applyAll reqs = some (results, b) ∧ results.length = reqs.length ∧
      b.Consistent ∧ ((∀ req ∈ reqs, req.Maps M) → b.Enforced) := by
  obtain ⟨results, b, hr, hlen, h⟩ := applyAll_inv reqs (inv_new (M := M) (σ := σ))
  exact ⟨results, b, hr, hlen, h.consistent, fun hreqs => h.enforced (mapsAllowed_new.applyAll inv_new hreqs hr)⟩

theorem applyAll_consistent_regionTable :
    ∃ results b, (new : Stage2Builder RegionTable Unit).applyAll
      [.allowRange 0 0x2000 1, .allowRange 0x1000 0x1000 1, .handleRange 0x2000 0x1000 ⟨none, none⟩,
        .allowRange 0x1000000000000 0x1000 1] = some (results, b) ∧ results.length = 4 ∧ b.Consistent ∧ b.Enforced := by
  have hvalid : IdMap.Maps RegionTable 1 := ⟨rfl, rfl⟩
  obtain ⟨results, b, hr, hlen, hconsistent, henforced⟩ := applyAll_consistent (M := RegionTable) (σ := Unit)
    [.allowRange 0 0x2000 1, .allowRange 0x1000 0x1000 1, .handleRange 0x2000 0x1000 ⟨none, none⟩,
      .allowRange 0x1000000000000 0x1000 1]
  refine ⟨results, b, hr, hlen, hconsistent, henforced ?_⟩
  simp only [List.forall_mem_cons]
  exact ⟨hvalid, hvalid, trivial, hvalid, fun _ h => by cases h⟩

end Stage2Builder

def Stage2Config.Built {M : Type} [IdMap M] (config : Stage2Config M σ) : Prop :=
  ∃ reqs results b, (Stage2Builder.new : Stage2Builder M σ).applyAll reqs = some (results, b) ∧ config = b.build

theorem Stage2Config.Built.ordered {M : Type} [IdMap M] {config : Stage2Config M σ}
    (h : config.Built) : config.memoryAccessHandlers.Ordered := by
  obtain ⟨reqs, results, b, hr, rfl⟩ := h
  obtain ⟨results', b', hr', -, hinv⟩ := Stage2Builder.applyAll_inv reqs (Stage2Builder.inv_new (M := M) (σ := σ))
  rw [hr'] at hr
  cases hr
  exact hinv.ordered

end Ritm
