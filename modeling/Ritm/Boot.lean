import Ritm.Lib.Refine
import Ritm.QemuDevice
/-!
# Boot — the policy RITM sets up before it enters the guest

`main` gives the shared heap to its allocator, `stage2_config` has the platform configure a new builder.  The heap's
range is computed from the address of the mutex and the allocator owns the bytes behind the mutex's lock, so the two
differ by a byte at each end; rounding makes up for it, inwards to the allocator's words and outwards to pages.

The allocator is `buddy_system_allocator`'s: `Heap` is its interface, `LawfulHeap` what is relied on.
-/
namespace Ritm

/-! ## The shared heap -/

structure Layout where
  size : Nat
  align : Nat
  align_pos : 0 < align

/-- `buddy_system_allocator::Heap<32>`; an allocation that fails is `none`. -/
class Heap (H : Type) where
  new : H
  init : H → (start size : Nat) → H
  alloc : H → Layout → Option (Nat × H)

structure Buffer where
  ptr : Nat
  len : Nat
  deriving DecidableEq, Repr

variable {H : Type}

def Heap.handOut [Heap H] (heap : H) (layout : Layout) : Option (Buffer × H) :=
  (Heap.alloc heap layout).map fun (ptr, heap') => (⟨ptr, layout.size⟩, heap')

def wordSize : Nat := 8

/-- **What is relied on**: a heap hands out memory of the range it was given, rounded inwards to words, and no other. -/
class LawfulHeap (H : Type) [Heap H] : Prop where
  handOut_within (start size : Nat) (layouts : List Layout) :
    ∀ buffer ∈ (Lib.Object.run Heap.handOut (Heap.init (Heap.new : H) start size) layouts).1,
      (start + (wordSize - 1)) / wordSize * wordSize ≤ buffer.ptr ∧
        buffer.ptr + buffer.len ≤ (start + size) / wordSize * wordSize

/-- An allocator that hands out its range from the start and never takes memory back. -/
structure BumpHeap where
  next : Nat
  limit : Nat

instance : Heap BumpHeap where
  new := ⟨0, 0⟩
  init _ start size := ⟨(start + (wordSize - 1)) / wordSize * wordSize, (start + size) / wordSize * wordSize⟩
  alloc heap layout :=
    let ptr := (heap.next + (layout.align - 1)) / layout.align * layout.align
    if ptr + layout.size ≤ heap.limit then some (ptr, ⟨ptr + layout.size, heap.limit⟩) else none

theorem le_alignUp (address : Nat) {align : Nat} (h : 0 < align) :
    address ≤ (address + (align - 1)) / align * align := by
  have hdiv := Nat.div_add_mod (address + (align - 1)) align
  have hmod := Nat.mod_lt (address + (align - 1)) h
  rw [Nat.mul_comm] at hdiv
  omega

instance : LawfulHeap BumpHeap where
  handOut_within start size layouts := by
    refine Lib.Object.run_answers_of_invariant
      (I := fun heap : BumpHeap => (start + (wordSize - 1)) / wordSize * wordSize ≤ heap.next ∧
        heap.limit = (start + size) / wordSize * wordSize) ?_ layouts ⟨Nat.le_refl _, rfl⟩
    rintro heap layout buffer heap' ⟨hnext, hlimit⟩ h
    obtain ⟨⟨ptr, heap''⟩, halloc, heq⟩ := Option.map_eq_some_iff.1 h
    cases heq
    simp only [Heap.alloc] at halloc
    split at halloc
    · rename_i hfits
      cases halloc
      have hptr := le_alignUp heap.next layout.align_pos
      rw [hlimit] at hfits
      exact ⟨⟨by dsimp only; omega, hlimit⟩, by dsimp only; omega, hfits⟩
    · cases halloc

def addToHeap [Heap H] (heap : H) (range : Buffer) : H := Heap.init heap range.ptr range.len

/-- `shared_alloc` on the shared heap's allocator; `none` is the panic "failed to allocate from shared heap". -/
def sharedAlloc [Heap H] (heap : H) (layout : Layout) : Option (Buffer × H) :=
  match Heap.alloc heap layout with
  | none => none
  | some (ptr, heap') => some (⟨ptr, layout.size⟩, heap')

theorem sharedAlloc_eq [Heap H] : (sharedAlloc : H → Layout → Option (Buffer × H)) = Heap.handOut := by
  funext heap layout
  unfold sharedAlloc Heap.handOut
  cases Heap.alloc heap layout <;> rfl

/-! ## What the page table takes -/

/-- **What is relied on**: `map_range` takes pages below 2⁴⁸ that are not mapped yet. -/
class AcceptingIdMap (M : Type) [IdMap M] : Prop where
  mapRange_ok {m : M} {r : MemoryRegion} {a : Stage2Attributes} (hstart : r.start.toNat % pageSize = 0)
    (hend : r.endAddr.toNat % pageSize = 0) (hlt : r.start.toNat < r.endAddr.toNat) (hmax : r.endAddr.toNat ≤ 2 ^ 48)
    (ha : IdMap.Maps M a) (hfree : ∀ ipa, r.Contains ipa → IdMap.lookup m ipa = none) :
    (IdMap.mapRange m r a).1 = .ok ()

instance : AcceptingIdMap RegionTable where
  mapRange_ok {m r a} _ _ _ hmax _ _ := by
    simp only [IdMap.mapRange, if_pos hmax]

variable {M σ : Type} [IdMap M] [AcceptingIdMap M]

theorem mapRange_ok_of_range {m : M} {range : Stage2Range} {a : Stage2Attributes} (hmax : range.endIpa.toNat ≤ 2 ^ 48)
    (ha : IdMap.Maps M a) (hfree : ∀ ipa, range.Contains ipa → IdMap.lookup m ipa = none) :
    (IdMap.mapRange m ⟨range.baseIpa, range.endIpa⟩ a).1 = .ok () := by
  have hb := range.base_aligned
  have hs := range.size_pages
  have he := range.end_eq
  exact AcceptingIdMap.mapRange_ok hb (by unfold pageSize at *; dsimp only; omega) range.base_lt_end hmax ha hfree

variable [LawfulIdMap M]

def MapsOnly (m : M) (pre : List (Stage2Request σ)) : Prop :=
  ∀ ipa a, IdMap.lookup m ipa = some a → ∃ p ∈ allowParts pre, p.1.Contains ipa

open Stage2Builder (range_allowRange allowParts_snoc_allow) in
theorem MapsOnly.mapRange {m : M} {pre : List (Stage2Request σ)} (h : MapsOnly m pre) {baseIpa size : U64}
    {attributes : Stage2Attributes} {range : Stage2Range} (hnew : Stage2Range.new baseIpa size = .ok range)
    (hfits : Fits (pre ++ [.allowRange baseIpa size attributes])) (hmax : range.endIpa.toNat ≤ 2 ^ 48)
    (ha : IdMap.Maps M attributes) :
    (IdMap.mapRange m ⟨range.baseIpa, range.endIpa⟩ attributes).1 = .ok () ∧
      MapsOnly (IdMap.mapRange m ⟨range.baseIpa, range.endIpa⟩ attributes).2
        (pre ++ [.allowRange baseIpa size attributes]) := by
  have hdisjoint := ((apart_iff_disjoint (range_allowRange attributes hnew)).1 hfits.apart_last).1
  have hok := mapRange_ok_of_range (m := m) hmax ha fun ipa hin => by
    cases hl : IdMap.lookup m ipa with
    | none => rfl
    | some a =>
      obtain ⟨p, hp, hin'⟩ := h ipa a hl
      exact absurd hin' ((hdisjoint p hp).not_contains hin)
  refine ⟨hok, fun ipa a hl => ?_⟩
  rw [allowParts_snoc_allow pre attributes hnew]
  rw [LawfulIdMap.lookup_mapRange_ok ha hok] at hl
  split at hl
  · rename_i hin
    exact ⟨(range, attributes), by simp, hin⟩
  · obtain ⟨p, hp, hin⟩ := h ipa a hl
    exact ⟨p, List.mem_append_left _ hp, hin⟩

open Stage2Builder (toOption_eq_some allowParts_snoc_handle) in
/-- **The table takes every list of calls that fit**: what is mapped at each call are ranges of the calls before it. -/
theorem takes_of_fits : ∀ (reqs : List (Stage2Request σ)) {pre : List (Stage2Request σ)} {m : M}, Fits (pre ++ reqs) →
    (∀ p ∈ allowParts reqs, p.1.endIpa.toNat ≤ 2 ^ 48 ∧ IdMap.Maps M p.2) → MapsOnly m pre → Takes m reqs
  | [], _, _, _, _, _ => trivial
  | .handleRange baseIpa size handler :: reqs, pre, m, hfits, hparts, hmapped => by
    have hfits' : Fits (pre ++ [.handleRange baseIpa size handler] ++ reqs) := by simpa using hfits
    refine takes_of_fits reqs hfits' hparts ?_
    rw [MapsOnly, allowParts_snoc_handle]
    exact hmapped
  | .allowRange baseIpa size attributes :: reqs, pre, m, hfits, hparts, hmapped => by
    have hfits' : Fits (pre ++ [.allowRange baseIpa size attributes] ++ reqs) := by simpa using hfits
    obtain ⟨range, hrange⟩ := hfits'.of_append.valid _ (List.mem_append_right _ (List.mem_singleton.2 rfl))
    have hnew := toOption_eq_some.1 hrange
    have hpart : allowParts (.allowRange baseIpa size attributes :: reqs) = (range, attributes) :: allowParts reqs := by
      simp [allowParts, Stage2Request.allowPart, toOption_eq_some.2 hnew]
    rw [hpart] at hparts
    obtain ⟨hmax, hvalid⟩ := hparts _ List.mem_cons_self
    obtain ⟨hok, hmapped'⟩ := hmapped.mapRange hnew hfits'.of_append hmax hvalid
    rw [(Stage2Range.new_ok hnew).1] at hok hmapped'
    rw [Takes, ← Stage2Range.endIpa_eq hnew]
    exact ⟨hok, takes_of_fits reqs hfits' (fun p hp => hparts p (List.mem_cons_of_mem _ hp)) hmapped'⟩

namespace Qemu

/-! ## The policy -/

/-- `stage2_config` on its first call; `none` is a panic, that of its `expect` included. -/
def stage2Config (M : Type) [IdMap M] (image : Image) : Option (Stage2Config M U64) :=
  match configureMemoryAccess image (Stage2Builder.new : Stage2Builder M U64) with
  | some (.ok (), builder) => some builder.build
  | _ => none

/-- The sums of `usize` that the configuration forms; rounding up overflows only where its result does. -/
def configureSums (image : Image) : List Nat :=
  [filteredMmioBase + filteredMmioSize, image.ritmEnd, image.sharedHeap + sharedHeapSize,
    alignUpToPage (image.sharedHeap + sharedHeapSize)]

/-- The bytes of SHARED_HEAP that `main` gives to its allocator: those behind the byte of the lock. -/
def Image.sharedHeapData (image : Image) : Buffer := ⟨image.sharedHeap + 1, sharedHeapSize⟩

def sharedHeapAllocator (H : Type) [Heap H] (image : Image) : H := addToHeap Heap.new image.sharedHeapData

section Boot

variable {image : Image} (halign : image.ritmStart % pageSize = 0) (hstart : dramStart < image.ritmStart)
  (hend : image.ritmEnd < 0x100000000)

theorem configureSums_lt (hend : image.ritmEnd < 0x100000000) : ∀ sum ∈ configureSums image, sum < 2 ^ 64 := by
  have hle := image.le_end
  intro sum hsum
  simp only [configureSums, List.mem_cons, List.not_mem_nil, or_false] at hsum
  unfold Image.ritmEnd filteredMmioBase filteredMmioSize alignUpToPage sharedHeapStaticSize sharedHeapSize pageSize at *
  rcases hsum with rfl | rfl | rfl | rfl <;> omega

theorem layout_end_le (hend : image.ritmEnd < 0x100000000) {e : Nat × Nat × Stage2Attributes} (he : e ∈ layout image) :
    e.2.1 ≤ 2 ^ 48 := by
  have hle := image.le_end
  rw [mem_layout] at he
  unfold heapRange Image.ritmEnd filteredMmioBase filteredMmioSize dramStart alignUpToPage sharedHeapStaticSize
    sharedHeapSize pageSize at *
  rcases he with rfl | rfl | rfl | rfl | rfl | rfl | rfl <;> dsimp only <;> omega

theorem sharedHeapData_mapped {address : Nat}
    (hlow : (image.sharedHeapData.ptr + (wordSize - 1)) / wordSize * wordSize ≤ address)
    (hhigh : address < (image.sharedHeapData.ptr + image.sharedHeapData.len) / wordSize * wordSize) :
    (heapRange image).1 ≤ address ∧ address < (heapRange image).2.1 := by
  unfold Image.sharedHeapData wordSize at hlow hhigh
  unfold heapRange alignDownToPage alignUpToPage pageSize
  dsimp only at *
  omega

include halign hstart hend in
theorem configure_succeeds : ∃ b : Stage2Builder M U64, configureMemoryAccess image Stage2Builder.new = some (.ok (), b) := by
  obtain ⟨result, b, hrun⟩ := followAll_isSome (configureRequests image) (Stage2Builder.inv_new (M := M) (σ := U64))
  have h := (configure_eq_followAll (Nat.le_of_lt hstart) (Nat.le_of_lt hend) Stage2Builder.new).trans hrun
  have htakes : Takes (IdMap.new : M) (configureRequests image) := by
    refine @takes_of_fits M U64 _ _ _ _ [] _ (fits_configure halign hstart hend) (fun p hp => ?_) fun ipa a ha => ?_
    · obtain ⟨e, he, -, hp1, hp2⟩ := mem_allowParts (Nat.le_of_lt hstart) (Nat.le_of_lt hend) (List.Subset.refl _)
        (fun x hx => mem_configureRequests.1 hx) hp
      rw [hp1, hp2]
      exact ⟨layout_end_le hend he, maps_layout he⟩
    · rw [LawfulIdMap.lookup_new] at ha
      cases ha
  exact ⟨b, (configure_ok_iff halign hstart hend h).2 htakes ▸ h⟩

omit [AcceptingIdMap M] [LawfulIdMap M] in
theorem find_filteredMmio {b : Stage2Builder M U64} (h : configureMemoryAccess image Stage2Builder.new = some (.ok (), b))
    {ipa : U64} (hlow : filteredMmioBase ≤ ipa.toNat) (hhigh : ipa.toNat < filteredMmioBase + filteredMmioSize) :
    ∃ m, b.build.memoryAccessHandlers.find ipa = some m ∧ m.region.handler = filteredMmioHandler ∧
      m.offset = ipa - toIpa filteredMmioBase := by
  have hholds := configure_holds h
  obtain ⟨range, hnew⟩ : ∃ range, Stage2Range.new (toIpa filteredMmioBase) (toIpa filteredMmioSize) = .ok range :=
    ⟨_, rfl⟩
  have hmem : MemoryAccessRegion.new range filteredMmioHandler ∈ b.memoryAccessHandlers.regions.items :=
    hholds.regions.mem_iff.2 (List.mem_filterMap.2 ⟨mmioRequest, mem_configureRequests.2 (.inl rfl), by
      rw [mmioRequest, Stage2Request.handlePart, hnew]
      rfl⟩)
  obtain ⟨hbase, hend⟩ := new_mmio hnew
  refine ⟨⟨.new range filteredMmioHandler, ipa - toIpa filteredMmioBase⟩,
    (MemoryAccessHandlerRegistry.find_eq_some_iff hholds.ordered ipa _).2 ⟨hmem, ⟨?_, ?_⟩, ?_⟩, rfl, rfl⟩
  · exact Nat.le_trans (Nat.le_of_eq hbase) hlow
  · exact Nat.lt_of_lt_of_eq hhigh hend.symm
  · show _ = ipa - range.baseIpa
    rw [(Stage2Range.new_ok hnew).1]

variable [Heap H] [LawfulHeap H]

omit [AcceptingIdMap M] in
theorem lookup_sharedAlloc {b : Stage2Builder M U64} (hend : image.ritmEnd < 0x100000000)
    (hb : configureMemoryAccess image Stage2Builder.new = some (.ok (), b)) {layouts : List Layout} {buffer : Buffer}
    (hbuffer : buffer ∈ (Lib.Object.run sharedAlloc (sharedHeapAllocator H image) layouts).1) {i : Nat}
    (hi : i < buffer.len) : IdMap.lookup b.idmap (toIpa (buffer.ptr + i)) = some stage2MemoryAttributes := by
  rw [sharedAlloc_eq] at hbuffer
  obtain ⟨hptr, hlen⟩ := LawfulHeap.handOut_within _ _ layouts buffer hbuffer
  have hin := @sharedHeapData_mapped image (buffer.ptr + i) (by omega) (by omega)
  have hmem : heapRange image ∈ layout image := by simp [layout]
  have hlt := layout_end_le hend hmem
  refine (lookup_configure hb _ _).2 ⟨heapRange image, hmem, ?_, ?_, rfl⟩ <;> rw [toNat_toIpa (by omega)]
  · exact hin.1
  · exact hin.2

/-- **The policy RITM boots with never fails**: wherever a page-aligned image is linked between the start of memory and
4 GiB, and wherever in it the static is, no sum overflows, no difference underflows and the configuration returns Ok.
Every byte of every buffer of the shared heap is then mapped as normal memory; the filtered page is not mapped, and
every access to it goes to its callbacks. -/
theorem configureMemoryAccess_never_fails (image : Image) (halign : image.ritmStart % pageSize = 0)
    (hstart : dramStart < image.ritmStart) (hend : image.ritmStart + 4 * 1024 * 1024 < 4 * 1024 * 1024 * 1024) :
    (∀ sum ∈ configureSums image, sum < 2 ^ 64) ∧
    ∃ b : Stage2Builder M U64, configureMemoryAccess image Stage2Builder.new = some (.ok (), b) ∧
      stage2Config M image = some b.build ∧
      (∀ layouts, ∀ buffer ∈ (Lib.Object.run sharedAlloc (sharedHeapAllocator H image) layouts).1, ∀ i < buffer.len,
        IdMap.lookup b.idmap (toIpa (buffer.ptr + i)) = some stage2MemoryAttributes) ∧
      (∀ ipa : U64, filteredMmioBase ≤ ipa.toNat → ipa.toNat < filteredMmioBase + filteredMmioSize →
        IdMap.lookup b.idmap ipa = none ∧
        ∃ m, b.build.memoryAccessHandlers.find ipa = some m ∧ m.region.handler = filteredMmioHandler ∧
          m.offset = ipa - 0x0f000000) := by
  obtain ⟨b, hb⟩ := configure_succeeds (M := M) halign hstart hend
  refine ⟨configureSums_lt hend, b, hb, ?_, fun layouts buffer hbuffer i hi => ?_, fun ipa hlow hhigh => ⟨?_, ?_⟩⟩
  · rw [stage2Config, hb]
  · exact lookup_sharedAlloc hend hb hbuffer hi
  · cases hl : IdMap.lookup b.idmap ipa with
    | none => rfl
    | some a =>
      obtain ⟨e, he, hlow', hhigh', -⟩ := (lookup_configure hb ipa a).1 hl
      have := filteredMmio_apart (Nat.le_of_lt hstart) he
      omega
  · exact find_filteredMmio hb hlow hhigh

end Boot

/-- A static that is not on a page boundary, with a buffer from its heap and an access to the filtered page. -/
theorem configureMemoryAccess_never_fails_unaligned :
    let layouts : List Layout := [⟨64, 8, by decide⟩]
    (Lib.Object.run sharedAlloc (sharedHeapAllocator BumpHeap unalignedImage) layouts).1 = [⟨0x40200808, 64⟩] ∧
      ∃ b : Stage2Builder RegionTable U64, configureMemoryAccess unalignedImage Stage2Builder.new = some (.ok (), b) ∧
        IdMap.lookup b.idmap (toIpa (0x40200808 + 63)) = some stage2MemoryAttributes ∧
        ∃ m, b.build.memoryAccessHandlers.find 0x0f000010 = some m ∧ m.offset = 0x10 := by
  intro layouts
  have hbuffer : (Lib.Object.run sharedAlloc (sharedHeapAllocator BumpHeap unalignedImage) layouts).1 =
      [⟨0x40200808, 64⟩] := by decide
  obtain ⟨-, b, hb, -, hheap, hmmio⟩ := @configureMemoryAccess_never_fails BumpHeap RegionTable _ _ _ _ _
    unalignedImage (by decide) (by decide) (by decide)
  obtain ⟨m, hm, -, hoffset⟩ := (hmmio 0x0f000010 (by decide) (by decide)).2
  have hmem : (⟨0x40200808, 64⟩ : Buffer) ∈
      (Lib.Object.run sharedAlloc (sharedHeapAllocator BumpHeap unalignedImage) layouts).1 := by
    rw [hbuffer]
    exact List.mem_singleton.2 rfl
  have hlast := hheap layouts ⟨0x40200808, 64⟩ hmem 63 (by decide)
  exact ⟨hbuffer, b, hb, hlast, m, hm, hoffset⟩

end Qemu
end Ritm
