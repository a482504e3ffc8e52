import Ritm.FlatDeviceTree
import Ritm.QemuDeviceTree
/-!
# QemuMemoryNodes — whether the memory a payload is told of is the memory it has

Two things are asked of the tree that `modify_dt` makes.  Every address it describes is to be one the guest can use;
`modify_dt` takes the upper end from the input tree, while `configure_memory_access` stops at 4 GiB.  And it is to
describe what the input described, without the image; what the rewrite drops has to be described elsewhere.  With two
address and two size cells its two nodes are read as the range without the image; with others they are misread, or not
read at all.
-/
namespace Ritm
namespace Qemu

open Lib (toBe toBe_length ofBe_toBe)

variable {B : Type} {tools : Dtoolkit} {sharedAlloc : Nat → Option B} {image : Image} {root root' : DtNode}
  {start dramEnd : Nat} {buffer : B}

/-! ## What the two nodes are read as -/

section Cells

variable (hstart : start ≤ image.ritmStart) (hend : image.ritmEnd ≤ dramEnd)

include hstart hend

theorem inRanges_rewritten_two_two (ha : tools.addressCells root = 2) (hs : tools.sizeCells root = 2)
    (hmax : dramEnd < 2 ^ 64) (x : Nat) : InRanges (rewritten tools image root start dramEnd) x ↔
      (start ≤ x ∧ x < dramEnd) ∧ ¬ image.Contains x := by
  have hlt := image.ritmStart_lt_ritmEnd
  unfold rewritten
  rw [ha, hs, readAs_two_two (by omega) (by omega), readAs_two_two (by omega) (by omega)]
  simp only [inRanges_append, inRanges_cons, not_inRanges_nil, or_false, Image.Contains]
  omega

/-- With one cell each, as memory from address 0 on; the image is in it unless it ends past 4 GiB. -/
theorem inRanges_rewritten_one_one (ha : tools.addressCells root = 1) (hs : tools.sizeCells root = 1)
    (hlt : start < 2 ^ 32) (hsize : dramEnd < start + 2 ^ 32) (hpast : 2 ^ 32 ≤ image.ritmEnd) (x : Nat) :
    InRanges (rewritten tools image root start dramEnd) x ↔ x < max start (image.ritmStart - start) := by
  have hpos := image.ritmStart_lt_ritmEnd
  unfold rewritten
  rw [ha, hs, readAs_one_one, readAs_one_one]
  simp only [inRanges_append, inRanges_cons, not_inRanges_nil, or_false]
  omega

theorem leaks_one_one (ha : tools.addressCells root = 1) (hs : tools.sizeCells root = 1)
    (hpast : image.ritmEnd < 2 ^ 32) : InRanges (rewritten tools image root start dramEnd) image.ritmStart := by
  have hpos := image.ritmStart_lt_ritmEnd
  unfold rewritten
  rw [ha, hs, readAs_one_one, readAs_one_one]
  simp only [inRanges_append, inRanges_cons, not_inRanges_nil, or_false]
  omega

omit hstart in
theorem leaks_zero {s : Nat} (ha : tools.addressCells root = 0) (hs : tools.sizeCells root = s) (hs' : s = 1 ∨ s = 2)
    (hsize : dramEnd < 256 ^ (4 * s)) : InRanges (rewritten tools image root start dramEnd) image.ritmStart := by
  unfold rewritten
  rw [ha, hs, inRanges_append]
  refine .inr ⟨_, readAs_zero hs' (Nat.lt_of_le_of_lt hend hsize) _, Nat.zero_le _, ?_⟩
  have := image.ritmStart_lt_ritmEnd
  omega

omit hstart hend

theorem rewritten_three (h : tools.addressCells root + tools.sizeCells root = 3) :
    rewritten tools image root start dramEnd = [] := by
  unfold rewritten
  rw [readAs_three h, readAs_three h]
  rfl

end Cells

/-- The cell counts with which `dram_range` can have read a range that holds the image. -/
theorem FirstRange.cells {memory : DtNode} {rest : List (Nat × Nat)}
    (hfirst : FirstRange tools root start dramEnd memory rest) (hpos : start < dramEnd) :
    (tools.addressCells root = 2 ∧ tools.sizeCells root = 2) ∨ tools.addressCells root + tools.sizeCells root = 3 ∨
      (tools.addressCells root = 1 ∧ tools.sizeCells root = 1) ∨
      (tools.addressCells root = 0 ∧ (tools.sizeCells root = 1 ∨ tools.sizeCells root = 2)) := by
  have hs : tools.sizeCells root ≠ 0 := fun h => by
    have hlt := hfirst.size_lt
    rw [h] at hlt
    omega
  have := hfirst.address_le
  have := hfirst.size_le
  omega

/-! ## Agreement -/

section Agreement

variable {M : Type} [IdMap M]

/-- Every address the tree describes is mapped as normal memory and lies outside the image. -/
def Agrees (tools : Dtoolkit) (image : Image) (b : Stage2Builder M U64) (root : DtNode) : Prop :=
  ∀ x, Described tools root x →
    x < 2 ^ 64 ∧ IdMap.lookup b.idmap (toIpa x) = some stage2MemoryAttributes ∧ ¬ image.Contains x

def GuestDram (image : Image) (x : Nat) : Prop :=
  (dramStart ≤ x ∧ x < image.ritmStart) ∨ (image.ritmEnd ≤ x ∧ x < 0x100000000)

variable [LawfulIdMap M] {b : Stage2Builder M U64}
  (hcfg : configureMemoryAccess image Stage2Builder.new = some (.ok (), b))

include hcfg

/-- **The memory a guest has.** -/
theorem guestDram_iff (x : Nat) :
    (x < 2 ^ 64 ∧ IdMap.lookup b.idmap (toIpa x) = some stage2MemoryAttributes ∧ ¬ image.Contains x) ↔
      GuestDram image x := by
  obtain ⟨hstart, hend, -⟩ := configure_ok_image hcfg
  have hlt := image.ritmStart_lt_ritmEnd
  unfold GuestDram
  constructor
  · rintro ⟨hx, hlookup, hout⟩
    have hbounds := lookup_memory_bounds hcfg hlookup
    rw [toNat_toIpa hx] at hbounds
    unfold Image.Contains at hout
    omega
  · intro hx
    have h64 : x < 2 ^ 64 := by omega
    refine ⟨h64, (lookup_configure hcfg _ _).2 ?_, fun hin => ?_⟩
    · rw [toNat_toIpa h64]
      rcases hx with hx | hx
      · exact ⟨(dramStart, image.ritmStart, stage2MemoryAttributes), by simp [layout, outerLayout], hx.1, hx.2, rfl⟩
      · exact ⟨(image.ritmEnd, 0x100000000, stage2MemoryAttributes), by simp [layout, outerLayout], hx.1, hx.2, rfl⟩
    · unfold Image.Contains at hin
      omega

/-- **The two descriptions of memory agree exactly when** the memory nodes that are kept describe memory the guest has,
and the tree's cells are the ones `modify_dt` writes for and DRAM ends by 4 GiB; or the `reg` it writes cannot be read
at all. -/
theorem modifyDt_agrees_iff (hrange : dramRange tools root = some (dramStart, dramEnd)) (hend : image.ritmEnd ≤ dramEnd)
    (hmax : dramEnd ≤ 2 ^ 40) (hmod : modifyDt tools sharedAlloc image root = some (root', buffer)) :
    Agrees tools image b root' ↔ (∀ x, Kept tools image root dramStart x → GuestDram image x) ∧
      ((tools.addressCells root = 2 ∧ tools.sizeCells root = 2 ∧ dramEnd ≤ 0x100000000) ∨
        tools.addressCells root + tools.sizeCells root = 3) := by
  obtain ⟨hstart, hend32, -⟩ := configure_ok_image hcfg
  have hlt := image.ritmStart_lt_ritmEnd
  obtain ⟨memory, rest, hfirst⟩ := firstRange_of_dramRange hrange
  have hcells := hfirst.cells (by omega)
  have hafter := described_after_iff (by omega) hrange hmod
  have hagrees : Agrees tools image b root' ↔
      (∀ x, InRanges (rewritten tools image root dramStart dramEnd) x → GuestDram image x) ∧
        ∀ x, Kept tools image root dramStart x → GuestDram image x := by
    unfold Agrees
    simp only [guestDram_iff hcfg, hafter]
    exact ⟨fun h => ⟨fun x hx => h x (.inl hx), fun x hx => h x (.inr hx)⟩, fun h x hx => hx.elim (h.1 x) (h.2 x)⟩
  rw [hagrees, and_comm]
  refine and_congr_right fun _ => ?_
  rcases hcells with ⟨ha, hs⟩ | hthree | ⟨ha, hs⟩ | ⟨ha, -⟩
  · have hwritten := inRanges_rewritten_two_two (Nat.le_of_lt hstart) hend ha hs hfirst.lt
    constructor
    · intro h
      refine .inl ⟨ha, hs, Nat.le_of_not_lt fun hgt => ?_⟩
      have hguest := h 0x100000000 ((hwritten _).2 (by unfold dramStart Image.Contains at *; omega))
      unfold GuestDram at hguest
      omega
    · rintro (⟨-, -, hle⟩ | hthree) x hx
      · have hx := (hwritten x).1 hx
        unfold GuestDram
        unfold Image.Contains at hx
        omega
      · omega
  · rw [rewritten_three hthree]
    exact iff_of_true (fun x hx => absurd hx (not_inRanges_nil x)) (.inr hthree)
  · -- the lower node is read as memory at address 0
    refine iff_of_false (fun h => ?_) (by omega)
    have hzero : InRanges (rewritten tools image root dramStart dramEnd) 0 := by
      unfold rewritten
      rw [ha, hs, readAs_one_one, inRanges_append, inRanges_cons]
      exact .inl (.inl (by decide))
    have hguest := h 0 hzero
    unfold GuestDram dramStart at hguest
    omega
  · have hlt := hfirst.start_lt
    rw [ha] at hlt
    exact absurd hlt (by decide)

end Agreement

/-! ## Exactness -/

/-- What the input must be like, by its cell counts.  Only the first case is what the code was written for; in the
others the nodes that are kept have to describe what the two nodes are not read as. -/
def TreeFits (tools : Dtoolkit) (image : Image) (root : DtNode) (start dramEnd : Nat) : Prop :=
  (tools.addressCells root = 2 ∧ tools.sizeCells root = 2 ∧
    ∀ x, Dropped tools image root start x → (start ≤ x ∧ x < dramEnd) ∨ Kept tools image root start x) ∨
  (tools.addressCells root + tools.sizeCells root = 3 ∧
    ∀ x, (start ≤ x ∧ x < dramEnd) ∨ Dropped tools image root start x →
      image.Contains x ∨ Kept tools image root start x) ∨
  (tools.addressCells root = 1 ∧ tools.sizeCells root = 1 ∧ 2 ^ 32 ≤ image.ritmEnd ∧
    (∀ x < start, Dropped tools image root start x ∨ Kept tools image root start x) ∧
    ∀ x, (start ≤ x ∧ x < dramEnd) ∨ Dropped tools image root start x → max start (image.ritmStart - start) ≤ x →
      image.Contains x ∨ Kept tools image root start x)

theorem without_iff {range dropped kept written hole : Nat → Prop} :
    (∀ x, written x ∨ kept x ↔ (range x ∨ dropped x ∨ kept x) ∧ ¬ hole x) ↔
      (∀ x, kept x → ¬ hole x) ∧ (∀ x, written x → ¬ hole x) ∧ (∀ x, written x → range x ∨ dropped x ∨ kept x) ∧
        ∀ x, range x ∨ dropped x → hole x ∨ written x ∨ kept x := by
  constructor
  · intro h
    refine ⟨fun x hk => ((h x).1 (.inr hk)).2, fun x hw => ((h x).1 (.inl hw)).2, fun x hw => ((h x).1 (.inl hw)).1,
      fun x hx => ?_⟩
    by_cases hhole : hole x
    · exact .inl hhole
    · exact .inr ((h x).2 ⟨hx.imp id .inl, hhole⟩)
  · rintro ⟨hkept, hout, hin, hall⟩ x
    constructor
    · rintro (hw | hk)
      · exact ⟨hin x hw, hout x hw⟩
      · exact ⟨.inr (.inr hk), hkept x hk⟩
    · rintro ⟨hr | hd | hk, hhole⟩
      · exact (hall x (.inl hr)).resolve_left hhole
      · exact (hall x (.inr hd)).resolve_left hhole
      · exact .inr hk

/-- What is left of exactness once the nodes that are kept do not meet the image: what is read of the two nodes that were
written is not the image, was described before, and covers what was rewritten and dropped. -/
structure RewriteExact (tools : Dtoolkit) (image : Image) (root : DtNode) (start dramEnd : Nat) : Prop where
  hides : ∀ x, InRanges (rewritten tools image root start dramEnd) x → ¬ image.Contains x
  known : ∀ x, InRanges (rewritten tools image root start dramEnd) x →
    (start ≤ x ∧ x < dramEnd) ∨ Dropped tools image root start x ∨ Kept tools image root start x
  covers : ∀ x, (start ≤ x ∧ x < dramEnd) ∨ Dropped tools image root start x →
    image.Contains x ∨ InRanges (rewritten tools image root start dramEnd) x ∨ Kept tools image root start x

section Exactness

variable (hstart : start ≤ image.ritmStart) (hend : image.ritmEnd ≤ dramEnd)

include hstart hend

theorem rewriteExact_two_two (ha : tools.addressCells root = 2) (hs : tools.sizeCells root = 2)
    (hmax : dramEnd < 2 ^ 64) :
    RewriteExact tools image root start dramEnd ↔ TreeFits tools image root start dramEnd := by
  have hwritten := inRanges_rewritten_two_two hstart hend ha hs hmax
  have hin : ∀ x, image.Contains x → start ≤ x ∧ x < dramEnd := fun x hx =>
    ⟨Nat.le_trans hstart hx.1, Nat.lt_of_lt_of_le hx.2 hend⟩
  constructor
  · intro h
    refine .inl ⟨ha, hs, fun x hd => ?_⟩
    rcases h.covers x (.inr hd) with hi | hw | hk
    · exact .inl (hin x hi)
    · exact .inl ((hwritten x).1 hw).1
    · exact .inr hk
  · rintro (⟨-, -, hdropped⟩ | ⟨hthree, -⟩ | ⟨hone, -⟩)
    · refine ⟨fun x hw => ((hwritten x).1 hw).2, fun x hw => .inl ((hwritten x).1 hw).1, fun x hx => ?_⟩
      by_cases hi : image.Contains x
      · exact .inl hi
      · exact .inr ((hx.elim .inl (hdropped x)).imp (fun hr => (hwritten x).2 ⟨hr, hi⟩) id)
    · omega
    · omega

omit hstart hend in
theorem rewriteExact_three (hthree : tools.addressCells root + tools.sizeCells root = 3) :
    RewriteExact tools image root start dramEnd ↔ TreeFits tools image root start dramEnd := by
  -- nothing is read of what was written
  have hwritten : ∀ x, ¬ InRanges (rewritten tools image root start dramEnd) x := by
    rw [rewritten_three hthree]
    exact not_inRanges_nil
  constructor
  · intro h
    exact .inr (.inl ⟨hthree, fun x hx => (h.covers x hx).imp id fun hw => hw.resolve_left (hwritten x)⟩)
  · rintro (⟨ha, hs, -⟩ | ⟨-, hall⟩ | ⟨ha, hs, -⟩)
    · omega
    · exact ⟨fun x hw => absurd hw (hwritten x), fun x hw => absurd hw (hwritten x),
        fun x hx => (hall x hx).imp id .inr⟩
    · omega

theorem rewriteExact_one_one (ha : tools.addressCells root = 1) (hs : tools.sizeCells root = 1)
    (hlt : start < 2 ^ 32) (hsize : dramEnd < start + 2 ^ 32) (hpast : 2 ^ 32 ≤ image.ritmEnd) :
    RewriteExact tools image root start dramEnd ↔ TreeFits tools image root start dramEnd := by
  have hpos := image.ritmStart_lt_ritmEnd
  have hwritten := inRanges_rewritten_one_one hstart hend ha hs hlt hsize hpast
  constructor
  · intro h
    refine .inr (.inr ⟨ha, hs, hpast, fun x hx => ?_, fun x hx hge => ?_⟩)
    · rcases h.known x ((hwritten x).2 (by omega)) with hr | hd
      · omega
      · exact hd
    · refine (h.covers x hx).imp id fun hw => hw.resolve_left fun hw => ?_
      exact Nat.not_lt.2 hge ((hwritten x).1 hw)
  · rintro (⟨h2, -⟩ | ⟨hthree, -⟩ | ⟨-, -, -, hbelow, hall⟩)
    · omega
    · omega
    · refine ⟨fun x hw hi => ?_, fun x hw => ?_, fun x hx => ?_⟩
      · have hw := (hwritten x).1 hw
        unfold Image.Contains at hi
        omega
      · have hw := (hwritten x).1 hw
        by_cases hx : x < start
        · exact .inr (hbelow x hx)
        · exact .inl (by omega)
      · by_cases hge : max start (image.ritmStart - start) ≤ x
        · exact (hall x hx hge).imp id .inr
        · exact .inr (.inl ((hwritten x).2 (Nat.lt_of_not_le hge)))

omit hstart hend in
theorem not_rewriteExact (hleaks : InRanges (rewritten tools image root start dramEnd) image.ritmStart) :
    ¬ RewriteExact tools image root start dramEnd :=
  fun h => h.hides _ hleaks ⟨Nat.le_refl _, image.ritmStart_lt_ritmEnd⟩

theorem rewriteExact_iff {memory : DtNode} {rest : List (Nat × Nat)}
    (hfirst : FirstRange tools root start dramEnd memory rest) :
    RewriteExact tools image root start dramEnd ↔ TreeFits tools image root start dramEnd := by
  have hlt := image.ritmStart_lt_ritmEnd
  have haddress := hfirst.start_lt
  have hsize := hfirst.size_lt
  rcases hfirst.cells (by omega) with ⟨ha, hs⟩ | hthree | ⟨ha, hs⟩ | ⟨ha, hs⟩
  · exact rewriteExact_two_two hstart hend ha hs hfirst.lt
  · exact rewriteExact_three hthree
  · rw [ha] at haddress
    rw [hs] at hsize
    by_cases hpast : 2 ^ 32 ≤ image.ritmEnd
    · have hle := hfirst.le
      exact rewriteExact_one_one hstart hend ha hs haddress (by omega) hpast
    · refine iff_of_false (not_rewriteExact (leaks_one_one hstart hend ha hs (by omega))) ?_
      rintro (⟨h2, -⟩ | ⟨hthree, -⟩ | ⟨-, -, hpast', -⟩) <;> omega
  · rw [ha] at haddress
    rw [Nat.lt_one_iff.1 haddress, Nat.sub_zero] at hsize
    refine iff_of_false (not_rewriteExact (leaks_zero hend ha rfl hs hsize)) ?_
    rintro (⟨h2, -⟩ | ⟨hthree, -⟩ | ⟨hone, -⟩) <;> omega

end Exactness

/-- **The rewrite loses no memory and leaks none exactly when** no memory node it keeps meets the image, and what it
drops is described by the rest of the tree (with two cells each; with other cells, see `TreeFits`). -/
theorem modifyDt_exact_iff (hrange : dramRange tools root = some (start, dramEnd)) (hstart : start ≤ image.ritmStart)
    (hend : image.ritmEnd ≤ dramEnd) (hmod : modifyDt tools sharedAlloc image root = some (root', buffer)) :
    (∀ x, Described tools root' x ↔ Described tools root x ∧ ¬ image.Contains x) ↔
      (∀ x, Kept tools image root start x → ¬ image.Contains x) ∧ TreeFits tools image root start dramEnd := by
  have hlt := image.ritmStart_lt_ritmEnd
  obtain ⟨memory, rest, hfirst⟩ := firstRange_of_dramRange hrange
  have hcells := hfirst.cells (by omega)
  have hbefore : ∀ x, Described tools root x ↔ _ := described_before_iff image hfirst
  simp only [described_after_iff (show 0 < tools.addressCells root + tools.sizeCells root by omega) hrange hmod, hbefore]
  rw [without_iff, ← rewriteExact_iff hstart hend hfirst]
  exact and_congr_right fun _ => ⟨fun h => ⟨h.1, h.2.1, h.2.2⟩, fun h => ⟨h.hides, h.known, h.covers⟩⟩

/-! ## Trees -/

def oneNodeTree (memory : DtNode) : DtNode :=
  .node [] [("#address-cells", toBe 4 2), ("#size-cells", toBe 4 2)] [memory]

def dramTree (size : Nat) : DtNode := oneNodeTree (memoryNode dramStart size)

/-- A gigabyte below 2 GiB and another at 4 GiB, as two ranges of one node. -/
def splitDramNode : DtNode :=
  .node (memoryNodeName dramStart)
    [("reg", toBe 8 dramStart ++ (toBe 8 0x40000000 ++ (toBe 8 0x100000000 ++ (toBe 8 0x40000000 ++ []))))] []

def splitDramTree : DtNode := oneNodeTree splitDramNode

section Trees

variable {memory : DtNode} (hname : memory.name = memoryNodeName dramStart)

include hname

theorem child_oneNodeTree : specDtoolkit.child (oneNodeTree memory) (memoryNodeName dramStart) = some memory := by
  have hmatches : nameMatches (memoryNodeName dramStart) memory.name = true := by
    rw [nameMatches, if_pos (contains_memoryNodeName dramStart), hname]
    exact beq_self_eq_true _
  show [memory].find? (fun c => nameMatches (memoryNodeName dramStart) c.name) = some memory
  exact List.find?_cons_of_pos hmatches

theorem not_kept_oneNodeTree (x : Nat) : ¬ Kept specDtoolkit image (oneNodeTree memory) start x := by
  rintro ⟨c, hc, -, hkept, -⟩
  rw [List.mem_singleton.1 hc, hname] at hkept
  exact hkept.1 rfl

end Trees

theorem reg_dramTree (size : Nat) : specDtoolkit.reg (dramTree size) (memoryNode dramStart size) =
    some [⟨toBe 8 dramStart, toBe 8 size⟩] :=
  decodeReg_singleton (a := 2) (s := 2) (by decide) (toBe_length 8 _) (toBe_length 8 _)

theorem dramRange_dramTree {size : Nat} (h : dramStart + size < 2 ^ 64) :
    dramRange specDtoolkit (dramTree size) = some (dramStart, dramStart + size) := by
  have hvalue : ∀ v < 2 ^ 64, specDtoolkit.toU64 (toBe 8 v) = some (BitVec.ofNat 64 v) := fun v hv => by
    rw [specDtoolkit.toU64_eq (Nat.le_of_eq (toBe_length 8 v)), ofBe_toBe, Nat.mod_eq_of_lt (by omega)]
  have hsize : (BitVec.ofNat 64 size).toNat = size := by rw [BitVec.toNat_ofNat, Nat.mod_eq_of_lt (by omega)]
  have hstart : (BitVec.ofNat 64 dramStart).toNat = dramStart := rfl
  have hchild : specDtoolkit.child (dramTree size) (memoryNodeName dramStart) = some (memoryNode dramStart size) :=
    child_oneNodeTree rfl
  unfold dramRange
  simp only [hchild, reg_dramTree,
    hvalue dramStart (by decide), hvalue size (by omega), hsize, hstart, if_pos h]

theorem configure_alignedImage : ∃ b : Stage2Builder RegionTable U64,
    configureMemoryAccess alignedImage Stage2Builder.new = some (.ok (), b) ∧
      IdMap.lookup b.idmap 0x100000000 = none := by
  have hrun : (configureMemoryAccess alignedImage (Stage2Builder.new : Stage2Builder RegionTable U64)).map
      (fun x => (x.1.toBool, IdMap.lookup x.2.idmap 0x100000000)) = some (true, none) := rfl
  obtain ⟨⟨result, b⟩, hrun, heq⟩ := Option.map_eq_some_iff.1 hrun
  obtain ⟨hok, hl⟩ := Prod.mk.inj heq
  cases result with
  | error e => cases hok
  | ok u => exact ⟨b, hrun, hl⟩

theorem modifyDt_agrees_iff_two_gib : ∃ (b : Stage2Builder RegionTable U64) (root' : DtNode) (buffer : Nat),
    configureMemoryAccess alignedImage Stage2Builder.new = some (.ok (), b) ∧
      modifyDt specDtoolkit (fun size => some size) alignedImage (dramTree 0x80000000) = some (root', buffer) ∧
      Agrees specDtoolkit alignedImage b root' := by
  obtain ⟨b, hb, -⟩ := configure_alignedImage
  have hrange : dramRange specDtoolkit (dramTree 0x80000000) = some (dramStart, dramStart + 0x80000000) :=
    dramRange_dramTree (by decide)
  obtain ⟨⟨root', buffer⟩, hmod⟩ := Option.isSome_iff_exists.1 (show
    (modifyDt specDtoolkit (fun size => some size) alignedImage (dramTree 0x80000000)).isSome = true by decide +kernel)
  refine ⟨b, root', buffer, hb, hmod, (modifyDt_agrees_iff hb hrange (by decide) (by decide) hmod).2 ⟨fun x hx => ?_, ?_⟩⟩
  · exact absurd hx (not_kept_oneNodeTree rfl x)
  · exact .inl ⟨rfl, rfl, by decide⟩

/-- With 4 GiB of DRAM the payload is told of a gigabyte above 4 GiB, which is not mapped. -/
theorem modifyDt_advertises_unmapped : ∃ (b : Stage2Builder RegionTable U64) (root' : DtNode) (buffer : Nat),
    configureMemoryAccess alignedImage Stage2Builder.new = some (.ok (), b) ∧
      dramRange specDtoolkit (dramTree 0x100000000) = some (dramStart, dramStart + 0x100000000) ∧
      modifyDt specDtoolkit (fun size => some size) alignedImage (dramTree 0x100000000) = some (root', buffer) ∧
      Described specDtoolkit root' 0x100000000 ∧ IdMap.lookup b.idmap 0x100000000 = none ∧
      ¬ Agrees specDtoolkit alignedImage b root' := by
  obtain ⟨b, hb, hl⟩ := configure_alignedImage
  have hrange : dramRange specDtoolkit (dramTree 0x100000000) = some (dramStart, dramStart + 0x100000000) :=
    dramRange_dramTree (by decide)
  obtain ⟨⟨root', buffer⟩, hmod⟩ := Option.isSome_iff_exists.1 (show
    (modifyDt specDtoolkit (fun size => some size) alignedImage (dramTree 0x100000000)).isSome = true by decide +kernel)
  have hdescribed : Described specDtoolkit root' 0x100000000 := by
    refine (described_after_iff (by decide) hrange hmod _).2 (.inl ?_)
    refine (inRanges_rewritten_two_two (by decide) (by decide) rfl rfl (by decide) _).2 ⟨by decide, fun hin => ?_⟩
    exact absurd hin.2 (by decide)
  refine ⟨b, root', buffer, hb, hrange, hmod, hdescribed, hl, fun h => ?_⟩
  cases hl.symm.trans (h _ hdescribed).2.1

theorem modifyDt_exact_iff_two_gib : ∃ (root' : DtNode) (buffer : Nat),
    modifyDt specDtoolkit (fun size => some size) alignedImage (dramTree 0x80000000) = some (root', buffer) ∧
      ∀ x, Described specDtoolkit root' x ↔
        Described specDtoolkit (dramTree 0x80000000) x ∧ ¬ alignedImage.Contains x := by
  have hrange : dramRange specDtoolkit (dramTree 0x80000000) = some (dramStart, dramStart + 0x80000000) :=
    dramRange_dramTree (by decide)
  have hchild : specDtoolkit.child (dramTree 0x80000000) (memoryNodeName dramStart) = some _ := child_oneNodeTree rfl
  obtain ⟨⟨root', buffer⟩, hmod⟩ := Option.isSome_iff_exists.1 (show
    (modifyDt specDtoolkit (fun size => some size) alignedImage (dramTree 0x80000000)).isSome = true by decide +kernel)
  refine ⟨root', buffer, hmod, (modifyDt_exact_iff hrange (by decide) (by decide) hmod).2 ⟨fun x hx => ?_, ?_⟩⟩
  · exact absurd hx (not_kept_oneNodeTree rfl x)
  · refine .inl ⟨rfl, rfl, fun x hx => ?_⟩
    -- the node has one range, and there is no other node
    obtain ⟨memory, hmemory, hx⟩ := hx
    cases hchild.symm.trans hmemory
    rcases hx with hx | ⟨c, hc, hne, -⟩
    · rw [Dtoolkit.ranges, reg_dramTree] at hx
      exact absurd hx (not_inRanges_nil x)
    · exact absurd (List.mem_singleton.1 hc) hne

theorem reg_splitDramTree : specDtoolkit.reg splitDramTree splitDramNode =
    some [⟨toBe 8 dramStart, toBe 8 0x40000000⟩, ⟨toBe 8 0x100000000, toBe 8 0x40000000⟩] := by
  have hdecode : decodeReg 2 2 (toBe 8 dramStart ++ (toBe 8 0x40000000 ++ (toBe 8 0x100000000 ++ (toBe 8 0x40000000 ++
      [])))) = some [⟨toBe 8 dramStart, toBe 8 0x40000000⟩, ⟨toBe 8 0x100000000, toBe 8 0x40000000⟩] := by
    rw [@decodeReg_of_length 2 2 2 _ (by decide) (by simp), regEntries_succ 1 _ (toBe_length 8 _) (toBe_length 8 _),
      regEntries_succ 0 _ (toBe_length 8 _) (toBe_length 8 _)]
    rfl
  exact hdecode

/-- The memory at 4 GiB was described before, is not the image's, and is gone afterwards. -/
theorem modifyDt_loses_second_range : ∃ (root' : DtNode) (buffer : Nat),
    dramRange specDtoolkit splitDramTree = some (dramStart, 0x80000000) ∧
    modifyDt specDtoolkit (fun size => some size) alignedImage splitDramTree = some (root', buffer) ∧
    Described specDtoolkit splitDramTree 0x100000000 ∧ ¬ alignedImage.Contains 0x100000000 ∧
      ¬ Described specDtoolkit root' 0x100000000 := by
  have hchild : specDtoolkit.child splitDramTree (memoryNodeName dramStart) = some splitDramNode :=
    child_oneNodeTree rfl
  have hrange : dramRange specDtoolkit splitDramTree = some (dramStart, 0x80000000) := by
    unfold dramRange
    simp only [hchild, reg_splitDramTree]
    decide +kernel
  obtain ⟨⟨root', buffer⟩, hmod⟩ := Option.isSome_iff_exists.1 (show
    (modifyDt specDtoolkit (fun size => some size) alignedImage splitDramTree).isSome = true by decide +kernel)
  refine ⟨root', buffer, hrange, hmod, ⟨_, List.mem_singleton_self _, isMemoryName_memoryNodeName dramStart, ?_⟩,
    fun h => absurd h.2 (by decide), fun hx => ?_⟩
  · rw [Dtoolkit.ranges, reg_splitDramTree]
    exact ⟨(0x100000000, 0x40000000), by decide +kernel, by decide, by decide⟩
  · rcases (described_after_iff (by decide) hrange hmod _).1 hx with hx | hx
    · exact absurd ((inRanges_rewritten_two_two (by decide) (by decide) rfl rfl (by decide) _).1 hx).1.2 (by decide)
    · exact not_kept_oneNodeTree rfl _ hx

end Qemu
end Ritm
