import Ritm.DeviceTree
import Ritm.QemuLayout
/-!
# QemuDeviceTree — the memory the payload is told of

`modify_dt` replaces the memory node by two, around the image, and writes each `reg` as a 64-bit address and a 64-bit
size whatever the tree's cell counts are.  The addresses a tree described are the first range of its memory node, what
the rewrite drops (the node's further ranges, and nodes whose names it takes) and the memory nodes it keeps; afterwards
they are what its two nodes are read as and the nodes it keeps.
-/
namespace Ritm
namespace Qemu

open Lib (toBe ofBe toBe_length toBe_add ofBe_toBe ofBe_lt_of_length_le)

def memoryNodeName (address : Nat) : List Char := "memory@".toList ++ hexDigits address

/-- The first range of the memory node, as start and end; `none` is one of the `expect`s or an overflow. -/
def dramRange (tools : Dtoolkit) (fdt : DtNode) : Option (Nat × Nat) :=
  match tools.child fdt (memoryNodeName dramStart) with
  | none => none
  | some memory =>
    match tools.reg fdt memory with
    | some (reg :: _) =>
      match tools.toU64 reg.address, tools.toU64 reg.size with
      | some start, some size =>
        if start.toNat + size.toNat < 2 ^ 64 then some (start.toNat, start.toNat + size.toNat) else none
      | _, _ => none
    | _ => none

def memoryDeviceType : List U8 := [0x6d, 0x65, 0x6d, 0x6f, 0x72, 0x79, 0]

def memoryNode (start size : Nat) : DtNode :=
  .node (memoryNodeName start) [("reg", toBe 8 start ++ toBe 8 size), ("device_type", memoryDeviceType)] []

/-- The tree for the payload, and the buffer `sharedAlloc` gave for its bytes. -/
def modifyDt {B : Type} (tools : Dtoolkit) (sharedAlloc : Nat → Option B) (image : Image) (fdt : DtNode) :
    Option (DtNode × B) :=
  match dramRange tools fdt with
  | none => none
  | some (dramStart', dramEnd) =>
    checkedSub image.ritmStart dramStart' fun lowerSize =>
    checkedSub dramEnd image.ritmEnd fun upperSize =>
    match tools.removeChild fdt (memoryNodeName dramStart) with
    | none => none
    | some root =>
      let root := tools.addChild root (memoryNode dramStart' lowerSize)
      let root := tools.addChild root (memoryNode image.ritmEnd upperSize)
      let newDtb := tools.toDtb root
      match sharedAlloc newDtb.length with
      | none => none
      | some sharedDtb => (tools.fromRaw newDtb).map (fun newFdt => (newFdt, sharedDtb))

/-! ## Described addresses -/

def InRanges (ranges : List (Nat × Nat)) (x : Nat) : Prop := ∃ r ∈ ranges, r.1 ≤ x ∧ x < r.1 + r.2

def IsMemoryName (name : List Char) : Prop := name = "memory".toList ∨ ∃ address, name = "memory@".toList ++ address

/-- **The addresses the root's memory nodes describe**, decoded by its cell counts. -/
def Described (tools : Dtoolkit) (root : DtNode) (x : Nat) : Prop :=
  ∃ c ∈ root.children, IsMemoryName c.name ∧ InRanges (tools.ranges root c) x

def Image.Contains (image : Image) (x : Nat) : Prop := image.ritmStart ≤ x ∧ x < image.ritmEnd

/-- A node that the rewrite neither removes nor replaces. -/
def IsKept (image : Image) (start : Nat) (name : List Char) : Prop :=
  name ≠ memoryNodeName dramStart ∧ name ≠ memoryNodeName start ∧ name ≠ memoryNodeName image.ritmEnd

def Kept (tools : Dtoolkit) (image : Image) (root : DtNode) (start x : Nat) : Prop :=
  ∃ c ∈ root.children, IsMemoryName c.name ∧ IsKept image start c.name ∧ InRanges (tools.ranges root c) x

/-- The further ranges of the memory node, and the other nodes whose names the rewrite takes. -/
def Dropped (tools : Dtoolkit) (image : Image) (root : DtNode) (start x : Nat) : Prop :=
  ∃ memory, tools.child root (memoryNodeName dramStart) = some memory ∧
    (InRanges ((tools.ranges root memory).drop 1) x ∨
      ∃ c ∈ root.children, c ≠ memory ∧ ¬ IsKept image start c.name ∧ InRanges (tools.ranges root c) x)

/-- What a `reg` that `modify_dt` writes is read as, with `a` address and `s` size cells. -/
def readAs (a s start size : Nat) : List (Nat × Nat) :=
  ((decodeReg a s (toBe 8 start ++ toBe 8 size)).getD []).map Reg.range

theorem isMemoryName_memoryNodeName (address : Nat) : IsMemoryName (memoryNodeName address) := .inr ⟨_, rfl⟩

theorem contains_memoryNodeName (address : Nat) : (memoryNodeName address).contains '@' = true := by
  have hat : '@' ∈ "memory@".toList := by decide
  unfold memoryNodeName
  exact List.contains_iff_mem.2 (List.mem_append_left _ hat)

theorem inRanges_append (l l' : List (Nat × Nat)) (x : Nat) : InRanges (l ++ l') x ↔ InRanges l x ∨ InRanges l' x := by
  unfold InRanges
  simp only [List.mem_append, or_and_right, exists_or]

theorem inRanges_cons (r : Nat × Nat) (l : List (Nat × Nat)) (x : Nat) :
    InRanges (r :: l) x ↔ (r.1 ≤ x ∧ x < r.1 + r.2) ∨ InRanges l x := by
  unfold InRanges
  simp only [List.mem_cons, or_and_right, exists_or, exists_eq_left]

theorem not_inRanges_nil (x : Nat) : ¬ InRanges [] x := by
  rintro ⟨r, hr, -⟩
  cases hr

/-! ## What the payload reads -/

theorem readAs_two_two {start size : Nat} (hstart : start < 256 ^ 8) (hsize : size < 256 ^ 8) :
    readAs 2 2 start size = [(start, size)] := by
  have hrange : Reg.range ⟨toBe 8 start, toBe 8 size⟩ = (start, size) := by
    rw [Reg.range, ofBe_toBe, ofBe_toBe, Nat.mod_eq_of_lt hstart, Nat.mod_eq_of_lt hsize]
  rw [readAs, decodeReg_singleton (by decide) (toBe_length 8 start) (toBe_length 8 size), Option.getD_some,
    List.map_singleton, hrange]

/-- With one cell each, the halves of each number are read as an address and a size. -/
theorem readAs_one_one (start size : Nat) : readAs 1 1 start size =
    [(start / 256 ^ 4 % 256 ^ 4, start % 256 ^ 4), (size / 256 ^ 4 % 256 ^ 4, size % 256 ^ 4)] := by
  have hrange : ∀ v, Reg.range ⟨toBe 4 (v / 256 ^ 4), toBe 4 v⟩ = (v / 256 ^ 4 % 256 ^ 4, v % 256 ^ 4) := fun v => by
    rw [Reg.range, ofBe_toBe, ofBe_toBe]
  have hsize := @regEntries_succ 1 1 0 _ _ [] (toBe_length 4 (size / 256 ^ 4)) (toBe_length 4 size)
  rw [List.append_nil] at hsize
  rw [readAs, toBe_add 4 start 4, toBe_add 4 size 4, @decodeReg_of_length 1 1 2 _ (by decide) (by simp),
    List.append_assoc, regEntries_succ 1 _ (toBe_length 4 _) (toBe_length 4 _), hsize, Option.getD_some, List.map_cons,
    List.map_cons, hrange, hrange]
  rfl

theorem readAs_three {a s : Nat} (h : a + s = 3) (start size : Nat) : readAs a s start size = [] := by
  unfold readAs decodeReg
  rw [if_neg (by rw [List.length_append, toBe_length, toBe_length, h]; decide)]
  rfl

theorem readAs_zero {s start : Nat} (hs : s = 1 ∨ s = 2) (hstart : start < 256 ^ (4 * s)) (size : Nat) :
    (0, start) ∈ readAs 0 s start size := by
  unfold readAs
  obtain rfl | rfl := hs
  · have hhigh := @regEntries_succ 0 1 3 [] (toBe 4 (start / 256 ^ 4)) (toBe 4 start ++ toBe 8 size) rfl (toBe_length 4 _)
    have hlow := @regEntries_succ 0 1 2 [] (toBe 4 start) (toBe 8 size) rfl (toBe_length 4 _)
    rw [List.nil_append] at hhigh hlow
    have hrange : Reg.range ⟨[], toBe 4 start⟩ = (0, start) := by
      rw [Reg.range, ofBe_toBe, Nat.mod_eq_of_lt hstart]
      rfl
    rw [toBe_add 4 start 4, @decodeReg_of_length 0 1 4 _ (by decide) (by simp), List.append_assoc, hhigh, hlow,
      Option.getD_some, List.map_cons, List.map_cons, hrange]
    exact List.mem_cons_of_mem _ List.mem_cons_self
  · have h := @regEntries_succ 0 2 1 [] (toBe 8 start) (toBe 8 size) rfl (toBe_length 8 _)
    rw [List.nil_append] at h
    have hrange : Reg.range ⟨[], toBe 8 start⟩ = (0, start) := by
      rw [Reg.range, ofBe_toBe, Nat.mod_eq_of_lt hstart]
      rfl
    rw [@decodeReg_of_length 0 2 2 _ (by decide) (by simp), h, Option.getD_some, List.map_cons, hrange]
    exact List.mem_cons_self

theorem ranges_memoryNode {tools : Dtoolkit} {root : DtNode}
    (hpos : 0 < tools.addressCells root + tools.sizeCells root) (start size : Nat) :
    tools.ranges root (memoryNode start size) = readAs (tools.addressCells root) (tools.sizeCells root) start size := by
  have hreg : (memoryNode start size).property "reg" = some (toBe 8 start ++ toBe 8 size) := rfl
  rw [Dtoolkit.ranges_eq hpos, hreg]
  rfl

/-! ## The rewrite -/

section Rewrite

variable {B : Type} {tools : Dtoolkit} {sharedAlloc : Nat → Option B} {image : Image} {root root' : DtNode}
  {start dramEnd : Nat} {buffer : B}

/-- Where `dram_range` finds the range it returns; more than two cells are one of its panics. -/
structure FirstRange (tools : Dtoolkit) (root : DtNode) (start dramEnd : Nat) (memory : DtNode)
    (rest : List (Nat × Nat)) : Prop where
  child : tools.child root (memoryNodeName dramStart) = some memory
  ranges : tools.ranges root memory = (start, dramEnd - start) :: rest
  le : start ≤ dramEnd
  lt : dramEnd < 2 ^ 64
  address_le : tools.addressCells root ≤ 2
  size_le : tools.sizeCells root ≤ 2
  start_lt : start < 256 ^ (4 * tools.addressCells root)
  size_lt : dramEnd - start < 256 ^ (4 * tools.sizeCells root)

theorem firstRange_of_dramRange (h : dramRange tools root = some (start, dramEnd)) :
    ∃ memory rest, FirstRange tools root start dramEnd memory rest := by
  unfold dramRange at h
  split at h
  · cases h
  rename_i memory hchild
  split at h
  · rename_i reg regs hreg
    split at h
    · rename_i start' size' hstart hsize
      split at h
      · rename_i hlt
        cases h
        obtain ⟨ha, hs⟩ := tools.reg_cells hreg reg List.mem_cons_self
        obtain ⟨hlea, hstart'⟩ := Dtoolkit.toU64_eq_some hstart
        obtain ⟨hles, hsize'⟩ := Dtoolkit.toU64_eq_some hsize
        have hsub : start'.toNat + size'.toNat - start'.toNat = size'.toNat := by omega
        refine ⟨memory, regs.map Reg.range, hchild, ?_, by omega, hlt, ?_, ?_, ?_, ?_⟩
        · rw [hsub, Dtoolkit.ranges, hreg, hstart', hsize']
          rfl
        · rw [ha] at hlea
          unfold Dtoolkit.addressCells
          omega
        · rw [hs] at hles
          unfold Dtoolkit.sizeCells
          omega
        · rw [hstart']
          exact ofBe_lt_of_length_le (Nat.le_of_eq ha)
        · rw [hsub, hsize']
          exact ofBe_lt_of_length_le (Nat.le_of_eq hs)
      · cases h
    · cases h
  · cases h

theorem memoryNodeName_injective {a b : Nat} (h : memoryNodeName a = memoryNodeName b) : a = b :=
  hexDigits_injective (List.append_cancel_left h)

/-- **The tree after the rewrite**, child by child. -/
theorem modifyDt_children (hrange : dramRange tools root = some (start, dramEnd))
    (hmod : modifyDt tools sharedAlloc image root = some (root', buffer)) :
    root'.properties = root.properties ∧ ∀ c, c ∈ root'.children ↔
      c = memoryNode start (image.ritmStart - start) ∨ c = memoryNode image.ritmEnd (dramEnd - image.ritmEnd) ∨
        c ∈ root.children ∧ IsKept image start c.name := by
  unfold modifyDt checkedSub at hmod
  simp only [hrange] at hmod
  split_ifs at hmod with hstart hend
  split at hmod
  · cases hmod
  rename_i removed hremoved
  split at hmod
  · cases hmod
  obtain ⟨newFdt, hread, hnew⟩ := Option.map_eq_some_iff.1 hmod
  cases hnew
  rw [tools.eq_of_fromRaw_toDtb hread]
  obtain ⟨hprops, hchildren⟩ := tools.removeChild_eq_some hremoved
  have hne : memoryNodeName start ≠ memoryNodeName image.ritmEnd := fun h => by
    have heq := memoryNodeName_injective h
    have hlt := image.ritmStart_lt_ritmEnd
    omega
  refine ⟨by rw [tools.properties_addChild, tools.properties_addChild, hprops], fun c => ?_⟩
  rw [tools.mem_addChild, tools.mem_addChild, hchildren]
  have hlower : (memoryNode start (image.ritmStart - start)).name = memoryNodeName start := rfl
  have hupper : (memoryNode image.ritmEnd (dramEnd - image.ritmEnd)).name = memoryNodeName image.ritmEnd := rfl
  rw [hlower, hupper]
  constructor
  · rintro (rfl | ⟨rfl | ⟨⟨hmem, hd⟩, hl⟩, hu⟩)
    · exact .inr (.inl rfl)
    · exact .inl rfl
    · exact .inr (.inr ⟨hmem, hd, hl, hu⟩)
  · rintro (rfl | rfl | ⟨hmem, hd, hl, hu⟩)
    · exact .inr ⟨.inl rfl, hne⟩
    · exact .inl rfl
    · exact .inr ⟨.inr ⟨⟨hmem, hd⟩, hl⟩, hu⟩

theorem described_before_iff (image : Image) {memory : DtNode} {rest : List (Nat × Nat)}
    (hfirst : FirstRange tools root start dramEnd memory rest) (x : Nat) :
    Described tools root x ↔
      (start ≤ x ∧ x < dramEnd) ∨ Dropped tools image root start x ∨ Kept tools image root start x := by
  obtain ⟨hmem, hname⟩ := Dtoolkit.child_of_unit (contains_memoryNodeName dramStart) hfirst.child
  have hnode : InRanges (tools.ranges root memory) x ↔ (start ≤ x ∧ x < dramEnd) ∨ InRanges rest x := by
    have := hfirst.le
    rw [hfirst.ranges, inRanges_cons, Nat.add_sub_cancel' hfirst.le]
  have hdrop : (tools.ranges root memory).drop 1 = rest := by rw [hfirst.ranges]; rfl
  constructor
  · rintro ⟨c, hc, hmemory, hx⟩
    by_cases heq : c = memory
    · subst heq
      rcases hnode.1 hx with hx | hx
      · exact .inl hx
      · exact .inr (.inl ⟨c, hfirst.child, .inl (hdrop ▸ hx)⟩)
    by_cases hkept : IsKept image start c.name
    · exact .inr (.inr ⟨c, hc, hmemory, hkept, hx⟩)
    · exact .inr (.inl ⟨memory, hfirst.child, .inr ⟨c, hc, heq, hkept, hx⟩⟩)
  · rintro (hx | ⟨memory', hchild, hx⟩ | ⟨c, hc, hmemory, -, hx⟩)
    · exact ⟨memory, hmem, hname ▸ isMemoryName_memoryNodeName _, hnode.2 (.inl hx)⟩
    · cases hfirst.child.symm.trans hchild
      rcases hx with hx | ⟨c, hc, -, htaken, hx⟩
      · rw [hdrop] at hx
        exact ⟨memory, hmem, hname ▸ isMemoryName_memoryNodeName _, hnode.2 (.inr hx)⟩
      · refine ⟨c, hc, ?_, hx⟩
        by_contra hmemory
        exact htaken ⟨fun h => hmemory (h ▸ isMemoryName_memoryNodeName _),
          fun h => hmemory (h ▸ isMemoryName_memoryNodeName _), fun h => hmemory (h ▸ isMemoryName_memoryNodeName _)⟩
    · exact ⟨c, hc, hmemory, hx⟩

/-- What the two nodes that `modify_dt` writes are read as, by the tree's cell counts. -/
def rewritten (tools : Dtoolkit) (image : Image) (root : DtNode) (start dramEnd : Nat) : List (Nat × Nat) :=
  readAs (tools.addressCells root) (tools.sizeCells root) start (image.ritmStart - start) ++
    readAs (tools.addressCells root) (tools.sizeCells root) image.ritmEnd (dramEnd - image.ritmEnd)

theorem described_after_iff (hpos : 0 < tools.addressCells root + tools.sizeCells root)
    (hrange : dramRange tools root = some (start, dramEnd))
    (hmod : modifyDt tools sharedAlloc image root = some (root', buffer)) (x : Nat) :
    Described tools root' x ↔
      InRanges (rewritten tools image root start dramEnd) x ∨ Kept tools image root start x := by
  obtain ⟨hprops, hchildren⟩ := modifyDt_children hrange hmod
  have hranges := Dtoolkit.ranges_congr hpos hprops
  unfold rewritten
  rw [inRanges_append, ← ranges_memoryNode hpos, ← ranges_memoryNode hpos]
  constructor
  · rintro ⟨c, hc, hmemory, hx⟩
    rw [hranges] at hx
    rcases (hchildren c).1 hc with rfl | rfl | ⟨hc, hkept⟩
    · exact .inl (.inl hx)
    · exact .inl (.inr hx)
    · exact .inr ⟨c, hc, hmemory, hkept, hx⟩
  · rintro ((hx | hx) | ⟨c, hc, hmemory, hkept, hx⟩)
    · exact ⟨_, (hchildren _).2 (.inl rfl), isMemoryName_memoryNodeName start, by rw [hranges]; exact hx⟩
    · exact ⟨_, (hchildren _).2 (.inr (.inl rfl)), isMemoryName_memoryNodeName image.ritmEnd, by rw [hranges]; exact hx⟩
    · exact ⟨c, (hchildren c).2 (.inr (.inr ⟨hc, hkept⟩)), hmemory, by rw [hranges]; exact hx⟩

end Rewrite

end Qemu
end Ritm
