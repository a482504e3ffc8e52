import Ritm.Assembly
import Ritm.Boot
import Ritm.Lib.Text
import Ritm.FlatDeviceTree
import Ritm.QemuDeviceTree
/-!
# Handover — from `main` to the payload

`main` initialises the heaps, has the platform rewrite the device tree into the shared heap, reads the boot mode from
the new tree's command line and enters the payload, at EL1 behind stage 2 or at EL2.

What `dtoolkit` does to trees is as `Dtoolkit` says.
-/
namespace Ritm

open Lib.Text (splitWhitespace stripPrefix stripPrefix_eq_some Words splitWhitespace_words)

inductive BootMode where
  | el1
  | el2
  deriving DecidableEq, Repr

def fdtAlignment : Nat := 8

/-! ## The boot mode -/

/-- The loop over the arguments; one with an unknown mode is warned of. -/
def bootModeOfArgs : List (List Char) → Option BootMode
  | [] => none
  | arg :: args =>
    match stripPrefix "ritm.boot_mode=".toList arg with
    | some bootMode =>
      if bootMode = "el2".toList then some .el2
      else if bootMode = "el1".toList then some .el1
      else bootModeOfArgs args
    | none => bootModeOfArgs args

namespace Qemu

def readBootModeFromCmd (tools : Dtoolkit) (fdt : DtNode) : Option BootMode :=
  match tools.child fdt "chosen".toList with
  | none => none
  | some chosen =>
    match chosen.property "bootargs" with
    | none => none
    | some value =>
      match tools.asStr value with
      | none => none
      | some args => bootModeOfArgs (splitWhitespace args)

def bootMode (tools : Dtoolkit) (fdt : DtNode) : BootMode := (readBootModeFromCmd tools fdt).getD .el1

def defaultFdtAddress : U64 := toIpa dramStart

def fdtAddress (bootFdtAddress : U64) : U64 := if bootFdtAddress = 0 then defaultFdtAddress else bootFdtAddress

/-! ## `main` -/

/-- How the payload is entered: `run_payload_el1` or `run_payload_el2`, and its arguments. -/
structure Handover where
  bootMode : BootMode
  payloadAddress : U64
  x0 : U64
  x1 : U64
  x2 : U64
  x3 : U64

/-- The buffer `modify_dt` writes a tree of `size` bytes to; `none` is a panic of `expect`. -/
def dtbBuffer (H : Type) [Heap H] (image : Image) (size : Nat) : Option Buffer :=
  -- a layout's size, rounded up to its alignment, fits an `isize`
  if size + (fdtAlignment - 1) < 2 ^ 63 then
    (sharedAlloc (sharedHeapAllocator H image) ⟨size, fdtAlignment, by decide⟩).map Prod.fst
  else none

/-- `main` up to the payload, with the bytes at each address of memory before it; `none` is a panic. -/
def main (H : Type) [Heap H] (tools : Dtoolkit) (memory : U64 → List U8) (image : Image)
    (payloadAddress x0 x1 x2 x3 : U64) : Option Handover :=
  match tools.fromRaw (memory (fdtAddress x0)) with
  | none => none
  | some fdt =>
    match modifyDt tools (dtbBuffer H image) image fdt with
    | none => none
    | some (newFdt, dtb) => some {
        bootMode := bootMode tools newFdt
        payloadAddress := payloadAddress
        x0 := BitVec.ofNat 64 dtb.ptr
        x1 := x1
        x2 := x2
        x3 := x3 }

end Qemu

/-! ## Which boot mode -/

def bootModeOfWord (word : List Char) : Option BootMode :=
  if word = "ritm.boot_mode=el2".toList then some .el2
  else if word = "ritm.boot_mode=el1".toList then some .el1
  else none

theorem bootModeOfArgs_cons (arg : List Char) (args : List (List Char)) :
    bootModeOfArgs (arg :: args) = (bootModeOfWord arg).or (bootModeOfArgs args) := by
  have hel2 : "ritm.boot_mode=el2".toList = "ritm.boot_mode=".toList ++ "el2".toList := by decide
  have hel1 : "ritm.boot_mode=el1".toList = "ritm.boot_mode=".toList ++ "el1".toList := by decide
  rw [bootModeOfArgs, bootModeOfWord, hel1, hel2]
  cases h : stripPrefix "ritm.boot_mode=".toList arg with
  | none =>
    have hno : ∀ mode, arg ≠ "ritm.boot_mode=".toList ++ mode := fun mode harg => by
      rw [stripPrefix_eq_some.2 harg] at h
      cases h
    rw [if_neg (hno _), if_neg (hno _), Option.none_or]
  | some mode =>
    rw [stripPrefix_eq_some.1 h]
    simp only [List.append_cancel_left_eq]
    split_ifs <;> rfl

theorem bootModeOfArgs_eq : ∀ args : List (List Char), bootModeOfArgs args = args.findSome? bootModeOfWord
  | [] => rfl
  | arg :: args => by
    rw [bootModeOfArgs_cons, List.findSome?_cons, bootModeOfArgs_eq args]
    cases bootModeOfWord arg <;> rfl

namespace Qemu

/-- **The boot mode is that of the first word that names one**, among any others and however they are spaced; without
one it is EL1. -/
theorem bootMode_of_words (tools : Dtoolkit) (fdt chosen : DtNode)
    (hchosen : tools.child fdt "chosen".toList = some chosen) (value : List U8)
    (hvalue : chosen.property "bootargs" = some value) (text : List Char) (htext : tools.asStr value = some text) (words : List (List Char)) (hwords : Words words text) :
    bootMode tools fdt = (words.findSome? bootModeOfWord).getD .el1 := by
  unfold bootMode readBootModeFromCmd
  simp only [hchosen, hvalue, htext]
  rw [splitWhitespace_words hwords, bootModeOfArgs_eq]

theorem not_nameMatches_memory (address : Nat) : nameMatches "chosen".toList (memoryNodeName address) = false := by
  unfold nameMatches memoryNodeName
  rw [if_neg (by decide)]
  rfl

/-- The tree has one node called `chosen` at most, with or without a unit address. -/
def OneChosen (fdt : DtNode) : Prop :=
  ∀ c ∈ fdt.children, ∀ c' ∈ fdt.children, nameMatches "chosen".toList c.name = true →
    nameMatches "chosen".toList c'.name = true → c = c'

theorem bootMode_modifyDt {B : Type} {tools : Dtoolkit} {sharedAlloc : Nat → Option B} {image : Image}
    {fdt newFdt : DtNode} {buffer : B} (h : modifyDt tools sharedAlloc image fdt = some (newFdt, buffer))
    (hone : OneChosen fdt) : bootMode tools newFdt = bootMode tools fdt := by
  have hchild : tools.child newFdt "chosen".toList = tools.child fdt "chosen".toList := by
    cases hrange : dramRange tools fdt with
    | none =>
      unfold modifyDt at h
      rw [hrange] at h
      cases h
    | some range =>
      obtain ⟨start, dramEnd⟩ := range
      obtain ⟨-, hchildren⟩ := modifyDt_children hrange h
      refine Dtoolkit.child_congr (fun c hc => ?_) hone
      have hne : ∀ address, c.name ≠ memoryNodeName address := fun address heq => by
        rw [heq, not_nameMatches_memory] at hc
        cases hc
      rw [hchildren]
      constructor
      · rintro (rfl | rfl | ⟨hmem, -⟩)
        · exact absurd rfl (hne start)
        · exact absurd rfl (hne image.ritmEnd)
        · exact hmem
      · exact fun hmem => .inr (.inr ⟨hmem, hne _, hne _, hne _⟩)
  unfold bootMode readBootModeFromCmd
  rw [hchild]

/-! ## What the payload gets -/

end Qemu

/-- **What is relied on**: a heap hands out memory of the alignment it was asked for. -/
class AligningHeap (H : Type) [Heap H] : Prop where
  alloc_aligned {heap heap' : H} {layout : Layout} {ptr : Nat} (h : Heap.alloc heap layout = some (ptr, heap')) :
    ptr % layout.align = 0

instance : AligningHeap BumpHeap where
  alloc_aligned {heap heap' layout ptr} h := by
    simp only [Heap.alloc] at h
    split at h
    · cases h
      exact Nat.mul_mod_left _ _
    · cases h

namespace Qemu

section Main

variable {H : Type} [Heap H]

theorem main_eq_some {tools : Dtoolkit} {memory : U64 → List U8} {image : Image} {payloadAddress x0 x1 x2 x3 : U64}
    {h : Handover} (hmain : main H tools memory image payloadAddress x0 x1 x2 x3 = some h) :
    ∃ fdt newFdt dtb, tools.fromRaw (memory (fdtAddress x0)) = some fdt ∧
      modifyDt tools (dtbBuffer H image) image fdt = some (newFdt, dtb) ∧
      h = ⟨bootMode tools newFdt, payloadAddress, BitVec.ofNat 64 dtb.ptr, x1, x2, x3⟩ := by
  unfold main at hmain
  split at hmain
  · cases hmain
  rename_i fdt hfdt
  split at hmain
  · cases hmain
  rename_i newFdt dtb hnew
  cases hmain
  exact ⟨fdt, newFdt, dtb, hfdt, hnew, rfl⟩

theorem modifyDt_buffer {B : Type} {tools : Dtoolkit} {sharedAlloc : Nat → Option B} {image : Image}
    {fdt newFdt : DtNode} {buffer : B} (h : modifyDt tools sharedAlloc image fdt = some (newFdt, buffer)) :
    sharedAlloc (tools.toDtb newFdt).length = some buffer := by
  unfold modifyDt checkedSub at h
  split at h
  · cases h
  split_ifs at h
  split at h
  · cases h
  dsimp only at h
  split at h
  · cases h
  rename_i hbuffer
  obtain ⟨newFdt, hread, hnew⟩ := Option.map_eq_some_iff.1 h
  cases hnew
  rwa [tools.eq_of_fromRaw_toDtb hread]

theorem dtbBuffer_eq_some {image : Image} {size : Nat} {dtb : Buffer} (h : dtbBuffer H image size = some dtb) :
    dtb.len = size ∧ dtb ∈ (Lib.Object.run sharedAlloc (sharedHeapAllocator H image) [⟨size, fdtAlignment, by decide⟩]).1 ∧
      ∃ heap', Heap.alloc (sharedHeapAllocator H image) ⟨size, fdtAlignment, by decide⟩ = some (dtb.ptr, heap') := by
  unfold dtbBuffer at h
  split at h
  · obtain ⟨⟨buffer, heap'⟩, halloc, rfl⟩ := Option.map_eq_some_iff.1 h
    have hrun : buffer ∈ (Lib.Object.run sharedAlloc (sharedHeapAllocator H image)
        [⟨size, fdtAlignment, by decide⟩]).1 := by
      rw [Lib.Object.run_cons_some [] halloc]
      exact List.mem_cons_self
    unfold sharedAlloc at halloc
    split at halloc
    · cases halloc
    · rename_i ptr heap'' hptr
      cases halloc
      exact ⟨rfl, hrun, heap', hptr⟩
  · cases h

variable [LawfulHeap H] {M : Type} [IdMap M] [LawfulIdMap M]

variable [AligningHeap H] [AcceptingIdMap M]

open Lib.A64 (State Word run)

/-- **What `main` hands over**: the payload is entered at its address with the new tree in x0 and x1–x3 as RITM got them,
in the mode the new tree asks for, which is the old tree's unless that has several `chosen` nodes.  The tree is on an
8-byte boundary and a guest at EL1 can read all of it.  At EL2 the MMU is off by then, whatever registers compiled code
has used. -/
theorem main_hands_over (tools : Dtoolkit) (memory : U64 → List U8) (image : Image)
    (halign : image.ritmStart % pageSize = 0) (hstart : dramStart < image.ritmStart)
    (hend : image.ritmEnd < 0x100000000) (payloadAddress x0 x1 x2 x3 : U64) (h : Handover)
    (hmain : main H tools memory image payloadAddress x0 x1 x2 x3 = some h) :
    ∃ fdt newFdt dtb, tools.fromRaw (memory (fdtAddress x0)) = some fdt ∧
      modifyDt tools (dtbBuffer H image) image fdt = some (newFdt, dtb) ∧ h.x0 = BitVec.ofNat 64 dtb.ptr ∧
      h.bootMode = bootMode tools newFdt ∧ (OneChosen fdt → h.bootMode = bootMode tools fdt) ∧
      h.x0.toNat % fdtAlignment = 0 ∧
      (∃ b : Stage2Builder M U64, stage2Config M image = some b.build ∧ ∀ i < (tools.toDtb newFdt).length,
        IdMap.lookup b.idmap (h.x0 + BitVec.ofNat 64 i) = some stage2MemoryAttributes) ∧
      (∀ (env : Env M U64) (sys : SysRegs),
        let entry := entryPointEl1 env sys h.x0 h.x1 h.x2 h.x3 h.payloadAddress
        entry.1.elrEl2 = payloadAddress ∧ entry.2 = eretGprs h.x0 x1 x2 x3) ∧
      ∀ (call : Callee → State → Option State) (pc pcMmu : Word) (stack : Word → Prop) (s : State),
        ComputesSctlr stack (call .disableMmuAndCachesImpl) →
        s.x 0 = h.payloadAddress → s.x 1 = h.x0 → s.x 2 = h.x1 → s.x 3 = h.x2 → s.x 4 = h.x3 →
        ∃ s', run (withDisableMmuAndCaches call pcMmu) pc runPayloadEl2 s = some (payloadAddress, s') ∧
          s'.x 0 = h.x0 ∧ s'.x 1 = x1 ∧ s'.x 2 = x2 ∧ s'.x 3 = x3 ∧
          (∀ i, s'.sctlr.getLsbD i = (s.sctlr.getLsbD i && !decide (i = 0 ∨ i = 2 ∨ i = 12))) ∧
          ∀ address, ¬ stack address → s'.memory address = s.memory address := by
  obtain ⟨fdt, newFdt, dtb, hfdt, hnew, rfl⟩ := main_eq_some hmain
  obtain ⟨hlen, hbuffer, heap', halloc⟩ := dtbBuffer_eq_some (modifyDt_buffer hnew)
  obtain ⟨b, hb⟩ := @configure_succeeds M _ _ _ image halign hstart hend
  refine ⟨fdt, newFdt, dtb, hfdt, hnew, rfl, rfl, fun hone => bootMode_modifyDt hnew hone, ?_, ⟨b, ?_, fun i hi => ?_⟩,
    fun _ _ => ⟨rfl, rfl⟩, ?_⟩
  · have hmod : dtb.ptr % 8 = 0 := AligningHeap.alloc_aligned halloc
    show (BitVec.ofNat 64 dtb.ptr).toNat % 8 = 0
    rw [BitVec.toNat_ofNat]
    omega
  · rw [stage2Config, hb]
  · rw [← BitVec.ofNat_add]
    exact lookup_sharedAlloc hend hb hbuffer (hlen ▸ hi)
  · intro call pc pcMmu stack s himpl hs0 hs1 hs2 hs3 hs4
    obtain ⟨s', hrun, hx, hsctlr, hmemory⟩ := @runPayloadEl2_enters call pc pcMmu stack himpl s
    rw [hs0] at hrun
    exact ⟨s', hrun, (hx 0 (by decide)).trans hs1, (hx 1 (by decide)).trans hs2, (hx 2 (by decide)).trans hs3,
      (hx 3 (by decide)).trans hs4, hsctlr, hmemory⟩

end Main

def virtArgs : List Char := " quiet ritm.boot_mode=el3\tritm.boot_mode=el2 ritm.boot_mode=el1".toList

def virtTree : DtNode :=
  .node [] [("#address-cells", Lib.toBe 4 2), ("#size-cells", Lib.toBe 4 2)]
    [.node "chosen".toList [("bootargs", virtArgs.map (fun c => BitVec.ofNat 8 c.toNat) ++ [0])] [],
      .node (memoryNodeName dramStart) [("reg", Lib.toBe 8 dramStart ++ Lib.toBe 8 0x40000000)] []]

def virtMemory (address : U64) : List U8 := if address = 0x40000000 then specDtoolkit.toDtb virtTree else []

theorem words_virtArgs : Words ["quiet".toList, "ritm.boot_mode=el3".toList, "ritm.boot_mode=el2".toList,
    "ritm.boot_mode=el1".toList] virtArgs := by
  have hpad : ∀ c ∈ ([' '] : List Char), Lib.Text.isWhitespace c = true := List.all_eq_true.1 (by decide)
  have hnone : ∀ c ∈ ([] : List Char), Lib.Text.isWhitespace c = true := nofun
  have hword : ∀ word : List Char, word.all (fun c => !Lib.Text.isWhitespace c) = true →
      ∀ c ∈ word, Lib.Text.isWhitespace c = false := fun word h c hc => by simpa using List.all_eq_true.1 h c hc
  exact @Words.cons _ _ ' ' _ _ hpad (by decide) (hword _ (by decide)) (by decide)
    (@Words.cons _ _ '\t' _ _ hnone (by decide) (hword _ (by decide)) (by decide)
      (@Words.cons _ _ ' ' _ _ hnone (by decide) (hword _ (by decide)) (by decide)
        (.last hnone (by decide) (hword _ (by decide)))))

theorem bootMode_of_words_virt : bootMode specDtoolkit virtTree = .el2 := by
  have hstr : specDtoolkit.asStr (virtArgs.map (fun c => BitVec.ofNat 8 c.toNat) ++ [0]) = some virtArgs := by
    decide +kernel
  rw [bootMode_of_words specDtoolkit virtTree _ rfl _ rfl _ hstr _ words_virtArgs]
  decide

theorem oneChosen_virtTree : OneChosen virtTree := by
  have hmatches : ∀ c ∈ virtTree.children, nameMatches "chosen".toList c.name = true →
      c = .node "chosen".toList [("bootargs", virtArgs.map (fun c => BitVec.ofNat 8 c.toNat) ++ [0])] [] := by
    intro c hc hmatch
    rcases List.mem_pair.1 hc with hc | hc
    · exact hc
    · rw [hc] at hmatch
      cases (not_nameMatches_memory dramStart).symm.trans hmatch
  intro c hc c' hc' hmatch hmatch'
  rw [hmatches c hc hmatch, hmatches c' hc' hmatch']

theorem main_hands_over_virt : ∃ h, main BumpHeap specDtoolkit virtMemory alignedImage 0x44000000 0 1 2 3 = some h ∧
    h.bootMode = .el2 ∧ h.x0.toNat % fdtAlignment = 0 := by
  obtain ⟨h, hmain⟩ := Option.isSome_iff_exists.1
    (show (main BumpHeap specDtoolkit virtMemory alignedImage 0x44000000 0 1 2 3).isSome = true by decide +kernel)
  obtain ⟨fdt, newFdt, dtb, hfdt, -, -, -, hmode, haligned, -⟩ := @main_hands_over BumpHeap _ _ RegionTable _ _ _ _
    specDtoolkit virtMemory alignedImage (by decide) (by decide) (by decide) 0x44000000 0 1 2 3 h hmain
  cases specDtoolkit.eq_of_fromRaw_toDtb hfdt
  exact ⟨h, hmain, (hmode oneChosen_virtTree).trans (by decide +kernel), haligned⟩

end Qemu
end Ritm
