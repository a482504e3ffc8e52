import Ritm.Lib.BigEndian
import Ritm.MemoryAccess
import Mathlib.Data.Nat.Digits.Defs
/-!
# DeviceTree — device trees, and what is relied on of `dtoolkit`

A tree is its names, properties and children.  Everything RITM does with trees it does through `dtoolkit`, which is not
part of this repository: `Dtoolkit` is any set of the functions it calls that behave as documented.  A `reg` property is
a list of address and size pairs, each in as many 32-bit cells as the parent's `#address-cells` and `#size-cells` say.
-/
namespace Ritm

open Lib (toBe ofBe toBe_length ofBe_toBe ofBe_lt_of_length_le)

inductive DtNode where
  | node (name : List Char) (properties : List (String × List U8)) (children : List DtNode)

namespace DtNode

def name : DtNode → List Char
  | node name _ _ => name

def properties : DtNode → List (String × List U8)
  | node _ properties _ => properties

def children : DtNode → List DtNode
  | node _ _ children => children

def property (n : DtNode) (name : String) : Option (List U8) :=
  (n.properties.find? (fun p => p.1 == name)).map Prod.snd

theorem property_congr {n n' : DtNode} (h : n'.properties = n.properties) (name : String) :
    n'.property name = n.property name := by
  rw [property, property, h]

end DtNode

/-- A node is asked for by its whole name, or without its unit address. -/
def nameMatches (name full : List Char) : Bool :=
  if name.contains '@' then full == name else full.takeWhile (fun c => c != '@') == name

/-! ## Cells and ranges -/

structure Reg where
  address : List U8
  size : List U8
  deriving DecidableEq, Repr

def Reg.range (r : Reg) : Nat × Nat := (ofBe r.address, ofBe r.size)

def regEntries (addressCells sizeCells : Nat) : Nat → List U8 → List Reg
  | 0, _ => []
  | count + 1, value =>
    ⟨value.take (4 * addressCells), (value.drop (4 * addressCells)).take (4 * sizeCells)⟩ ::
      regEntries addressCells sizeCells count (value.drop (4 * (addressCells + sizeCells)))

/-- A `reg` property as pairs; `none` when its length is no whole number of them. -/
def decodeReg (addressCells sizeCells : Nat) (value : List U8) : Option (List Reg) :=
  if value.length % (4 * (addressCells + sizeCells)) = 0 then
    some (regEntries addressCells sizeCells (value.length / (4 * (addressCells + sizeCells))) value)
  else none

theorem decodeReg_of_length {a s count : Nat} {value : List U8} (hpos : 0 < a + s)
    (h : value.length = 4 * (a + s) * count) : decodeReg a s value = some (regEntries a s count value) := by
  have h4 : 0 < 4 * (a + s) := by omega
  unfold decodeReg
  rw [h, Nat.mul_mod_right, Nat.mul_div_cancel_left count h4, if_pos rfl]

theorem regEntries_succ {a s : Nat} (count : Nat) {address size : List U8} (rest : List U8)
    (ha : address.length = 4 * a) (hs : size.length = 4 * s) :
    regEntries a s (count + 1) (address ++ (size ++ rest)) = ⟨address, size⟩ :: regEntries a s count rest := by
  rw [regEntries, List.take_left' ha, List.drop_left' ha, List.take_left' hs, Nat.mul_add, ← List.drop_drop,
    List.drop_left' ha, List.drop_left' hs]

theorem decodeReg_singleton {a s : Nat} (hpos : 0 < a + s) {address size : List U8} (ha : address.length = 4 * a)
    (hs : size.length = 4 * s) : decodeReg a s (address ++ size) = some [⟨address, size⟩] := by
  have h := regEntries_succ 0 [] ha hs
  rw [List.append_nil] at h
  rw [@decodeReg_of_length a s 1 _ hpos (by rw [List.length_append, ha, hs]; omega), h]
  rfl

theorem length_of_mem_regEntries {a s : Nat} : ∀ {count : Nat} {value : List U8}, 4 * (a + s) * count ≤ value.length →
    ∀ r ∈ regEntries a s count value, r.address.length = 4 * a ∧ r.size.length = 4 * s
  | 0, _, _, _, hr => by cases hr
  | count + 1, value, h, r, hr => by
    rw [Nat.mul_succ] at h
    rcases List.mem_cons.1 hr with rfl | hr
    · simp only [List.length_take, List.length_drop]
      omega
    · exact length_of_mem_regEntries (by rw [List.length_drop]; omega) r hr

theorem length_of_mem_decodeReg {a s : Nat} {value : List U8} {regs : List Reg} (h : decodeReg a s value = some regs) :
    ∀ r ∈ regs, r.address.length = 4 * a ∧ r.size.length = 4 * s := by
  unfold decodeReg at h
  split at h
  · cases h
    exact length_of_mem_regEntries (Nat.mul_div_le _ _)
  · cases h

/-! ## The crate -/

/-- **The functions of `dtoolkit` that RITM calls, and what is relied on of them.** -/
structure Dtoolkit where
  -- `Fdt::from_raw` on the bytes at its address, and `DeviceTree::to_dtb`.
  fromRaw : List U8 → Option DtNode
  toDtb : DtNode → List U8
  child : DtNode → List Char → Option DtNode
  -- `FdtNode::reg` of a node with the given parent; `none` is an error or that there is no property.
  reg : DtNode → DtNode → Option (List Reg)
  -- A cell count as the parent's property gives it, if there is one, or by default.
  cellCount : Nat → Option (List U8) → Nat
  -- `Reg::address` and `Reg::size`, as a `u64`.
  toU64 : List U8 → Option U64
  asStr : List U8 → Option (List Char)
  removeChild : DtNode → List Char → Option DtNode
  addChild : DtNode → DtNode → DtNode
  -- If what was written of a tree can be read, it is the tree.
  eq_of_fromRaw_toDtb {n n' : DtNode} (h : fromRaw (toDtb n) = some n') : n' = n
  child_eq_some {n c : DtNode} {name : List Char} (h : child n name = some c) :
    c ∈ n.children ∧ nameMatches name c.name = true
  child_eq_none {n : DtNode} {name : List Char} (h : child n name = none) :
    ∀ c ∈ n.children, nameMatches name c.name = false
  cellCount_none (default : Nat) : cellCount default none = default
  cellCount_some {value : List U8} (default : Nat) (h : value.length = 4) : cellCount default (some value) = ofBe value
  -- `reg` decodes by the parent's cell counts.
  reg_cells {parent n : DtNode} {regs : List Reg} (h : reg parent n = some regs) : ∀ r ∈ regs,
    r.address.length = 4 * cellCount 2 (parent.property "#address-cells") ∧
      r.size.length = 4 * cellCount 1 (parent.property "#size-cells")
  reg_eq (parent n : DtNode)
    (h : 0 < cellCount 2 (parent.property "#address-cells") + cellCount 1 (parent.property "#size-cells")) :
    reg parent n = (n.property "reg").bind
      (decodeReg (cellCount 2 (parent.property "#address-cells")) (cellCount 1 (parent.property "#size-cells")))
  toU64_eq {cells : List U8} (h : cells.length ≤ 8) : toU64 cells = some (BitVec.ofNat 64 (ofBe cells))
  toU64_eq_none {cells : List U8} (h : 8 < cells.length) : toU64 cells = none
  -- Children not named are kept, and so are the node's properties.
  removeChild_eq_some {n n' : DtNode} {name : List Char} (h : removeChild n name = some n') :
    n'.properties = n.properties ∧ ∀ c, c ∈ n'.children ↔ c ∈ n.children ∧ c.name ≠ name
  properties_addChild (n c : DtNode) : (addChild n c).properties = n.properties
  mem_addChild (n c c' : DtNode) : c' ∈ (addChild n c).children ↔ c' = c ∨ c' ∈ n.children ∧ c'.name ≠ c.name

namespace Dtoolkit

variable (tools : Dtoolkit)

def addressCells (n : DtNode) : Nat := tools.cellCount 2 (n.property "#address-cells")

def sizeCells (n : DtNode) : Nat := tools.cellCount 1 (n.property "#size-cells")

/-- The ranges a node describes, by its parent's cell counts; a `reg` that cannot be read gives none. -/
def ranges (parent n : DtNode) : List (Nat × Nat) := ((tools.reg parent n).getD []).map Reg.range

variable {tools} {parent parent' n : DtNode}

theorem cells_congr (h : parent'.properties = parent.properties) :
    tools.addressCells parent' = tools.addressCells parent ∧ tools.sizeCells parent' = tools.sizeCells parent := by
  unfold addressCells sizeCells
  rw [DtNode.property_congr h, DtNode.property_congr h]
  exact ⟨rfl, rfl⟩

theorem ranges_eq (h : 0 < tools.addressCells parent + tools.sizeCells parent) (n : DtNode) :
    tools.ranges parent n = (((n.property "reg").bind (decodeReg (tools.addressCells parent) (tools.sizeCells parent))).getD
      []).map Reg.range := by
  rw [ranges, tools.reg_eq parent n h]
  rfl

theorem ranges_congr (hpos : 0 < tools.addressCells parent + tools.sizeCells parent)
    (h : parent'.properties = parent.properties) (n : DtNode) : tools.ranges parent' n = tools.ranges parent n := by
  obtain ⟨ha, hs⟩ : tools.addressCells parent' = _ ∧ tools.sizeCells parent' = _ := cells_congr h
  rw [ranges_eq hpos, ranges_eq (by rw [ha, hs]; exact hpos), ha, hs]

/-- A number of more than eight bytes is an error. -/
theorem toU64_eq_some {cells : List U8} {v : U64} (h : tools.toU64 cells = some v) :
    cells.length ≤ 8 ∧ v.toNat = ofBe cells := by
  by_cases hle : cells.length ≤ 8
  · rw [tools.toU64_eq hle, Option.some.injEq] at h
    have hlt : ofBe cells < 2 ^ 64 := ofBe_lt_of_length_le hle
    rw [← h, BitVec.toNat_ofNat, Nat.mod_eq_of_lt hlt]
    exact ⟨hle, rfl⟩
  · rw [tools.toU64_eq_none (Nat.not_le.1 hle)] at h
    cases h

theorem child_of_unit {name : List Char} (hname : name.contains '@' = true) {c : DtNode}
    (h : tools.child n name = some c) : c ∈ n.children ∧ c.name = name := by
  obtain ⟨hmem, hmatches⟩ := tools.child_eq_some h
  rw [nameMatches, if_pos hname] at hmatches
  exact ⟨hmem, beq_iff_eq.1 hmatches⟩

theorem child_congr {n n' : DtNode} {name : List Char}
    (hsame : ∀ c, nameMatches name c.name = true → (c ∈ n'.children ↔ c ∈ n.children))
    (hone : ∀ c ∈ n.children, ∀ c' ∈ n.children, nameMatches name c.name = true → nameMatches name c'.name = true →
      c = c') : tools.child n' name = tools.child n name := by
  have hnone : ∀ {n : DtNode}, tools.child n name = none → ∀ c, nameMatches name c.name = true → c ∉ n.children :=
    fun h c hc hmem => by
      rw [tools.child_eq_none h c hmem] at hc
      cases hc
  cases h' : tools.child n' name with
  | none =>
    cases h : tools.child n name with
    | none => rfl
    | some c =>
      obtain ⟨hmem, hc⟩ := tools.child_eq_some h
      exact absurd ((hsame c hc).2 hmem) (hnone h' c hc)
  | some c' =>
    obtain ⟨hmem', hc'⟩ := tools.child_eq_some h'
    have hmem := (hsame c' hc').1 hmem'
    cases h : tools.child n name with
    | none => exact absurd hmem (hnone h c' hc')
    | some c =>
      obtain ⟨hmemc, hc⟩ := tools.child_eq_some h
      rw [hone c hmemc c' hmem hc hc']

end Dtoolkit

/-! ## Node names -/

def hexDigits (n : Nat) : List Char :=
  if n = 0 then ['0'] else ((Nat.digits 16 n).map Nat.digitChar).reverse

theorem digitChar_injective : ∀ a < 16, ∀ b < 16, Nat.digitChar a = Nat.digitChar b → a = b := by decide

theorem map_digitChar_injective : ∀ {l m : List Nat}, (∀ d ∈ l, d < 16) → (∀ d ∈ m, d < 16) →
    l.map Nat.digitChar = m.map Nat.digitChar → l = m
  | [], [], _, _, _ => rfl
  | [], _ :: _, _, _, h => by cases h
  | _ :: _, [], _, _, h => by cases h
  | a :: l, b :: m, hl, hm, h => by
    rw [List.map_cons, List.map_cons, List.cons.injEq] at h
    rw [digitChar_injective a (hl a (by simp)) b (hm b (by simp)) h.1,
      map_digitChar_injective (fun d hd => hl d (by simp [hd])) (fun d hd => hm d (by simp [hd])) h.2]

theorem hexDigits_eq_zero {n : Nat} (h : hexDigits n = ['0']) : n = 0 := by
  refine Classical.byContradiction fun hn => ?_
  unfold hexDigits at h
  rw [if_neg hn, List.reverse_eq_iff] at h
  have hdigits : Nat.digits 16 n = [0] := map_digitChar_injective (m := [0])
    (fun d hd => Nat.digits_lt_base (by decide) hd) (by simp) h
  have := Nat.ofDigits_digits 16 n
  rw [hdigits] at this
  exact hn this.symm

theorem hexDigits_injective {a b : Nat} (h : hexDigits a = hexDigits b) : a = b := by
  by_cases ha : a = 0
  · subst ha
    exact (hexDigits_eq_zero h.symm).symm
  by_cases hb : b = 0
  · subst hb
    exact hexDigits_eq_zero h
  unfold hexDigits at h
  rw [if_neg ha, if_neg hb, List.reverse_inj] at h
  exact Nat.digits_inj_iff.1 (map_digitChar_injective (fun d hd => Nat.digits_lt_base (by decide) hd)
    (fun d hd => Nat.digits_lt_base (by decide) hd) h)

end Ritm
