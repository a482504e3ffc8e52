import Ritm.QemuLayout
/-!
# InitialMap — the page table RITM runs on

`initial_idmap` is the table of the EL2 regime from the first instruction on: 512 descriptors of 1 GiB, three of them
valid.  RITM has no other.  It is an identity map, which `disable_mmu_and_caches` relies on, and only its second
gibibyte can be executed, which is where an image has to be linked.
-/
namespace Ritm

/-! ## Descriptors -/

namespace El23Attributes

def valid : U64 := 1
def attributeIndex0 : U64 := 0
def attributeIndex1 : U64 := 1 <<< 2
def innerShareable : U64 := 3 <<< 8
def accessed : U64 := 1 <<< 10
def nonGlobal : U64 := 1 <<< 11
def xn : U64 := 1 <<< 54

end El23Attributes

open El23Attributes in
def deviceAttributes : U64 := valid ||| attributeIndex0 ||| accessed ||| xn

open El23Attributes in
def memoryAttributes : U64 := valid ||| attributeIndex1 ||| innerShareable ||| accessed ||| nonGlobal

/-- What a walk finds: the output address, and the descriptor's bits that matter for a fetch or a data access. -/
structure Translation where
  address : U64
  executable : Bool
  attributeIndex : Nat
  deriving DecidableEq, Repr

/-- A walk from a level 1 table with a granule of 4 KiB: a block maps 1 GiB.  A descriptor that points to a further table
is not followed, and neither is one that is not valid or not accessed. -/
def walkLevel1 (table : Vector U64 512) (address : U64) : Option Translation :=
  if h : address.toNat / 2 ^ 30 < 512 then
    let descriptor := table[address.toNat / 2 ^ 30]
    if descriptor.getLsbD 0 && !descriptor.getLsbD 1 && descriptor.getLsbD 10 then
      some {
        address := (descriptor.extractLsb' 30 18 ++ address.extractLsb' 0 30).setWidth 64
        executable := !descriptor.getLsbD 54
        attributeIndex := (descriptor.extractLsb' 2 3).toNat }
    else none
  else none

namespace Qemu

def initialIdmap : Vector U64 512 :=
  let idmap := Vector.replicate 512 (0 : U64)
  let idmap := idmap.set 0 deviceAttributes
  let idmap := idmap.set 1 (memoryAttributes ||| 0x40000000)
  idmap.set 2 (deviceAttributes ||| 0x80000000)

theorem initialIdmap_get (k : Nat) (hk : k < 512) : initialIdmap[k] =
    if k = 2 then deviceAttributes ||| 0x80000000
    else if k = 1 then memoryAttributes ||| 0x40000000
    else if k = 0 then deviceAttributes
    else 0 := by
  simp only [initialIdmap, Vector.getElem_set, Vector.getElem_replicate, eq_comm]

theorem blockAddress_eq {descriptor address : U64} {k : Nat} (hblock : (descriptor.extractLsb' 30 18).toNat = k)
    (hk : address.toNat / 2 ^ 30 = k) : (descriptor.extractLsb' 30 18 ++ address.extractLsb' 0 30).setWidth 64 = address := by
  have hlow : (address.extractLsb' 0 30).toNat = address.toNat % 2 ^ 30 := by
    rw [BitVec.extractLsb'_toNat, Nat.shiftRight_zero]
  have happend : (descriptor.extractLsb' 30 18 ++ address.extractLsb' 0 30).toNat = address.toNat := by
    rw [BitVec.toNat_append, ← Nat.shiftLeft_add_eq_or_of_lt (BitVec.isLt _), Nat.shiftLeft_eq, hblock, hlow, ← hk]
    omega
  refine BitVec.eq_of_toNat_eq ?_
  rw [BitVec.toNat_setWidth, happend, Nat.mod_eq_of_lt address.isLt]

theorem walk_block {table : Vector U64 512} {address descriptor : U64} {k : Nat} (hk : address.toNat / 2 ^ 30 = k)
    (hlt : k < 512) (hget : table[k] = descriptor) (hblock : (descriptor.extractLsb' 30 18).toNat = k)
    (hbits : (descriptor.getLsbD 0 && !descriptor.getLsbD 1 && descriptor.getLsbD 10) = true) :
    walkLevel1 table address = some ⟨address, !descriptor.getLsbD 54, (descriptor.extractLsb' 2 3).toNat⟩ := by
  subst hk
  rw [walkLevel1, dif_pos hlt, hget]
  dsimp only
  rw [if_pos hbits, blockAddress_eq hblock rfl]

theorem walk_invalid {table : Vector U64 512} {address : U64}
    (hget : ∀ h : address.toNat / 2 ^ 30 < 512, table[address.toNat / 2 ^ 30] = 0) : walkLevel1 table address = none := by
  unfold walkLevel1
  split
  · rename_i h
    rw [hget h]
    rfl
  · rfl

/-- **The walk of every address.** -/
theorem walk_initialIdmap (address : U64) : walkLevel1 initialIdmap address =
    if address.toNat < 0x40000000 then some ⟨address, false, 0⟩
    else if address.toNat < 0x80000000 then some ⟨address, true, 1⟩
    else if address.toNat < 0xc0000000 then some ⟨address, false, 0⟩
    else none := by
  split_ifs with h0 h1 h2
  · exact walk_block (k := 0) (by omega) (by decide) (initialIdmap_get 0 _) (by decide) (by decide)
  · exact walk_block (k := 1) (by omega) (by decide) (initialIdmap_get 1 _) (by decide) (by decide)
  · exact walk_block (k := 2) (by omega) (by decide) (initialIdmap_get 2 _) (by decide) (by decide)
  · refine walk_invalid fun h => ?_
    rw [initialIdmap_get, if_neg (by omega), if_neg (by omega), if_neg (by omega)]

/-- **RITM runs where it is linked, and only there**: every address that is mapped is mapped to itself, so that nothing
moves when the MMU is turned off; and the whole image can be executed as normal memory exactly if it is in the second
gibibyte. -/
theorem initialIdmap_runs_image_iff (image : Image) (hend : image.ritmEnd ≤ 2 ^ 64) :
    (∀ address t, walkLevel1 initialIdmap address = some t → t.address = address) ∧
    ((∀ address : U64, image.ritmStart ≤ address.toNat → address.toNat < image.ritmEnd →
        walkLevel1 initialIdmap address = some ⟨address, true, 1⟩) ↔
      0x40000000 ≤ image.ritmStart ∧ image.ritmEnd ≤ 0x80000000) := by
  constructor
  · intro address t h
    rw [walk_initialIdmap] at h
    split_ifs at h <;> cases h <;> rfl
  constructor
  · intro h
    have hlt := image.ritmStart_lt_ritmEnd
    have hbounds : ∀ n, image.ritmStart ≤ n → n < image.ritmEnd → 0x40000000 ≤ n ∧ n < 0x80000000 := fun n hlow hhigh => by
      have hn : (BitVec.ofNat 64 n).toNat = n := by
        rw [BitVec.toNat_ofNat, Nat.mod_eq_of_lt (by omega)]
      have hwalk := h (BitVec.ofNat 64 n) (by rw [hn]; exact hlow) (by rw [hn]; exact hhigh)
      rw [walk_initialIdmap, hn] at hwalk
      split_ifs at hwalk <;> first | omega | cases hwalk
    have hfirst := hbounds image.ritmStart (Nat.le_refl _) hlt
    have hlast := hbounds (image.ritmEnd - 1) (by omega) (by omega)
    omega
  · rintro ⟨hstart, hend'⟩ address hlow hhigh
    rw [walk_initialIdmap, if_neg (by omega), if_pos (by omega)]

theorem initialIdmap_runs_image_iff_aligned :
    (∀ address : U64, alignedImage.ritmStart ≤ address.toNat → address.toNat < alignedImage.ritmEnd →
        walkLevel1 initialIdmap address = some ⟨address, true, 1⟩) ↔
      0x40000000 ≤ alignedImage.ritmStart ∧ alignedImage.ritmEnd ≤ 0x80000000 :=
  (initialIdmap_runs_image_iff alignedImage (by decide)).2

end Qemu
end Ritm
