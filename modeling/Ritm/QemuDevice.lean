import Ritm.DataAbort
import Ritm.QemuLayout
/-!
# QemuDevice — data aborts on the QEMU platform

The only handled region is the filtered MMIO page.  A run of traps, whichever cores they come from, changes the device
only through its callbacks; the values the counter register returned are the numbers from where it started.
-/
namespace Ritm

open Lib (Prog)
open Lib.Prog (exec)

variable {M σ : Type}

namespace Qemu

def counterRead : CallRecord U64 → Option U64
  | ⟨.callRead _ access, result⟩ =>
    match (result : MemoryReadResult) with
    | .value v => if access.offset = 16 then some v else none
    | .fault => none
  | _ => none

theorem handleParts_configureRequests {image : Image} {g : MemoryAccessRegion U64}
    (h : g ∈ handleParts (configureRequests image)) : g.handler = filteredMmioHandler := by
  obtain ⟨x, hx, hg⟩ := List.mem_filterMap.1 h
  rcases mem_configureRequests.1 hx with rfl | ⟨e, -, rfl⟩
  · rw [mmioRequest, Stage2Request.handlePart] at hg
    obtain ⟨range, -, rfl⟩ := Option.map_eq_some_iff.1 hg
    rfl
  · cases hg

theorem configure_registry [IdMap M] {image : Image} {b : Stage2Builder M U64}
    (h : configureMemoryAccess image Stage2Builder.new = some (.ok (), b)) :
    b.build.memoryAccessHandlers.Ordered ∧
      ∀ g ∈ b.build.memoryAccessHandlers.regions.items, g.handler = filteredMmioHandler := by
  have hholds := configure_holds h
  refine ⟨hholds.ordered, fun g hg => ?_⟩
  exact @handleParts_configureRequests image g (hholds.regions.mem_iff.1 hg)

theorem counterRead_of_offset_ne {handler : MemoryReadHandler U64} {access : MemoryReadAccess}
    (h : access.offset ≠ 16) : ∀ result : MemoryReadResult, counterRead ⟨.callRead handler access, result⟩ = none
  | .value _ => if_neg h
  | .fault => rfl

/-- What one callback does to the counter: a read of its register answers with the value and adds one, all else leaves
it. -/
theorem counterRead_cases {e : Eff U64} {r : e.Resp} {d d' : U64} (hd : deviceHandler d e = some (r, d'))
    (hread : ∀ handler access, e = .callRead handler access → handler = readFilteredMmio)
    (hwrite : ∀ handler access, e = .callWrite handler access → handler = writeFilteredMmio) :
    (counterRead ⟨e, r⟩ = none ∧ d' = d) ∨ (counterRead ⟨e, r⟩ = some d ∧ d' = d + 1) := by
  cases e with
  | callRead handler access =>
    obtain rfl := hread handler access rfl
    have hr : readFilteredMmio access d = (r, d') := Option.some.inj hd
    by_cases hcounter : access.width = .u64 ∧ access.offset = 16
    · have h16 : readFilteredMmio access d = (.value d, d + 1) := by
        simp [readFilteredMmio, hcounter.1, hcounter.2]
      cases h16.symm.trans hr
      exact .inr ⟨if_pos hcounter.2, rfl⟩
    · refine .inl ?_
      unfold readFilteredMmio at hr
      split at hr
      · cases hr
        exact ⟨rfl, rfl⟩
      rename_i hw
      have hne : access.offset ≠ 16 := fun h => hcounter ⟨not_not.1 hw, h⟩
      refine ⟨counterRead_of_offset_ne hne r, ?_⟩
      rw [if_neg hne] at hr
      split_ifs at hr <;> cases hr <;> rfl
  | callWrite handler access =>
    obtain rfl := hwrite handler access rfl
    have hr : writeFilteredMmio access d = (r, d') := Option.some.inj hd
    refine .inl ⟨rfl, ?_⟩
    unfold writeFilteredMmio at hr
    split at hr <;> cases hr <;> rfl
  | _ => cases hd

end Qemu

def counterTrap : SysRegs × GuestRegisterState :=
  ({ (default : SysRegs) with esrEl2 := 0x93c08000, hpfarFipa := 0xf000, farEl2 := 0xf000010, vbarEl1 := 0x800 }, default)

end Ritm
