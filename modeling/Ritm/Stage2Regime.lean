import Ritm.DataAbort
import Ritm.Stage2Calls
/-!
# Stage2Regime — accepted ranges and what the translation regime reaches

`setup_stage2` programs a 40-bit regime over a table whose root is at level 0, and such a table takes ranges up to 2⁴⁸.
The builder checks neither limit, so `allow_range` accepts ranges that the guest then cannot access.
-/
namespace Ritm

variable {M σ : Type}

/-! ## The regime -/

def SysRegs.ipaBits (sys : SysRegs) : Nat := 64 - (sys.vtcrEl2.extractLsb' 0 6).toNat

def SysRegs.outputBits (sys : SysRegs) : Nat :=
  match (sys.vtcrEl2.extractLsb' 16 3).toNat with
  | 0 => 32
  | 1 => 36
  | 2 => 40
  | 3 => 42
  | 4 => 44
  | 5 => 48
  | _ => 52

/-- An identity mapping of the IPA can be translated: the IPA is in the input range, and in the output range. -/
def SysRegs.Translates (sys : SysRegs) (ipa : U64) : Prop := ipa.toNat < 2 ^ sys.ipaBits ∧ ipa.toNat < 2 ^ sys.outputBits

theorem vtcrEl2_setupStage2 [IdMap M] (env : Env M σ) (sys : SysRegs) : (setupStage2 env sys).vtcrEl2 = 0x23598 := by
  simp only [setupStage2]
  decide

theorem translates_setupStage2 [IdMap M] (env : Env M σ) (sys : SysRegs) (ipa : U64) :
    (setupStage2 env sys).Translates ipa ↔ ipa.toNat < 2 ^ 40 := by
  unfold SysRegs.Translates SysRegs.ipaBits SysRegs.outputBits
  rw [vtcrEl2_setupStage2]
  exact and_self_iff

/-! ## What the table takes -/

/-- **What is relied on**: a table with its root at level 0 takes every range of pages up to 2⁴⁸, and none beyond. -/
class Level0IdMap (M : Type) [IdMap M] : Prop where
  mapRange_ok_iff (m : M) {r : MemoryRegion} {a : Stage2Attributes} (ha : IdMap.Maps M a)
    (hstart : r.start.toNat % pageSize = 0) (hend : r.endAddr.toNat % pageSize = 0)
    (hlt : r.start.toNat < r.endAddr.toNat) : (IdMap.mapRange m r a).1 = .ok () ↔ r.endAddr.toNat ≤ 2 ^ 48

instance : Level0IdMap RegionTable where
  mapRange_ok_iff m r a _ _ _ _ := by
    simp only [IdMap.mapRange]
    split <;> simp_all

namespace Stage2Builder

theorem tableTakes_iff [IdMap M] [Level0IdMap M] (b : Stage2Builder M σ) {baseIpa size : U64}
    {attributes : Stage2Attributes} (ha : IdMap.Maps M attributes) (hv : ValidRange baseIpa size) :
    b.TableTakes (.allowRange baseIpa size attributes) ↔ baseIpa.toNat + size.toNat ≤ 2 ^ 48 := by
  have hend := hv.toNat_end
  obtain ⟨hbase, hpos, hsize, hlt⟩ := hv
  have hpages : (baseIpa.toNat + size.toNat) % pageSize = 0 := by
    unfold pageSize at hbase hsize ⊢
    omega
  have h := Level0IdMap.mapRange_ok_iff b.idmap (r := ⟨baseIpa, baseIpa + size⟩) ha hbase (by rw [hend]; exact hpages)
    (by rw [hend]; exact Nat.lt_add_of_pos_right hpos)
  rw [hend] at h
  exact h

theorem toNat_last {baseIpa size : U64} (hv : ValidRange baseIpa size) :
    (baseIpa + size - 1).toNat = baseIpa.toNat + size.toNat - 1 := by
  have hpos := hv.2.1
  rw [BitVec.toNat_sub_of_le, hv.toNat_end]
  · rfl
  · rw [BitVec.le_def, hv.toNat_end]
    show 1 ≤ _
    omega

/-- **An accepted range can be translated exactly when** it is not a free range that ends between 2⁴⁰ and 2⁴⁸. -/
theorem allowRange_translates_iff [IdMap M] [Level0IdMap M] (env : Env M σ) (sys : SysRegs)
    (reqs : List (Stage2Request σ)) :
    ∃ results b, (new : Stage2Builder M σ).applyAll reqs = some (results, b) ∧ ∀ baseIpa size attributes,
      IdMap.Maps M attributes →
        ((∀ b', b.allowRange baseIpa size attributes = some (.ok (), b') → ∀ ipa : U64, baseIpa.toNat ≤ ipa.toNat →
          ipa.toNat < baseIpa.toNat + size.toNat → (setupStage2 env sys).Translates ipa) ↔
        ¬ (2 ^ 40 < baseIpa.toNat + size.toNat ∧ baseIpa.toNat + size.toNat ≤ 2 ^ 48 ∧
          Free (accepted reqs results) (.allowRange baseIpa size attributes))) := by
  obtain ⟨results, b, h, -, hb⟩ := applyAll_records (M := M) reqs
  refine ⟨results, b, h, fun baseIpa size attributes ha => ?_⟩
  have hok := hb.apply_ok_iff (.allowRange baseIpa size attributes)
  simp only [translates_setupStage2]
  constructor
  · rintro hall ⟨hbeyond, hle, hfree⟩
    obtain ⟨b', hx⟩ := hok.2 ⟨hfree, (b.tableTakes_iff ha hfree.valid).2 hle⟩
    have hlast : (baseIpa + size - 1).toNat = _ := toNat_last hfree.valid
    have hpos : 0 < size.toNat := hfree.valid.2.1
    have := hall b' hx (baseIpa + size - 1) (by omega) (by omega)
    omega
  · intro hno b' hx ipa _ hlt
    obtain ⟨hfree, htake⟩ := hok.1 ⟨b', hx⟩
    have hle := (b.tableTakes_iff ha hfree.valid).1 htake
    by_cases hbeyond : 2 ^ 40 < baseIpa.toNat + size.toNat
    · exact absurd ⟨hbeyond, hle, hfree⟩ hno
    · omega

theorem allowRange_translates_iff_byteEnv :
    ∃ results b, (new : Stage2Builder RegionTable (Nat → U8)).applyAll [.allowRange 0 0x1000 1] = some (results, b) ∧
      ∀ baseIpa size attributes, IdMap.Maps RegionTable attributes →
      ((∀ b', b.allowRange baseIpa size attributes = some (.ok (), b') → ∀ ipa : U64, baseIpa.toNat ≤ ipa.toNat →
          ipa.toNat < baseIpa.toNat + size.toNat → (setupStage2 byteEnv default).Translates ipa) ↔
        ¬ (2 ^ 40 < baseIpa.toNat + size.toNat ∧ baseIpa.toNat + size.toNat ≤ 2 ^ 48 ∧
          Free (σ := Nat → U8) (accepted [.allowRange 0 0x1000 1] results) (.allowRange baseIpa size attributes))) :=
  allowRange_translates_iff byteEnv default [.allowRange 0 0x1000 1]

/-- The page at 2⁴⁰ is accepted and mapped, and no core can translate its addresses. -/
theorem allowRange_accepts_untranslatable :
    ∃ b : Stage2Builder RegionTable Unit, new.allowRange 0x10000000000 0x1000 1 = some (.ok (), b) ∧
      IdMap.lookup b.idmap 0x10000000000 = some 1 ∧
      ∀ (env : Env RegionTable Unit) (sys : SysRegs), ¬ (setupStage2 env sys).Translates 0x10000000000 := by
  refine ⟨_, rfl, rfl, fun env sys h => ?_⟩
  rw [translates_setupStage2] at h
  exact absurd h (by decide)

end Stage2Builder

end Ritm
