import Ritm.DataAbort
/-!
# GuestEntry — the processor state in which the guest begins and is interrupted

Two ways into the guest, held against the architecture.  An injected abort is the exception the guest would have taken
itself, as long as it ran at EL1 with its own stack pointer.  A guest that is started begins in a state of RITM's making,
except for the bits of SPSR_EL2 that `entry_point_el1` reads back and leaves in place.
-/
namespace Ritm

open Lib (Prog)
open Lib.Prog (exec)

variable {M σ S : Type}

/-- AArch64 EL1h, with D, A, I and F masked. -/
def El1hMasked (pstate : U64) : Prop := pstate &&& 0x1f = 0b00101 ∧ pstate &&& 0x3c0 = 0x3c0

/-! ## Taking a data abort -/

inductive GuestMode where
  | el0t
  | el1t
  | el1h
  deriving DecidableEq, Repr

namespace GuestMode

def ofSpsr (spsr : U64) : Option GuestMode :=
  match (spsr.extractLsb' 0 4).toNat with
  | 0 => some el0t
  | 4 => some el1t
  | 5 => some el1h
  | _ => none

/-- Where the synchronous vector of exceptions taken from the mode to EL1 lies. -/
def vectorOffset : GuestMode → U64
  | el0t => 0x400
  | el1t => 0x000
  | el1h => 0x200

def dataAbortClass : GuestMode → U8
  | el0t => ecDataAbortLowerEl
  | el1t => ecDataAbortSameEl
  | el1h => ecDataAbortSameEl

theorem ofSpsr_eq_el1h_iff (spsr : U64) : ofSpsr spsr = some el1h ↔ spsr.extractLsb' 0 4 = 5 := by
  unfold ofSpsr
  constructor
  · intro h
    split at h <;> cases h
    rename_i heq
    exact BitVec.eq_of_toNat_eq heq
  · intro h
    rw [h]
    rfl

end GuestMode

def esrRest (esr : U64) : U64 := esr &&& ~~~(0x3f#64 <<< 26)

/-- **What the architecture does** when the guest takes a synchronous data abort to EL1 from the mode. -/
structure TakesDataAbort (mode : GuestMode) (sys : SysRegs) (rs : GuestRegisterState) (sys' : SysRegs)
    (rs' : GuestRegisterState) : Prop where
  vector : rs'.volatile.elr = sys.vbarEl1 + mode.vectorOffset
  ec : esrEc sys'.esrEl1 = mode.dataAbortClass
  syndrome : esrRest sys'.esrEl1 = esrRest sys.esrEl2
  elr : sys'.elrEl1 = rs.volatile.elr
  spsr : sys'.spsrEl1 = rs.volatile.spsr
  far : sys'.farEl1 = sys.farEl2
  pstate : El1hMasked rs'.volatile.spsr
  gprs : rs'.gprs = rs.gprs

theorem esrEc_esrSetEc (esr : U64) : esrEc (esrSetEc esr ecDataAbortSameEl) = ecDataAbortSameEl := by
  have h : (esrSetEc esr ecDataAbortSameEl).extractLsb' 26 6 = 0x25#6 := by
    apply BitVec.eq_of_getLsbD_eq
    intro i hi
    unfold esrSetEc setField
    simp only [BitVec.getLsbD_extractLsb', BitVec.getLsbD_or, BitVec.getLsbD_and, BitVec.getLsbD_not]
    have hmask : ∀ i < 6, ((1#64 <<< 6 - 1) <<< 26).getLsbD (26 + i) = true := by decide
    have hval : ∀ i < 6, ((BitVec.setWidth 64 ecDataAbortSameEl &&& 1#64 <<< 6 - 1) <<< 26).getLsbD (26 + i) =
        (0x25#6).getLsbD i := by decide
    rw [hmask i hi, hval i hi]
    simp [hi]
  unfold esrEc
  rw [h]
  rfl

theorem esrRest_esrSetEc (esr : U64) : esrRest (esrSetEc esr ecDataAbortSameEl) = esrRest esr := by
  apply BitVec.eq_of_getLsbD_eq
  intro i hi
  unfold esrRest esrSetEc setField
  have hval : ∀ i < 64, ((BitVec.setWidth 64 ecDataAbortSameEl &&& 1#64 <<< 6 - 1) <<< 26).getLsbD i = true →
      (0x3f#64 <<< 26).getLsbD i = true := by decide
  have hmask : (1#64 <<< 6 - 1) <<< 26 = 0x3f#64 <<< 26 := by decide
  rw [hmask]
  simp only [BitVec.getLsbD_or, BitVec.getLsbD_and, BitVec.getLsbD_not]
  grind

theorem el1hMasked_injectedSpsr : El1hMasked injectedSpsr := by
  unfold El1hMasked
  decide

theorem takesDataAbort_injected_iff (sys : SysRegs) (rs : GuestRegisterState) (mode : GuestMode) :
    TakesDataAbort mode sys rs (sys.abortInjected rs) (rs.setExceptionReturn (sys.vbarEl1 + 0x200) injectedSpsr) ↔
      mode = .el1h := by
  constructor
  · intro h
    have hv : (0x200 : U64) = mode.vectorOffset := (BitVec.add_right_inj _).1 h.vector
    cases mode with
    | el0t => exact absurd hv (by decide)
    | el1t => exact absurd hv (by decide)
    | el1h => rfl
  · rintro rfl
    exact ⟨rfl, esrEc_esrSetEc _, esrRest_esrSetEc _, rfl, rfl, rfl, el1hMasked_injectedSpsr,
      GuestRegisterState.gprs_setExceptionReturn rs _ _⟩

def anyCalls : Prog.Protocol (Eff σ) Eff.Resp Unit := ⟨fun _ _ => True, fun _ _ _ => ()⟩

theorem tryMemoryAccessHandler_error_keeps (env : Env M σ) (sys : SysRegs) (rs : GuestRegisterState) :
    Prog.Obeys anyCalls (fun _ r => r.1 = .error () → r.2 = rs) () (tryMemoryAccessHandler env sys rs) := by
  -- past a callback that succeeded, only the addition to the return address can fail, and it panics
  have hdone : ∀ rs', Prog.Obeys anyCalls (fun _ r => r.1 = .error () → r.2 = rs) ()
      (advanceGuestPc rs' >>= fun rs'' => (pure (.ok (), rs'') : Hyp σ (Except Unit Unit × GuestRegisterState))) := by
    intro rs'
    unfold advanceGuestPc
    split
    · exact nofun
    · exact ⟨trivial, nofun⟩
  cases dispatch env sys rs with
  | refused heq =>
    rw [heq]
    exact fun _ => rfl
  | read decoded m handler hdec hfind hk hh =>
    rw [tryMemoryAccessHandler_read hdec hfind hk hh]
    refine ⟨trivial, fun r => ?_⟩
    cases r with
    | fault => exact fun _ => rfl
    | value v => exact hdone _
  | write decoded m handler value hdec hfind hk hh =>
    rw [tryMemoryAccessHandler_write hdec hfind hk hh]
    refine ⟨trivial, fun r => ?_⟩
    cases r with
    | fault => exact fun _ => rfl
    | handled => exact hdone rs

theorem exec_handleSyncLower_refused {env : Env M σ} {h : Prog.Handler (Eff σ) Eff.Resp S} {sys : SysRegs}
    (hec : ExceptionClass.ofU8 (esrEc sys.esrEl2) = .dataAbortLowerEL) {rs rs₁ : GuestRegisterState} {s s' : S}
    {log : List (CallRecord σ)}
    (hrefused : exec h s (tryMemoryAccessHandler env sys rs) = some ((.error (), rs₁), s', log)) :
    exec h s (handleSyncLower env sys rs) =
      (exec h s' (injectDataAbort sys rs)).map (fun r => (r.1, r.2.1, log ++ r.2.2)) := by
  obtain ⟨-, hkeep⟩ := (tryMemoryAccessHandler_error_keeps env sys rs).of_exec hrefused
  obtain rfl : rs₁ = rs := hkeep rfl
  unfold handleSyncLower
  simp only [hec]
  rw [Prog.exec_bind _ hrefused]

/-- **An abort that is not emulated is taken as the architecture takes it exactly when the guest was at EL1h** and its
vector is inside the address space. -/
theorem dataAbort_taken_iff (env : Env M σ) (h : Prog.Handler (Eff σ) Eff.Resp S) {sys : SysRegs}
    (hec : ExceptionClass.ofU8 (esrEc sys.esrEl2) = .dataAbortLowerEL) (hvbar : sys.vbarEl1 ≠ 0)
    {rs : GuestRegisterState} {mode : GuestMode} (hmode : GuestMode.ofSpsr rs.volatile.spsr = some mode)
    {s s' : S} {rs₁ : GuestRegisterState} {log : List (CallRecord σ)}
    (hrefused : exec h s (tryMemoryAccessHandler env sys rs) = some ((.error (), rs₁), s', log)) :
    (∃ sys' rs', exec h s (handleSyncLower env sys rs) = some ((sys', rs'), s', log) ∧
        TakesDataAbort mode sys rs sys' rs') ↔
      rs.volatile.spsr.extractLsb' 0 4 = 5 ∧ sys.vbarEl1.toNat + 0x200 < 2 ^ 64 := by
  rw [exec_handleSyncLower_refused hec hrefused, ← GuestMode.ofSpsr_eq_el1h_iff, hmode, Option.some.injEq]
  by_cases hvector : sys.vbarEl1.toNat + 0x200 < 2 ^ 64
  · rw [injectDataAbort_eq (dataAbort_ec hec) hvbar hvector, Prog.exec_ret, Option.map_some, List.append_nil]
    constructor
    · rintro ⟨sys', rs', heq, htakes⟩
      cases heq
      exact ⟨(takesDataAbort_injected_iff sys rs mode).1 htakes, hvector⟩
    · rintro ⟨hel1h, -⟩
      exact ⟨_, _, rfl, (takesDataAbort_injected_iff sys rs mode).2 hel1h⟩
  · rw [injectDataAbort_overflow hvbar hvector]
    constructor
    · rintro ⟨sys', rs', heq, -⟩
      rw [exec_panic] at heq
      cases heq
    · exact fun h => absurd h.2 hvector

theorem dataAbort_taken_iff_el1h :
    let sys : SysRegs := { (default : SysRegs) with esrEl2 := 0x90000000, vbarEl1 := 0x800 }
    let rs : GuestRegisterState := (default : GuestRegisterState).setExceptionReturn 0x1000 0x3c5
    ∃ sys' rs', exec deviceHandler (fun _ => 0) (handleSyncLower byteEnv sys rs) = some ((sys', rs'), (fun _ => 0), []) ∧
      TakesDataAbort .el1h sys rs sys' rs' :=
  (dataAbort_taken_iff byteEnv deviceHandler (by decide) (by decide) rfl rfl).2 (by decide)

/-- A fault of a guest's user space is delivered as if its kernel had faulted. -/
theorem dataAbort_el0_delivered_as_el1 :
    let sys : SysRegs := { (default : SysRegs) with esrEl2 := 0x90000000, vbarEl1 := 0x800 }
    let rs : GuestRegisterState := (default : GuestRegisterState).setExceptionReturn 0x1000 0
    ∃ sys' rs', exec deviceHandler (fun _ => 0) (handleSyncLower byteEnv sys rs) = some ((sys', rs'), (fun _ => 0), []) ∧
      GuestMode.ofSpsr rs.volatile.spsr = some .el0t ∧
      rs'.volatile.elr = sys.vbarEl1 + 0x200 ∧ esrEc sys'.esrEl1 = 0x25 ∧ ¬ TakesDataAbort .el0t sys rs sys' rs' := by
  refine ⟨_, _, rfl, rfl, rfl, by decide, fun h => ?_⟩
  exact absurd h.vector (by decide)

/-! ## Returning to EL1 -/

structure CpuRegs where
  x : Fin 31 → U64
  v : Fin 32 → BitVec 128

inductive EretInstruction where
  | movZero (register : Fin 31)
  | moviZero (register : Fin 32)
  deriving DecidableEq, Repr

def EretInstruction.step (cpu : CpuRegs) : EretInstruction → CpuRegs
  | movZero register => { cpu with x := fun i => if i = register then 0 else cpu.x i }
  | moviZero register => { cpu with v := fun i => if i = register then 0 else cpu.v i }

/-- `mov x4, 0` to `mov x30, 0`, and `movi v0.2d, #0` to `movi v31.2d, #0`. -/
def eretToEl1Code : List EretInstruction :=
  ((List.finRange 31).drop 4).map .movZero ++ (List.finRange 32).map .moviZero

def CpuRegs.withArguments (cpu : CpuRegs) (x0 x1 x2 x3 : U64) : CpuRegs :=
  { cpu with
      x := fun i =>
        if i.val = 0 then x0 else if i.val = 1 then x1 else if i.val = 2 then x2 else if i.val = 3 then x3 else cpu.x i }

def eretToEl1 (cpu : CpuRegs) (x0 x1 x2 x3 : U64) : CpuRegs :=
  eretToEl1Code.foldl EretInstruction.step (cpu.withArguments x0 x1 x2 x3)

theorem foldl_step_x : ∀ (code : List EretInstruction) (cpu : CpuRegs) (i : Fin 31),
    (code.foldl EretInstruction.step cpu).x i = if .movZero i ∈ code then 0 else cpu.x i
  | [], _, _ => rfl
  | .movZero register :: code, cpu, i => by
    rw [List.foldl_cons, foldl_step_x code]
    by_cases h : i = register <;> simp [EretInstruction.step, h]
  | .moviZero register :: code, cpu, i => by
    rw [List.foldl_cons, foldl_step_x code]
    simp [EretInstruction.step]

theorem foldl_step_v : ∀ (code : List EretInstruction) (cpu : CpuRegs) (i : Fin 32),
    (code.foldl EretInstruction.step cpu).v i = if .moviZero i ∈ code then 0 else cpu.v i
  | [], _, _ => rfl
  | .movZero register :: code, cpu, i => by
    rw [List.foldl_cons, foldl_step_v code]
    simp [EretInstruction.step]
  | .moviZero register :: code, cpu, i => by
    rw [List.foldl_cons, foldl_step_v code]
    by_cases h : i = register <;> simp [EretInstruction.step, h]

/-- **Every register but the arguments is overwritten**, so nothing RITM held reaches the guest. -/
theorem eretToEl1_x (cpu : CpuRegs) (x0 x1 x2 x3 : U64) : (eretToEl1 cpu x0 x1 x2 x3).x = eretGprs x0 x1 x2 x3 := by
  funext i
  have hcode : EretInstruction.movZero i ∈ eretToEl1Code ↔ 4 ≤ i.val := by
    revert i
    decide
  unfold eretToEl1
  rw [foldl_step_x]
  unfold CpuRegs.withArguments eretGprs
  by_cases hi : 4 ≤ i.val
  · rw [if_pos (hcode.2 hi), if_neg, if_neg, if_neg, if_neg]
    all_goals
      rintro rfl
      exact absurd hi (by decide)
  · rw [if_neg (fun h => hi (hcode.1 h))]
    grind

theorem eretToEl1_v (cpu : CpuRegs) (x0 x1 x2 x3 : U64) : (eretToEl1 cpu x0 x1 x2 x3).v = fun _ => 0 := by
  funext i
  unfold eretToEl1
  rw [foldl_step_v, if_pos]
  simp [eretToEl1Code]

/-! ## The state a guest starts in -/

/-- What a guest that is entered finds. -/
structure GuestStart where
  pc : U64
  pstate : U64
  x : Fin 31 → U64
  v : Fin 32 → BitVec 128
  hcrEl2 : U64
  sctlrEl1 : U64
  tcrEl1 : U64
  ttbr0El1 : U64
  vbarEl1 : U64
  mairEl1 : U64
  spEl1 : U64

/-- The guest after `entry_point_el1`, called on a core whose registers were `sys` and `cpu`.  `eret` restores PSTATE
from those bits of SPSR_EL2 that the processor implements, `restored`. -/
def guestStart [IdMap M] (restored : U64) (env : Env M σ) (sys : SysRegs) (cpu : CpuRegs)
    (arg0 arg1 arg2 arg3 entryPoint : U64) : GuestStart :=
  let sys' := (entryPointEl1 env sys arg0 arg1 arg2 arg3 entryPoint).1
  let cpu' := eretToEl1 cpu arg0 arg1 arg2 arg3
  { pc := sys'.elrEl2
    pstate := sys'.spsrEl2 &&& restored
    x := cpu'.x
    v := cpu'.v
    hcrEl2 := sys'.hcrEl2
    sctlrEl1 := sys'.sctlrEl1
    tcrEl1 := sys'.tcrEl1
    ttbr0El1 := sys'.ttbr0El1
    vbarEl1 := sys'.vbarEl1
    mairEl1 := sys'.mairEl1
    spEl1 := sys'.spEl1 }

/-- The bits of SPSR_EL2 that `eret` restores and `entry_point_el1` leaves as they were: all but M[3:0], D, A, I and
F. -/
def staleBits (restored : U64) : U64 := restored &&& ~~~0x3cf

theorem maskDaif_setField (spsr : U64) : maskDaif (setField spsr 0 4 spsrEl1h) = (spsr &&& ~~~0x3cf) ||| 0x3c5 := by
  have hbits : ∀ i < 64, ∀ b : Bool,
      (b && !(((1#64 <<< 4) - 1) <<< 0).getLsbD i || ((spsrEl1h &&& ((1#64 <<< 4) - 1)) <<< 0).getLsbD i ||
          (1#64 <<< 9).getLsbD i || (1#64 <<< 8).getLsbD i || (1#64 <<< 7).getLsbD i || (1#64 <<< 6).getLsbD i) =
        (b && !(0x3cf#64).getLsbD i || (0x3c5#64).getLsbD i) := by decide
  apply BitVec.eq_of_getLsbD_eq
  intro i hi
  unfold maskDaif setBit setField
  simp only [BitVec.getLsbD_or, BitVec.getLsbD_and, BitVec.getLsbD_not, hi, decide_true, Bool.true_and]
  exact hbits i hi _

theorem pstate_guestStart [IdMap M] (restored : U64) (env : Env M σ) (sys : SysRegs) (cpu : CpuRegs)
    (arg0 arg1 arg2 arg3 entryPoint : U64) :
    (guestStart restored env sys cpu arg0 arg1 arg2 arg3 entryPoint).pstate =
      (sys.spsrEl2 &&& staleBits restored) ||| (0x3c5 &&& restored) := by
  show maskDaif (setField sys.spsrEl2 0 4 spsrEl1h) &&& restored = _
  rw [maskDaif_setField, staleBits]
  apply BitVec.eq_of_getLsbD_eq
  intro i hi
  simp only [BitVec.getLsbD_or, BitVec.getLsbD_and, BitVec.getLsbD_not]
  grind

theorem pstate_eq_iff (restored spsr₁ spsr₂ : U64) :
    (spsr₁ &&& staleBits restored) ||| (0x3c5 &&& restored) = (spsr₂ &&& staleBits restored) ||| (0x3c5 &&& restored) ↔
      spsr₁ &&& staleBits restored = spsr₂ &&& staleBits restored := by
  refine ⟨fun h => ?_, fun h => by rw [h]⟩
  -- the bits that are set are none of the stale ones
  have hset : ∀ i < 64, (0x3c5#64).getLsbD i = true → (0x3cf#64).getLsbD i = true := by decide
  apply BitVec.eq_of_getLsbD_eq
  intro i hi
  have hbit := congrArg (fun x => BitVec.getLsbD x i) h
  have hset := hset i hi
  simp only [staleBits, BitVec.getLsbD_or, BitVec.getLsbD_and, BitVec.getLsbD_not] at hbit ⊢
  grind

theorem el1hMasked_iff {restored : U64} (hrestored : restored &&& 0x3df = 0x3df) (spsr : U64) :
    El1hMasked ((spsr &&& staleBits restored) ||| (0x3c5 &&& restored)) ↔ spsr.getLsbD 4 = false := by
  have hr : ∀ i, (0x3df : U64).getLsbD i = true → restored.getLsbD i = true := fun i hi => by
    have hbit := congrArg (fun x => BitVec.getLsbD x i) hrestored
    simp only [BitVec.getLsbD_and, hi, Bool.and_true] at hbit
    exact hbit
  constructor
  · rintro ⟨hmode, -⟩
    have hbit := congrArg (fun x => BitVec.getLsbD x 4) hmode
    simp only [staleBits, BitVec.getLsbD_or, BitVec.getLsbD_and, BitVec.getLsbD_not, hr 4 (by decide)] at hbit
    simpa using hbit
  · intro h4
    have hbits : ∀ i < 64, ∀ b r : Bool, (i = 4 → b = false) → ((0x3df#64).getLsbD i = true → r = true) →
        ((b && (r && !(0x3cf#64).getLsbD i) || (0x3c5#64).getLsbD i && r) && (0x1f#64).getLsbD i) = (5#64).getLsbD i ∧
        ((b && (r && !(0x3cf#64).getLsbD i) || (0x3c5#64).getLsbD i && r) && (0x3c0#64).getLsbD i) =
          (0x3c0#64).getLsbD i := by decide
    constructor <;> apply BitVec.eq_of_getLsbD_eq <;> intro i hi
    · simp only [staleBits, BitVec.getLsbD_or, BitVec.getLsbD_and, BitVec.getLsbD_not, hi, decide_true, Bool.true_and]
      exact (hbits i hi _ _ (fun h => h ▸ h4) (hr i)).1
    · simp only [staleBits, BitVec.getLsbD_or, BitVec.getLsbD_and, BitVec.getLsbD_not, hi, decide_true, Bool.true_and]
      exact (hbits i hi _ _ (fun h => h ▸ h4) (hr i)).2

/-- **The guest's first state depends on the arguments only, and is EL1h with interrupts masked, exactly when** the bits
of SPSR_EL2 that are read back agree, and M[4] is clear. -/
theorem guestStart_eq_iff [IdMap M] (env : Env M σ) {restored : U64} (hrestored : restored &&& 0x3df = 0x3df)
    (sys₁ sys₂ : SysRegs) (cpu₁ cpu₂ : CpuRegs) (arg0 arg1 arg2 arg3 entryPoint : U64) :
    (guestStart restored env sys₁ cpu₁ arg0 arg1 arg2 arg3 entryPoint =
        guestStart restored env sys₂ cpu₂ arg0 arg1 arg2 arg3 entryPoint ∧
      El1hMasked (guestStart restored env sys₁ cpu₁ arg0 arg1 arg2 arg3 entryPoint).pstate) ↔
    sys₁.spsrEl2 &&& staleBits restored = sys₂.spsrEl2 &&& staleBits restored ∧ sys₁.spsrEl2.getLsbD 4 = false := by
  have hp₁ := pstate_guestStart restored env sys₁ cpu₁ arg0 arg1 arg2 arg3 entryPoint
  have hp₂ := pstate_guestStart restored env sys₂ cpu₂ arg0 arg1 arg2 arg3 entryPoint
  rw [hp₁, el1hMasked_iff hrestored]
  refine and_congr_left fun _ => ⟨fun h => ?_, fun h => ?_⟩
  · rw [← pstate_eq_iff, ← hp₁, ← hp₂, h]
  · rw [← pstate_eq_iff, ← hp₁, ← hp₂] at h
    unfold guestStart at h ⊢
    simp only [GuestStart.mk.injEq, eretToEl1_x, eretToEl1_v]
    exact ⟨rfl, h, trivial, trivial, rfl, rfl, rfl, rfl, rfl, rfl, rfl⟩

/-- The bits of an Armv8.0 processor: N, Z, C, V, SS, IL, D, A, I, F and M[4:0]. -/
def armv8Restored : U64 := 0xf03003df

def zeroRegs : CpuRegs := ⟨fun _ => 0, fun _ => 0⟩

theorem guestStart_eq_iff_armv8 :
    (guestStart armv8Restored byteEnv default zeroRegs 1 2 3 4 0x40080000 =
        guestStart armv8Restored byteEnv { (default : SysRegs) with elrEl2 := 5 } zeroRegs 1 2 3 4 0x40080000 ∧
      El1hMasked (guestStart armv8Restored byteEnv default zeroRegs 1 2 3 4 0x40080000).pstate) ↔
    (0 : U64) &&& staleBits armv8Restored = 0 &&& staleBits armv8Restored ∧ (0 : U64).getLsbD 4 = false :=
  guestStart_eq_iff byteEnv (by decide) default { (default : SysRegs) with elrEl2 := 5 } zeroRegs zeroRegs 1 2 3 4 0x40080000

/-- With the N flag left in SPSR_EL2 the guest starts with it set; with M[4] left, not in AArch64. -/
theorem guestStart_keeps_stale_spsr :
    (guestStart armv8Restored byteEnv { (default : SysRegs) with spsrEl2 := 0x80000000 } zeroRegs 1 2 3 4 0x40080000).pstate ≠
      (guestStart armv8Restored byteEnv default zeroRegs 1 2 3 4 0x40080000).pstate ∧
    ¬ El1hMasked
      (guestStart armv8Restored byteEnv { (default : SysRegs) with spsrEl2 := 0x10 } zeroRegs 1 2 3 4 0x40080000).pstate := by
  constructor
  · decide
  · intro h
    exact absurd h.1 (by decide)

end Ritm
