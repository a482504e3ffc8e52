import Ritm.DataAbort
/-!
# Hypercall — what a hypervisor call changes, and that both conduits are one

The dispatch decides a result (`callResult`), and only the result's own registers are written.  A trapped SMC then steps
over its instruction; nothing else depends on how the guest called.
-/
namespace Ritm

open Lib (Prog)
open Lib.Prog (exec)
open GuestRegisterState (setGpr)

variable {M σ S : Type}

/-! ## What a result writes -/

namespace HvcResult

def values : HvcResult → List U64
  | .handled (.ok (.success results)) => results.toList
  | .handled (.ok (.successLarge results)) => results.toList
  | .handled (.error error) => [errorToU64 error]
  | .unhandled => [errorToU64 .notSupported]

/-- How many registers a result may change: x0, or x0–x3, or x0–x17. -/
def written : HvcResult → Nat
  | .handled (.ok (.success _)) => 4
  | .handled (.ok (.successLarge _)) => 18
  | .handled (.error _) => 1
  | .unhandled => 1

theorem length_values (result : HvcResult) : result.values.length = result.written := by
  match result with
  | .handled (.ok (.success results)) => exact results.length_toList
  | .handled (.ok (.successLarge results)) => exact results.length_toList
  | .handled (.error error) => rfl
  | .unhandled => rfl

theorem written_le (result : HvcResult) : result.written ≤ 18 := by
  unfold written
  split <;> decide

theorem modifyRegisterState_eq (result : HvcResult) (rs : GuestRegisterState) :
    result.modifyRegisterState rs = writeResponseRegisters rs result.values := by
  match result with
  | .handled (.ok (.success _)) => rfl
  | .handled (.ok (.successLarge _)) => rfl
  | .handled (.error _) => rfl
  | .unhandled => rfl

end HvcResult

theorem gprs_foldl_writeGpr : ∀ (values : List U64) (n : Nat) (rs : GuestRegisterState) (i : Fin 31),
    ((values.zipIdx n).foldl (fun rs r => (rs.writeGpr r.2 r.1).2) rs).gprs i =
      if n ≤ i.val then (values[i.val - n]?).getD (rs.gprs i) else rs.gprs i
  | [], n, rs, i => by simp
  | value :: values, n, rs, i => by
    rw [List.zipIdx_cons, List.foldl_cons, gprs_foldl_writeGpr values (n + 1), GuestRegisterState.gprs_writeGpr, setGpr]
    rcases Nat.lt_trichotomy i.val n with hi | hi | hi
    · rw [if_neg (by omega), if_neg (by omega), if_neg (by omega)]
    · rw [if_neg (by omega), if_pos hi, if_pos (by omega), hi, Nat.sub_self]
      rfl
    · rw [if_pos (by omega), if_neg (by omega), if_pos (by omega),
        show i.val - n = i.val - (n + 1) + 1 by omega, List.getElem?_cons_succ]

/-- **The registers after a call** are the result's values, and above them the registers as they were. -/
theorem HvcResult.gprs_modifyRegisterState (result : HvcResult) (rs : GuestRegisterState) (i : Fin 31) :
    (result.modifyRegisterState rs).gprs i = (result.values[i.val]?).getD (rs.gprs i) := by
  rw [result.modifyRegisterState_eq, writeResponseRegisters, gprs_foldl_writeGpr, if_pos (Nat.zero_le _), Nat.sub_zero]

theorem HvcResult.gprs_modifyRegisterState_of_le {result : HvcResult} {i : Fin 31} (h : result.written ≤ i.val)
    (rs : GuestRegisterState) : (result.modifyRegisterState rs).gprs i = rs.gprs i := by
  rw [result.gprs_modifyRegisterState, List.getElem?_eq_none (by rw [result.length_values]; exact h), Option.getD_none]

/-! ## The dispatch -/

def callResult (env : Env M σ) (sys : SysRegs) (rs : GuestRegisterState) : Hyp σ HvcResult :=
  let call := GuestCall.ofRegisters rs
  if isPsciFunctionId call.fnId then do
    let r ← tryHandlePsci env sys call.fnId call.arg0 call.arg1 call.arg2
    pure (.handled r)
  else pure (env.handleHvc call.fnId (rs.volatileGprs.toList.drop 1 |>.take 17))

theorem handleCall_eq (env : Env M σ) (sys : SysRegs) (rs : GuestRegisterState) :
    handleCall env sys rs = callResult env sys rs >>= fun result => pure (result.modifyRegisterState rs) := by
  rw [handleCall, callResult, GuestCall.ofRegisters]
  by_cases hpsci : isPsciFunctionId rs.volatileGprs[0] = true
  · rw [if_pos hpsci, if_pos hpsci, Prog.bind_assoc]
  · rw [if_neg hpsci, if_neg hpsci]

theorem callResult_esrEl2 (env : Env M σ) (sys : SysRegs) (rs : GuestRegisterState) (esr : U64) :
    callResult env { sys with esrEl2 := esr } rs = callResult env sys rs := rfl

section Run

variable {h : Prog.Handler (Eff σ) Eff.Resp S} {s : S} {env : Env M σ} {sys : SysRegs} {rs : GuestRegisterState}

theorem exec_handleCall {result : HvcResult} {s' : S} {log : List (CallRecord σ)}
    (he : exec h s (callResult env sys rs) = some (result, s', log)) :
    exec h s (handleCall env sys rs) = some (result.modifyRegisterState rs, s', log) := by
  rw [handleCall_eq, Prog.exec_bind _ he]
  simp only [Prog.pure_eq, Prog.exec_ret, Option.map_some, List.append_nil]

theorem exec_handleCall_none (he : exec h s (callResult env sys rs) = none) : exec h s (handleCall env sys rs) = none := by
  rw [handleCall_eq]
  exact Prog.exec_bind_none _ he

theorem exec_hvc (hec : ExceptionClass.ofU8 (esrEc sys.esrEl2) = .hvcTrappedInAArch64) {result : HvcResult} {s' : S}
    {log : List (CallRecord σ)} (he : exec h s (callResult env sys rs) = some (result, s', log)) :
    exec h s (handleSyncLower env sys rs) = some ((sys, result.modifyRegisterState rs), s', log) := by
  unfold handleSyncLower
  simp only [hec]
  rw [Prog.exec_bind _ (exec_handleCall he)]
  simp only [Prog.pure_eq, Prog.exec_ret, Option.map_some, List.append_nil]

theorem exec_smc (hec : ExceptionClass.ofU8 (esrEc sys.esrEl2) = .smcTrappedInAArch64) {result : HvcResult} {s' : S}
    {log : List (CallRecord σ)} (he : exec h s (callResult env sys rs) = some (result, s', log)) :
    exec h s (handleSyncLower env sys rs) =
      ((result.modifyRegisterState rs).advancePc aarch64InstructionLength).map (fun rs' => ((sys, rs'), s', log)) := by
  unfold handleSyncLower
  simp only [hec]
  rw [Prog.exec_bind _ (exec_handleCall he)]
  unfold advanceGuestPc
  cases (result.modifyRegisterState rs).advancePc aarch64InstructionLength with
  | none =>
    simp only [Option.map_none, Option.map_eq_none_iff]
    exact Prog.exec_bind_none _ (exec_panic _)
  | some rs' => simp only [Prog.pure_eq, Prog.ret_bind, Prog.exec_ret, Option.map_some, List.append_nil]

theorem exec_call_none (hec : ExceptionClass.ofU8 (esrEc sys.esrEl2) = .hvcTrappedInAArch64 ∨
      ExceptionClass.ofU8 (esrEc sys.esrEl2) = .smcTrappedInAArch64)
    (he : exec h s (callResult env sys rs) = none) : exec h s (handleSyncLower env sys rs) = none := by
  unfold handleSyncLower
  rcases hec with hec | hec <;> simp only [hec] <;> exact Prog.exec_bind_none _ (exec_handleCall_none he)

end Run

/-- **What a call may change**: the result's registers, and not x18–x30 or SPSR. -/
structure Framed (result : HvcResult) (rs rs' : GuestRegisterState) : Prop where
  above : ∀ i : Fin 31, result.written ≤ i.val → rs'.gprs i = rs.gprs i
  high : ∀ i : Fin 31, 18 ≤ i.val → rs'.gprs i = rs.gprs i
  spsr_eq : rs'.volatile.spsr = rs.volatile.spsr

theorem Framed.of_gprs {result : HvcResult} {rs rs' : GuestRegisterState}
    (hg : rs'.gprs = (result.modifyRegisterState rs).gprs) (hs : rs'.volatile.spsr = rs.volatile.spsr) :
    Framed result rs rs' where
  above i hi := by rw [hg, HvcResult.gprs_modifyRegisterState_of_le hi]
  high i hi := by rw [hg, HvcResult.gprs_modifyRegisterState_of_le (Nat.le_trans result.written_le hi)]
  spsr_eq := hs

/-- **Hypercall frame and conduit equivalence.**  A call that returns has written its result's registers and nothing
else; and from one saved state, with the same answers to every call, an HVC and an SMC end alike, the SMC one
instruction further on. -/
theorem hypercall_frame_and_conduit (env : Env M σ) (h : Prog.Handler (Eff σ) Eff.Resp S) (s : S)
    (rs : GuestRegisterState) :
    (∀ sys sys' rs' s' log, (ExceptionClass.ofU8 (esrEc sys.esrEl2) = .hvcTrappedInAArch64 ∨
        ExceptionClass.ofU8 (esrEc sys.esrEl2) = .smcTrappedInAArch64) →
      exec h s (handleSyncLower env sys rs) = some ((sys', rs'), s', log) →
      ∃ result, exec h s (callResult env sys rs) = some (result, s', log) ∧ sys' = sys ∧ Framed result rs rs') ∧
    (∀ (sys : SysRegs) (esr : U64), ExceptionClass.ofU8 (esrEc sys.esrEl2) = .hvcTrappedInAArch64 →
      ExceptionClass.ofU8 (esrEc esr) = .smcTrappedInAArch64 → rs.volatile.elr.toNat + 4 < 2 ^ 64 →
      (exec h s (handleSyncLower env sys rs) = none ∧
        exec h s (handleSyncLower env { sys with esrEl2 := esr } rs) = none) ∨
      ∃ rsHvc rsSmc s' log, exec h s (handleSyncLower env sys rs) = some ((sys, rsHvc), s', log) ∧
        exec h s (handleSyncLower env { sys with esrEl2 := esr } rs) =
          some (({ sys with esrEl2 := esr }, rsSmc), s', log) ∧
        rsSmc.gprs = rsHvc.gprs ∧ rsHvc.exceptionReturn = (rs.volatile.elr, rs.volatile.spsr) ∧
        rsSmc.exceptionReturn = (rs.volatile.elr + 4, rs.volatile.spsr)) := by
  have hreturn : ∀ result : HvcResult, (result.modifyRegisterState rs).exceptionReturn = (rs.volatile.elr, rs.volatile.spsr) :=
    fun result => result.modifyRegisterState_exceptionReturn rs
  refine ⟨fun sys sys' rs' s' log hec hrun => ?_, fun sys esr hhvc hsmc helr => ?_⟩
  · cases he : exec h s (callResult env sys rs) with
    | none =>
      rw [exec_call_none hec he] at hrun
      cases hrun
    | some x =>
      obtain ⟨result, s₁, log₁⟩ := x
      rcases hec with hec | hec
      · rw [exec_hvc hec he] at hrun
        cases hrun
        exact ⟨result, rfl, rfl, .of_gprs rfl (congrArg Prod.snd (hreturn result))⟩
      · rw [exec_smc hec he] at hrun
        obtain ⟨rs₁, hrs, heq⟩ := Option.map_eq_some_iff.1 hrun
        cases heq
        exact ⟨result, rfl, rfl, .of_gprs (GuestRegisterState.advancePc_gprs hrs)
          ((GuestRegisterState.advancePc_spsr hrs).trans (congrArg Prod.snd (hreturn result)))⟩
  · cases he : exec h s (callResult env sys rs) with
    | none => exact .inl ⟨exec_call_none (.inl hhvc) he, exec_call_none (.inr hsmc) he⟩
    | some x =>
      obtain ⟨result, s', log⟩ := x
      have helr' : (result.modifyRegisterState rs).volatile.elr = rs.volatile.elr := congrArg Prod.fst (hreturn result)
      obtain ⟨rsSmc, hpc, hg, hr⟩ := (result.modifyRegisterState rs).advancePc_of_lt aarch64InstructionLength
        (by rw [helr']; exact helr)
      refine .inr ⟨result.modifyRegisterState rs, rsSmc, s', log, exec_hvc hhvc he, ?_, hg, hreturn result, ?_⟩
      · rw [@exec_smc _ _ _ h s env { sys with esrEl2 := esr } rs hsmc _ _ _ (by rw [callResult_esrEl2, he]), hpc]
        rfl
      · rw [hr, helr', show (result.modifyRegisterState rs).volatile.spsr = rs.volatile.spsr from
          congrArg Prod.snd (hreturn result)]
        rfl

theorem hypercall_frame_and_conduit_byteEnv :
    ∃ rsHvc rsSmc s' log,
      exec deviceHandler (fun _ => 0) (handleSyncLower byteEnv { (default : SysRegs) with esrEl2 := 0x58000000 } default) =
        some (({ (default : SysRegs) with esrEl2 := 0x58000000 }, rsHvc), s', log) ∧
      exec deviceHandler (fun _ => 0) (handleSyncLower byteEnv { (default : SysRegs) with esrEl2 := 0x5c000000 } default) =
        some (({ (default : SysRegs) with esrEl2 := 0x5c000000 }, rsSmc), s', log) ∧
      rsSmc.gprs = rsHvc.gprs ∧ rsHvc.exceptionReturn = (0, 0) ∧ rsSmc.exceptionReturn = (4, 0) := by
  rcases (hypercall_frame_and_conduit byteEnv deviceHandler (fun _ => 0) default).2
    { (default : SysRegs) with esrEl2 := 0x58000000 } 0x5c000000 (by decide) (by decide) (by decide) with h | h
  · cases h.1
  · exact h

end Ritm
