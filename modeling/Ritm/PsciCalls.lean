import Ritm.Hypercall
import Ritm.Mediation
import Ritm.PsciMachine
/-!
# PsciCalls — what a guest's trap asks of firmware

A second protocol of the trap handler, which keeps the answer firmware gave: a PSCI call that decodes makes one SMC, and
its guest continues after the call with what that SMC returned (`serveTrap_asks`); no other trap makes one
(`serveTrap_other`).
-/
namespace Ritm

open Lib (Prog)
open Lib.Prog (Obeys Protocol obeys_bind)
open Direct (Frame decode)

variable {M σ : Type}

/-! ## What a trap asks of firmware -/

/-- Where the code that serves a trap is: the trap is no PSCI call; the call is not answered yet; firmware answered. -/
inductive AskPhase where
  | other
  | asked
  | answered (x0 : U64)

/-- The SMC is the one RITM makes for the guest's call. -/
def Asks (psci : PsciDecoder) (call : GuestCall) (functionId : U32) (args : List U64) : Prop :=
  isPsciFunctionId call.fnId = true ∧
    match decode psci call with
    | .error _ => False
    | .ok (.cpuOn target _) => functionId = smcCpuOn64 ∧ args.getD 0 0 = target
    | .ok (.cpuSuspend ..) => functionId = smcCpuSuspend64
    | .ok _ => call.Forwarded functionId args

def AskPhase.Allows (psci : PsciDecoder) (call : GuestCall) : AskPhase → Eff σ → Prop
  | other, .callRead .. => True
  | other, .callWrite .. => True
  | asked, .getSecondaryStack _ => True
  | asked, .writeStartClosure .. => True
  | asked, .suspendInsert .. => True
  | asked, .smc functionId args => Asks psci call functionId args
  | answered _, .suspendRemove _ => True
  | _, .panic _ => True
  | _, _ => False

def AskPhase.next : AskPhase → (e : Eff σ) → e.Resp → AskPhase
  | asked, .smc .., x0 => answered x0
  | phase, _, _ => phase

def askProtocol (psci : PsciDecoder) (call : GuestCall) : Protocol (Eff σ) Eff.Resp AskPhase where
  allow := AskPhase.Allows psci call
  next := AskPhase.next

def GuestRegisterState.frame (rs : GuestRegisterState) : Frame := ⟨rs.volatile.elr, rs.volatile.spsr, rs.gprs⟩

/-- The frame a guest that made the call is to continue in: a trapped SMC is stepped over. -/
def SysRegs.callFrame (sys : SysRegs) (rs : GuestRegisterState) : Frame :=
  match ExceptionClass.ofU8 (esrEc sys.esrEl2) with
  | .smcTrappedInAArch64 => { rs.frame with pc := rs.volatile.elr + aarch64InstructionLength }
  | _ => rs.frame

/-- How the code ends, for a call made in the frame. -/
def AskPhase.Ends (psci : PsciDecoder) (frame : Frame) : AskPhase → Exit → Prop
  | other, .resume _ _ => True
  | asked, .resume _ rs' => ∃ code, decode psci frame.call = .error code ∧
      rs'.frame = frame.fail (errorToU64 (.ofI32 code))
  | answered x0, .resume _ rs' => rs'.frame = frame.respond x0
  | _, _ => False

section Code

variable {env : Env M σ} {sys : SysRegs} {rs : GuestRegisterState} {call : GuestCall}

def AskPhase.Yields (psci : PsciDecoder) (call : GuestCall) : AskPhase → Except U32 U64 → Prop
  | asked, .error code => decode psci call = .error code
  | answered x0, .ok value => value = x0
  | _, _ => False

theorem asks_of_forwarded {f : PsciFunction} (hpsci : isPsciFunctionId call.fnId = true)
    (hd : decode env.psci call = .ok f) (hon : ∀ t e, f ≠ .cpuOn t e)
    (hsuspend : ∀ s e, f ≠ .cpuSuspend s e) :
    Asks env.psci call (call.fnId.setWidth 32) (smcArgs call.arg0 call.arg1 call.arg2) := by
  have hf := forwarded_of_decodes (env.psci.tryFrom_ok hpsci hd).1 hon hsuspend
  refine ⟨hpsci, ?_⟩
  rw [hd]
  cases f with
  | cpuOn t e => exact absurd rfl (hon t e)
  | cpuSuspend s e => exact absurd rfl (hsuspend s e)
  | _ => exact hf

theorem forwardPsci_asks {f : PsciFunction} (hpsci : isPsciFunctionId call.fnId = true)
    (hd : decode env.psci call = .ok f) (hon : ∀ t e, f ≠ .cpuOn t e)
    (hsuspend : ∀ s e, f ≠ .cpuSuspend s e) :
    Obeys (askProtocol env.psci call) (AskPhase.Yields env.psci call) .asked
      (forwardPsci (σ := σ) call.fnId call.arg0 call.arg1 call.arg2) :=
  ⟨asks_of_forwarded hpsci hd hon hsuspend, fun _ => rfl⟩

/-- **The handler of a PSCI call asks firmware once**, unless the call does not decode. -/
theorem handlePsci_asks (env : Env M σ) (sys : SysRegs) (call : GuestCall)
    (hpsci : isPsciFunctionId call.fnId = true) :
    Obeys (askProtocol env.psci call) (AskPhase.Yields env.psci call) .asked
      (handlePsci env sys call.fnId call.arg0 call.arg1 call.arg2) := by
  unfold handlePsci
  split
  · rename_i code hd
    exact hd
  · rename_i f hd
    split
    case h_21 targetCpu entry =>
      have hasks : ∀ slot, Asks env.psci call smcCpuOn64 (smcArgs targetCpu env.rt.secondaryEntry (env.rt.stackEnd slot)) := by
        intro slot
        rw [Asks, decode, hd]
        exact ⟨hpsci, rfl, rfl⟩
      exact ⟨trivial, fun slot => ⟨trivial, fun _ => ⟨hasks slot, psciResultToU64_successOrError⟩⟩⟩
    case h_22 state entry =>
      have hasks : ∀ slot, Asks env.psci call smcCpuSuspend64
          (smcArgs (state.setWidth 64) env.rt.resumeEntry (env.rt.suspendContext slot)) := by
        intro slot
        rw [Asks, decode, hd]
        exact ⟨hpsci, rfl⟩
      exact ⟨trivial, fun _ => ⟨trivial, fun slot => ⟨hasks slot, fun x0 =>
        ⟨trivial, fun _ => psciResultToU64_successOrError x0⟩⟩⟩⟩
    all_goals exact forwardPsci_asks hpsci hd (fun _ _ => nofun) (fun _ _ => nofun)

theorem frame_modifyRegisterState (result : HvcResult) (rs : GuestRegisterState) :
    (result.modifyRegisterState rs).frame =
      { rs.frame with x := fun i => (result.values[i.val]?).getD (rs.gprs i) } := by
  have hreturn := result.modifyRegisterState_exceptionReturn rs
  unfold GuestRegisterState.frame
  rw [Frame.mk.injEq]
  exact ⟨congrArg Prod.fst hreturn, congrArg Prod.snd hreturn, funext (result.gprs_modifyRegisterState rs)⟩

theorem frame_ok (x0 : U64) (rs : GuestRegisterState) :
    ((HvcResult.handled (.ok (.ofU64 x0))).modifyRegisterState rs).frame = rs.frame.respond x0 := by
  rw [frame_modifyRegisterState, Frame.respond, Frame.mk.injEq]
  refine ⟨rfl, rfl, funext fun i => ?_⟩
  match i with
  | ⟨0, _⟩ | ⟨1, _⟩ | ⟨2, _⟩ | ⟨3, _⟩ => rfl
  | ⟨k + 4, _⟩ =>
    have hk : ¬ k + 4 < 4 := by omega
    simp [HvcResult.values, HvcResponse.ofU64, GuestRegisterState.frame, hk]

theorem frame_error (error : ArchError) (rs : GuestRegisterState) :
    ((HvcResult.handled (.error error)).modifyRegisterState rs).frame = rs.frame.fail (errorToU64 error) := by
  rw [frame_modifyRegisterState, Frame.fail, Frame.mk.injEq]
  refine ⟨rfl, rfl, funext fun i => ?_⟩
  match i with
  | ⟨0, _⟩ => rfl
  | ⟨k + 1, _⟩ => simp [HvcResult.values, GuestRegisterState.frame]

theorem handleCall_asks (env : Env M σ) (sys : SysRegs) (hpsci : isPsciFunctionId (GuestCall.ofRegisters rs).fnId = true) :
    Obeys (askProtocol env.psci (.ofRegisters rs)) (fun phase rs' => phase.Ends env.psci rs.frame (.resume sys rs')) .asked
      (handleCall env sys rs) := by
  rw [handleCall]
  have hpsci' : isPsciFunctionId rs.volatileGprs[0] = true := hpsci
  dsimp only
  rw [if_pos hpsci', tryHandlePsci]
  simp only [Prog.bind_assoc]
  rw [obeys_bind]
  refine Obeys.mono (fun phase r hr => ?_) _ _ (handlePsci_asks env sys (.ofRegisters rs) hpsci)
  cases phase with
  | other => cases hr
  | asked =>
    cases r with
    | ok value => cases hr
    | error code => exact ⟨code, hr, frame_error _ rs⟩
  | answered x0 =>
    cases r with
    | ok value =>
      cases hr
      exact frame_ok _ rs
    | error code => cases hr

theorem frame_advancePc {rs rs' : GuestRegisterState} (h : rs.advancePc aarch64InstructionLength = some rs') :
    rs'.frame = { rs.frame with pc := rs.frame.pc + aarch64InstructionLength } := by
  have hgprs := GuestRegisterState.advancePc_gprs h
  unfold GuestRegisterState.advancePc at h
  split at h
  · cases h
    exact congrArg (Frame.mk _ _) hgprs
  · cases h

theorem AskPhase.Ends.advance {psci : PsciDecoder} {phase : AskPhase} {frame : Frame} {rs rs' : GuestRegisterState}
    (h : phase.Ends psci frame (.resume sys rs)) (hrs : rs.advancePc aarch64InstructionLength = some rs') :
    phase.Ends psci { frame with pc := frame.pc + aarch64InstructionLength } (.resume sys rs') := by
  cases phase with
  | other => trivial
  | asked =>
    obtain ⟨code, hd, hframe⟩ := h
    exact ⟨code, hd, by rw [frame_advancePc hrs, hframe]; rfl⟩
  | answered x0 =>
    show rs'.frame = _
    rw [frame_advancePc hrs, show rs.frame = frame.respond x0 from h]
    rfl

theorem panic_asks {α : Type} {psci : PsciDecoder} (phase : AskPhase) (message : String) (Q : AskPhase → α → Prop) :
    Obeys (askProtocol psci call) Q phase (panic message : Hyp σ α) := by
  cases phase <;> exact ⟨trivial, nofun⟩

/-- **A PSCI call is served by asking firmware once**, and its guest continues after the call with the answer. -/
theorem serveTrap_asks (env : Env M σ) (hcall : sys.isCall = true)
    (hpsci : isPsciFunctionId (GuestCall.ofRegisters rs).fnId = true) :
    Obeys (askProtocol env.psci (.ofRegisters rs)) (AskPhase.Ends env.psci (sys.callFrame rs)) .asked
      (serveTrap env sys rs) := by
  rw [serveTrap, handleSyncLower, SysRegs.callFrame]
  rw [SysRegs.isCall] at hcall
  split at hcall
  · rename_i hec
    simp only [hec, Prog.bind_assoc]
    rw [obeys_bind]
    exact Obeys.mono (fun _ _ h => h) _ _ (handleCall_asks env sys hpsci)
  · rename_i hec
    simp only [hec, Prog.bind_assoc]
    rw [obeys_bind]
    refine Obeys.mono (fun phase rs' h => ?_) _ _ (handleCall_asks env sys hpsci)
    unfold advanceGuestPc
    split
    · rename_i rs'' hrs
      exact h.advance hrs
    · rw [obeys_bind]
      exact panic_asks ..
  · cases hcall

/-! ## Other traps -/

def Quiet {α : Type} (psci : PsciDecoder) (call : GuestCall) (p : Hyp σ α) : Prop :=
  Obeys (askProtocol psci call) (fun phase _ => phase = .other) .other p

theorem Quiet.bind {α β : Type} {psci : PsciDecoder} {p : Hyp σ α} {f : α → Hyp σ β} (hp : Quiet psci call p)
    (hf : ∀ a, Quiet psci call (f a)) : Quiet psci call (p >>= f) := by
  rw [Quiet, obeys_bind]
  refine Obeys.mono (fun phase a h => ?_) _ _ hp
  subst h
  exact hf a

theorem advanceGuestPc_quiet {psci : PsciDecoder} (rs : GuestRegisterState) :
    Quiet psci call (advanceGuestPc (σ := σ) rs) := by
  unfold advanceGuestPc
  split
  · rfl
  · exact panic_asks ..

theorem tryMemoryAccessHandler_quiet (env : Env M σ) (sys : SysRegs) (rs : GuestRegisterState) :
    Quiet env.psci call (tryMemoryAccessHandler env sys rs) := by
  cases dispatch env sys rs with
  | refused heq =>
    rw [heq]
    rfl
  | read decoded m handler hdec hfind hk hh =>
    rw [tryMemoryAccessHandler_read hdec hfind hk hh]
    refine ⟨trivial, fun r => ?_⟩
    cases r with
    | fault => rfl
    | value v => exact (advanceGuestPc_quiet _).bind fun _ => rfl
  | write decoded m handler value hdec hfind hk hh =>
    rw [tryMemoryAccessHandler_write hdec hfind hk hh]
    refine ⟨trivial, fun r => ?_⟩
    cases r with
    | fault => rfl
    | handled => exact (advanceGuestPc_quiet _).bind fun _ => rfl

theorem injectDataAbort_quiet {psci : PsciDecoder} (sys : SysRegs) (rs : GuestRegisterState) :
    Quiet psci call (injectDataAbort (σ := σ) sys rs) := by
  rcases injectDataAbort_cases (σ := σ) sys rs with ⟨message, -, heq⟩ | ⟨guestEsr, heq⟩
  · rw [heq]
    exact panic_asks ..
  · rw [heq]
    rfl

theorem handleSyncLower_quiet (h : sys.isCall = true → isPsciFunctionId (GuestCall.ofRegisters rs).fnId = false) :
    Quiet env.psci call (handleSyncLower env sys rs) := by
  have hcall : sys.isCall = true → Quiet env.psci call (handleCall env sys rs) := fun hc => by
    have hid : ¬ isPsciFunctionId rs.volatileGprs[0] = true := Bool.not_eq_true _ ▸ h hc
    rw [handleCall]
    dsimp only
    rw [if_neg hid]
    rfl
  unfold handleSyncLower
  unfold SysRegs.isCall at hcall
  split
  · rename_i hec
    rw [hec] at hcall
    exact (hcall rfl).bind fun _ => rfl
  · rename_i hec
    rw [hec] at hcall
    exact (hcall rfl).bind fun rs' => (advanceGuestPc_quiet rs').bind fun _ => rfl
  · refine (tryMemoryAccessHandler_quiet env sys rs).bind fun r => ?_
    obtain ⟨result, rs'⟩ := r
    cases result with
    | ok => rfl
    | error => exact injectDataAbort_quiet sys rs'
  · exact panic_asks ..

/-- **Any other trap asks firmware nothing.** -/
theorem serveTrap_other (h : sys.isCall = true → isPsciFunctionId (GuestCall.ofRegisters rs).fnId = false)
    (frame : Frame) : Obeys (askProtocol env.psci call) (AskPhase.Ends env.psci frame) .other (serveTrap env sys rs) := by
  rw [serveTrap, obeys_bind]
  refine Obeys.mono (fun phase r hphase => ?_) _ _ (handleSyncLower_quiet h)
  subst hphase
  trivial

end Code

/-! ## What firmware is asked -/

/-- **The SMC of a call**, by what the call decodes to. -/
theorem Asks.cases {psci : PsciDecoder} {call : GuestCall} {functionId : U32} {args : List U64}
    (h : Asks psci call functionId args) :
    (∃ target entry, decode psci call = .ok (.cpuOn target entry) ∧ functionId = smcCpuOn64 ∧ args.getD 0 0 = target) ∨
    (∃ state entry, decode psci call = .ok (.cpuSuspend state entry) ∧ functionId = smcCpuSuspend64) ∨
    (∃ f, decode psci call = .ok f ∧ (∀ t e, f ≠ .cpuOn t e) ∧ (∀ st e, f ≠ .cpuSuspend st e) ∧
      call.Forwarded functionId args) := by
  obtain ⟨-, h⟩ := h
  split at h
  · exact h.elim
  · rename_i target entry hd
    exact .inl ⟨target, entry, hd, h⟩
  · rename_i state entry hd
    exact .inr (.inl ⟨state, entry, hd, h⟩)
  · rename_i f hon hsuspend hd
    exact .inr (.inr ⟨f, hd, hon, hsuspend, h⟩)

theorem GuestCall.Forwarded.ne_mediated {call : GuestCall} {functionId : U32} {args : List U64}
    (h : call.Forwarded functionId args) : functionId ≠ smcCpuOn64 ∧ functionId ≠ smcCpuSuspend64 := by
  constructor
  · rintro rfl
    exact h.not_cpuOn (h.id_eq ▸ by decide)
  · rintro rfl
    exact h.not_cpuSuspend (h.id_eq ▸ by decide)

theorem GuestCall.Forwarded.functionId_eq {call : GuestCall} {functionId : U32} {args : List U64}
    (h : call.Forwarded functionId args) : call.fnId.setWidth 32 = functionId := by
  rw [← h.id_eq, BitVec.setWidth_setWidth_of_le _ (by decide), BitVec.setWidth_eq]

theorem context_of_cpuOn {psci : PsciDecoder} {call : GuestCall} {target : U64} {entry : EntryPoint}
    (hpsci : isPsciFunctionId call.fnId = true) (h : decode psci call = .ok (.cpuOn target entry)) :
    call.context = ⟨entry.entryPointAddress, entry.contextId⟩ := by
  obtain ⟨-, -, -, rfl⟩ := psci.tryFrom_ok hpsci h
  rfl

theorem context_of_cpuSuspend {psci : PsciDecoder} {call : GuestCall} {state : U32} {entry : EntryPoint}
    (hpsci : isPsciFunctionId call.fnId = true) (h : decode psci call = .ok (.cpuSuspend state entry)) :
    call.context = ⟨entry.entryPointAddress, entry.contextId⟩ := by
  obtain ⟨-, -, rfl⟩ := psci.tryFrom_ok hpsci h
  rfl

theorem eq_cpuOff {f : PsciFunction} (h : (0x84000002 : U64) ∈ f.functionIds) : f = .cpuOff := by
  cases f with
  | cpuOff => rfl
  | _ => simp [PsciFunction.functionIds] at h

theorem callFrame_call (sys : SysRegs) (rs : GuestRegisterState) : (sys.callFrame rs).call = .ofRegisters rs := by
  unfold SysRegs.callFrame
  split <;> rfl

end Ritm
