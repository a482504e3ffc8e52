import Ritm.Hypervisor
import Ritm.Stage2Policy
/-!
# DataAbort — emulated accesses and injected aborts

A trapped access runs against a device state `σ`, on which the callbacks act.  `tryMemoryAccessHandler_cases` says all
that can happen: one callback is called, reports success and the access is completed, or nothing of the guest changes.
With a device that is an array of bytes, what the handler leaves is what the load or store itself would have left.
A callback is found by the first byte of the access alone, so an access may run past the last page of its region.
-/
namespace Ritm

open Lib (Prog)
open Lib.Prog (exec)
open GuestRegisterState (setGpr)

variable {M σ : Type}

/-! ## Running the handler -/

/-- The calls of the data-abort path: callbacks act on the device. -/
def deviceHandler : Prog.Handler (Eff σ) Eff.Resp σ
  | d, .callRead handler access => some (handler access d)
  | d, .callWrite handler access => some (handler access d)
  | _, _ => none

abbrev CallRecord (σ : Type) := Σ e : Eff σ, e.Resp

def CallRecord.Faulted : CallRecord σ → Prop
  | ⟨.callRead .., result⟩ => result = MemoryReadResult.fault
  | ⟨.callWrite .., result⟩ => result = MemoryWriteResult.fault
  | _ => False

def Eff.CallsRegion (registry : MemoryAccessHandlerRegistry σ) (ipa : U64) (e : Eff σ) : Prop :=
  ∃ region ∈ registry.regions.items, region.Contains ipa ∧
    match e with
    | .callRead handler access => region.handler.read = some handler ∧ access.ipa = ipa ∧ access.offset = region.offsetOf ipa
    | .callWrite handler access => region.handler.write = some handler ∧ access.ipa = ipa ∧ access.offset = region.offsetOf ipa
    | _ => False

theorem advanceGuestPc_of_lt (rs : GuestRegisterState) (h : rs.volatile.elr.toNat + 4 < 2 ^ 64) :
    ∃ rs', advanceGuestPc (σ := σ) rs = .ret rs' ∧ rs'.gprs = rs.gprs ∧
      rs'.exceptionReturn = (rs.volatile.elr + 4, rs.volatile.spsr) := by
  obtain ⟨rs', hrs, hg, he⟩ := rs.advancePc_of_lt aarch64InstructionLength h
  refine ⟨rs', ?_, hg, he⟩
  unfold advanceGuestPc
  rw [hrs]
  rfl

section Access

-- a trap whose syndrome was decoded and whose IPA lies in a handled region
variable {env : Env M σ} {sys : SysRegs} {rs : GuestRegisterState} {decoded : DecodedMemoryAccess}
  {m : MemoryAccessHandlerMatch σ} {d d' : σ} {v : U64}
  (hdec : decodeMemoryAccess (esrIss sys.esrEl2) sys.hpfarFipa sys.farEl2 rs.readGpr = some decoded)
  (hfind : env.config.memoryAccessHandlers.find decoded.ipa = some m)

include hdec hfind

theorem exec_read_value {handler : MemoryReadHandler σ} (hk : decoded.kind = .read)
    (hh : m.region.handler.read = some handler) (helr : rs.volatile.elr.toNat + 4 < 2 ^ 64)
    (hcall : handler ⟨decoded.ipa, m.offset, decoded.width⟩ d = (.value v, d')) :
    ∃ rs', exec deviceHandler d (tryMemoryAccessHandler env sys rs) =
        some ((.ok (), rs'), d', [⟨.callRead handler ⟨decoded.ipa, m.offset, decoded.width⟩, .value v⟩]) ∧
      rs'.gprs = setGpr rs.gprs decoded.registerIndex
        (extendReadResult v decoded.width decoded.signExtend decoded.registerWidth64) ∧
      rs'.exceptionReturn = (rs.volatile.elr + 4, rs.volatile.spsr) := by
  obtain ⟨rs₁, hw, hg, he⟩ := rs.writeGpr_of_lt ((decodeMemoryAccess_eq_some hdec).2 ▸ (issSrt _).isLt)
    (extendReadResult v decoded.width decoded.signExtend decoded.registerWidth64)
  have helr₁ : rs₁.volatile.elr = rs.volatile.elr := congrArg Prod.fst he
  have hspsr₁ : rs₁.volatile.spsr = rs.volatile.spsr := congrArg Prod.snd he
  obtain ⟨rs₂, ha, hg₂, he₂⟩ := advanceGuestPc_of_lt (σ := σ) rs₁ (by rw [helr₁]; exact helr)
  refine ⟨rs₂, ?_, hg₂.trans hg, by rw [he₂, helr₁, hspsr₁]⟩
  rw [tryMemoryAccessHandler_read hdec hfind hk hh]
  refine (Prog.exec_step _ (congrArg some hcall)).trans ?_
  simp only [afterRead, hw, ha, Prog.ret_bind, Prog.pure_eq, Prog.exec_ret, Option.map_some]

theorem exec_write_handled {handler : MemoryWriteHandler σ} (hk : decoded.kind = .write v)
    (hh : m.region.handler.write = some handler) (helr : rs.volatile.elr.toNat + 4 < 2 ^ 64)
    (hcall : handler ⟨decoded.ipa, m.offset, decoded.width, v⟩ d = (.handled, d')) :
    ∃ rs', exec deviceHandler d (tryMemoryAccessHandler env sys rs) =
        some ((.ok (), rs'), d', [⟨.callWrite handler ⟨decoded.ipa, m.offset, decoded.width, v⟩, .handled⟩]) ∧
      rs'.gprs = rs.gprs ∧ rs'.exceptionReturn = (rs.volatile.elr + 4, rs.volatile.spsr) := by
  obtain ⟨rs', ha, hg, he⟩ := advanceGuestPc_of_lt (σ := σ) rs helr
  refine ⟨rs', ?_, hg, he⟩
  rw [tryMemoryAccessHandler_write hdec hfind hk hh]
  refine (Prog.exec_step _ (congrArg some hcall)).trans ?_
  simp only [afterWrite, ha, Prog.ret_bind, Prog.pure_eq, Prog.exec_ret, Option.map_some]

end Access

/-! ## What can happen to a trapped access -/

def SysRegs.faultIpa (sys : SysRegs) : U64 := decodeFaultIpa sys.hpfarFipa sys.farEl2

def Refused (env : Env M σ) (sys : SysRegs) (log : List (CallRecord σ)) : Prop :=
  log = [] ∨ ∃ c, log = [c] ∧ c.1.CallsRegion env.config.memoryAccessHandlers sys.faultIpa ∧ c.Faulted

def SysRegs.abortInjected (sys : SysRegs) (rs : GuestRegisterState) : SysRegs :=
  { sys with
      elrEl1 := rs.volatile.elr
      spsrEl1 := rs.volatile.spsr
      farEl1 := sys.farEl2
      esrEl1 := esrSetEc sys.esrEl2 ecDataAbortSameEl }

def injectedSpsr : U64 := 0x3c5

theorem injectDataAbort_eq {sys : SysRegs} (hec : esrEc sys.esrEl2 = ecDataAbortLowerEl) (hvbar : sys.vbarEl1 ≠ 0)
    (hvector : sys.vbarEl1.toNat + 0x200 < 2 ^ 64) (rs : GuestRegisterState) : injectDataAbort (σ := σ) sys rs =
      .ret (sys.abortInjected rs, rs.setExceptionReturn (sys.vbarEl1 + 0x200) injectedSpsr) := by
  unfold injectDataAbort
  simp only [if_neg hvbar, if_neg (Nat.not_le.2 hvector), if_pos hec]
  rfl

theorem exec_panic {S α : Type} {h : Prog.Handler (Eff σ) Eff.Resp S} {s : S} (message : String) :
    exec h s (panic message : Hyp σ α) = none := by
  refine Prog.exec_step_none _ ?_
  cases hh : h s (.panic message) with
  | none => rfl
  | some r => exact r.1.elim

theorem injectDataAbort_overflow {sys : SysRegs} (hvbar : sys.vbarEl1 ≠ 0)
    (hvector : ¬ sys.vbarEl1.toNat + 0x200 < 2 ^ 64) (rs : GuestRegisterState) :
    injectDataAbort (σ := σ) sys rs = panic "attempt to add with overflow" := by
  unfold injectDataAbort
  simp only [if_neg hvbar, if_pos (Nat.not_lt.1 hvector)]

theorem dataAbort_ec {sys : SysRegs} (h : ExceptionClass.ofU8 (esrEc sys.esrEl2) = .dataAbortLowerEL) :
    esrEc sys.esrEl2 = ecDataAbortLowerEl := by
  unfold ExceptionClass.ofU8 at h
  split at h
  · cases h
  split at h
  · cases h
  split at h
  · assumption
  · cases h

inductive Transfer where
  | load (width : MemoryAccessWidth) (signExtend registerWidth64 : Bool) (register : BitVec 5)
  | store (width : MemoryAccessWidth) (register : BitVec 5)
  deriving DecidableEq, Repr

def Transfer.width : Transfer → MemoryAccessWidth
  | load width .. => width
  | store width _ => width

/-- What the guest sees: the device's bytes, x0–x30, its processor state and where it executes. -/
structure GuestView where
  bytes : Nat → U8
  gprs : Fin 31 → U64
  spsr : U64
  pc : U64

def loadBytes (bytes : Nat → U8) (offset : Nat) : (n : Nat) → BitVec (8 * n)
  | 0 => 0#0
  | n + 1 => loadBytes bytes (offset + 1) n ++ bytes offset

def storeBytes (bytes : Nat → U8) (offset n : Nat) (value : U64) : Nat → U8 := fun i =>
  if offset ≤ i ∧ i < offset + n then value.extractLsb' (8 * (i - offset)) 8 else bytes i

def operand (gprs : Fin 31 → U64) (register : BitVec 5) : U64 :=
  if h : register.toNat < 31 then gprs ⟨register.toNat, h⟩ else 0

/-- **What the load or store does, executed on the device's bytes.** -/
def Transfer.execute (t : Transfer) (offset : Nat) (g : GuestView) : GuestView :=
  match t with
  | load width signExtend registerWidth64 register =>
    let data := loadBytes g.bytes offset width.bytes
    let value := (extendTo (if registerWidth64 then 64 else 32) signExtend data).setWidth 64
    { g with gprs := setGpr g.gprs register.toNat value, pc := g.pc + 4 }
  | store width register =>
    { g with bytes := storeBytes g.bytes offset width.bytes (operand g.gprs register), pc := g.pc + 4 }

/-- The callbacks are those of an array of `size` bytes. -/
structure ByteDevice (handler : MemoryAccessHandler σ) (size : Nat) (bytes : σ → Nat → U8) : Prop where
  read : ∃ h, handler.read = some h ∧ ∀ (access : MemoryReadAccess) d,
    access.offset.toNat + access.width.bytes ≤ size → ∃ d',
      h access d = (.value ((loadBytes (bytes d) access.offset.toNat access.width.bytes).setWidth 64), d') ∧
        bytes d' = bytes d
  write : ∃ h, handler.write = some h ∧ ∀ (access : MemoryWriteAccess) d,
    access.offset.toNat + access.width.bytes ≤ size → ∃ d', h access d = (.handled, d') ∧
      bytes d' = storeBytes (bytes d) access.offset.toNat access.width.bytes access.value

structure Transfer.Reported (t : Transfer) (ipa : U64) (sys : SysRegs) : Prop where
  isv : issIsv (esrIss sys.esrEl2) = true
  sas : issSas (esrIss sys.esrEl2) = t.width.sas
  instruction : match t with
    | load _ signExtend registerWidth64 register =>
      issWnr (esrIss sys.esrEl2) = false ∧ issSse (esrIss sys.esrEl2) = signExtend ∧
        issSf (esrIss sys.esrEl2) = registerWidth64 ∧ issSrt (esrIss sys.esrEl2) = register
    | store _ register => issWnr (esrIss sys.esrEl2) = true ∧ issSrt (esrIss sys.esrEl2) = register
  page : sys.hpfarFipa = ipa >>> 12
  pageOffset : sys.farEl2.extractLsb' 0 12 = ipa.extractLsb' 0 12

def guestView (bytes : σ → Nat → U8) (d : σ) (rs : GuestRegisterState) : GuestView :=
  { bytes := bytes d, gprs := rs.gprs, spsr := rs.volatile.spsr, pc := rs.volatile.elr }

theorem decodeFaultIpa_eq {fipa far ipa : U64} (hp : fipa = ipa >>> 12)
    (ho : far.extractLsb' 0 12 = ipa.extractLsb' 0 12) : decodeFaultIpa fipa far = ipa := by
  have hoff : far.toNat % 4096 = ipa.toNat % 4096 := by simpa using congrArg BitVec.toNat ho
  have hlt := ipa.isLt
  apply BitVec.eq_of_toNat_eq
  rw [toNat_decodeFaultIpa, hp, hoff, BitVec.toNat_ushiftRight, Nat.shiftRight_eq_div_pow]
  omega

theorem extendTo_loaded (size : Nat) (signExtend : Bool) (width : MemoryAccessWidth) (data : BitVec (8 * width.bytes)) :
    extendTo size signExtend ((data.setWidth 64).setWidth width.bits) = extendTo size signExtend data := by
  have key : ∀ (n : Nat) (x : BitVec n), n ≤ 64 →
      extendTo size signExtend ((x.setWidth 64).setWidth n) = extendTo size signExtend x := fun n x hn => by
    rw [BitVec.setWidth_setWidth_of_le x hn, BitVec.setWidth_eq]
  cases width <;> exact key _ data (by decide)

theorem storeBytes_and_mask (bytes : Nat → U8) (offset : Nat) (width : MemoryAccessWidth) (value : U64) :
    storeBytes bytes offset width.bytes (value &&& width.mask) = storeBytes bytes offset width.bytes value := by
  funext i
  unfold storeBytes
  split
  · rename_i h
    have hb := width.bits_eq
    have hle := width.bits_le
    rw [and_mask]
    apply BitVec.eq_of_getLsbD_eq
    intro j hj
    have h1 : 8 * (i - offset) + j < 64 := by omega
    have h2 : 8 * (i - offset) + j < width.bits := by omega
    simp [hj, h1, h2]
  · rfl

theorem readGpr_eq_operand (rs : GuestRegisterState) (register : BitVec 5) :
    rs.readGpr register.toNat = some (operand rs.gprs register) := by
  unfold operand
  by_cases h : register.toNat < 31
  · rw [dif_pos h, GuestRegisterState.readGpr_lt rs h]
  · have h31 : register.toNat = 31 := by omega
    rw [dif_neg h, h31, GuestRegisterState.readGpr_31]

theorem decodeMemoryAccess_of_isv {iss : U32} (h : issIsv iss = true) (hpfarFipa farVa : U64) (rs : GuestRegisterState) :
    decodeMemoryAccess iss hpfarFipa farVa rs.readGpr = some {
      ipa := decodeFaultIpa hpfarFipa farVa
      width := decodeMemoryAccessWidth iss
      kind := if issWnr iss then .write (operand rs.gprs (issSrt iss) &&& (decodeMemoryAccessWidth iss).mask) else .read
      registerIndex := (issSrt iss).toNat
      signExtend := issSse iss
      registerWidth64 := issSf iss } := by
  rw [decodeMemoryAccess_eq, decodeMemoryAccessKind_eq, h, readGpr_eq_operand]
  cases issWnr iss <;> rfl

theorem decodeMemoryAccess_of_not_isv {iss : U32} (h : issIsv iss = false) (hpfarFipa farVa : U64)
    (readRegister : Nat → Option U64) : decodeMemoryAccess iss hpfarFipa farVa readRegister = none := by
  rw [decodeMemoryAccess_eq, h]
  rfl

theorem Transfer.Reported.decoded {t : Transfer} {ipa : U64} {sys : SysRegs} (h : t.Reported ipa sys)
    (rs : GuestRegisterState) :
    decodeMemoryAccess (esrIss sys.esrEl2) sys.hpfarFipa sys.farEl2 rs.readGpr = some {
      ipa := ipa
      width := t.width
      kind := match t with
        | load .. => .read
        | store width register => .write (operand rs.gprs register &&& width.mask)
      registerIndex := (issSrt (esrIss sys.esrEl2)).toNat
      signExtend := issSse (esrIss sys.esrEl2)
      registerWidth64 := issSf (esrIss sys.esrEl2) } := by
  have hw : decodeMemoryAccessWidth (esrIss sys.esrEl2) = t.width :=
    MemoryAccessWidth.sas_injective ((sas_decodeMemoryAccessWidth _).trans h.sas)
  rw [decodeMemoryAccess_of_isv h.isv, hw, decodeFaultIpa_eq h.page h.pageOffset]
  have hi := h.instruction
  cases t with
  | load width signExtend registerWidth64 register => simp only [hi.1, Bool.false_eq_true, if_false]
  | store width register => simp only [hi.1, if_true, hi.2, Transfer.width]

/-- **Trap-and-emulate simulates direct execution**: with a device of bytes behind the region, the emulated load or store
leaves the bytes, the registers, the processor state and the return address that executing it would have left. -/
theorem tryMemoryAccessHandler_simulates [IdMap M] (env : Env M σ) (hbuilt : env.config.Built)
    {region : MemoryAccessRegion σ} (hregion : region ∈ env.config.memoryAccessHandlers.regions.items)
    {bytes : σ → Nat → U8} (hdev : ByteDevice region.handler region.size.toNat bytes) (t : Transfer) (ipa : U64)
    (hlow : region.baseIpa.toNat ≤ ipa.toNat) (hhigh : ipa.toNat + t.width.bytes ≤ region.endIpa.toNat)
    {sys : SysRegs} (hrep : t.Reported ipa sys) (rs : GuestRegisterState)
    (helr : rs.volatile.elr.toNat + 4 < 2 ^ 64) (d : σ) :
    ∃ rs' d' log, exec deviceHandler d (tryMemoryAccessHandler env sys rs) = some ((.ok (), rs'), d', log) ∧
      guestView bytes d' rs' = t.execute (ipa.toNat - region.baseIpa.toNat) (guestView bytes d rs) := by
  have hpos : 0 < t.width.bytes := by cases t.width <;> decide
  have hin : region.Contains ipa := ⟨hlow, by omega⟩
  have hfind : env.config.memoryAccessHandlers.find ipa = some ⟨region, region.offsetOf ipa⟩ :=
    (MemoryAccessHandlerRegistry.find_eq_some_iff hbuilt.ordered _ _).2 ⟨hregion, hin, rfl⟩
  have hoff := MemoryAccessRegion.toNat_offsetOf hlow
  have hsize : (region.offsetOf ipa).toNat + t.width.bytes ≤ region.size.toNat := by
    have := region.end_eq
    omega
  have hdec := hrep.decoded rs
  cases t with
  | load width signExtend registerWidth64 register =>
    obtain ⟨-, hsse, hsf, hsrt⟩ := hrep.instruction
    obtain ⟨handler, hh, hcallback⟩ := hdev.read
    obtain ⟨d', hcall, hbytes⟩ := hcallback ⟨ipa, region.offsetOf ipa, width⟩ d hsize
    obtain ⟨rs', hexec, hg, hr⟩ := exec_read_value hdec hfind rfl hh helr hcall
    refine ⟨rs', d', _, hexec, ?_⟩
    have hpc : rs'.volatile.elr = rs.volatile.elr + 4 := congrArg Prod.fst hr
    have hspsr : rs'.volatile.spsr = rs.volatile.spsr := congrArg Prod.snd hr
    simp only [guestView, Transfer.execute, hbytes, hg, hpc, hspsr, extendReadResult_eq, Transfer.width,
      extendTo_loaded, hsse, hsf, hsrt, hoff]
  | store width register =>
    obtain ⟨handler, hh, hcallback⟩ := hdev.write
    obtain ⟨d', hcall, hbytes⟩ :=
      hcallback ⟨ipa, region.offsetOf ipa, width, operand rs.gprs register &&& width.mask⟩ d hsize
    obtain ⟨rs', hexec, hg, hr⟩ := exec_write_handled hdec hfind rfl hh helr hcall
    refine ⟨rs', d', _, hexec, ?_⟩
    have hpc : rs'.volatile.elr = rs.volatile.elr + 4 := congrArg Prod.fst hr
    have hspsr : rs'.volatile.spsr = rs.volatile.spsr := congrArg Prod.snd hr
    simp only [guestView, Transfer.execute, hbytes, hg, hpc, hspsr, hoff, storeBytes_and_mask]

def byteArrayHandler : MemoryAccessHandler (Nat → U8) :=
  .readWrite
    (fun access bytes => (.value ((loadBytes bytes access.offset.toNat access.width.bytes).setWidth 64), bytes))
    (fun access bytes => (.handled, storeBytes bytes access.offset.toNat access.width.bytes access.value))

theorem byteArrayHandler_byteDevice (size : Nat) : ByteDevice byteArrayHandler size id where
  read := ⟨_, rfl, fun _ d _ => ⟨d, rfl, rfl⟩⟩
  write := ⟨_, rfl, fun _ _ _ => ⟨_, rfl, rfl⟩⟩

def bytePage : MemoryAccessRegion (Nat → U8) :=
  { baseIpa := 0x1000, size := 0x1000, endIpa := 0x2000, base_aligned := rfl, size_pos := by decide, size_pages := rfl,
    end_eq := rfl, handler := byteArrayHandler }

def byteEnv : Env RegionTable (Nat → U8) where
  config := ⟨IdMap.new, ⟨⟨[bytePage], by decide⟩⟩⟩
  handleHvc _ _ := .unhandled
  maxCores := 8
  psci := specDecoder
  rt := eightStacks

theorem byteEnv_built : byteEnv.config.Built :=
  ⟨[.handleRange 0x1000 0x1000 byteArrayHandler], [.ok ()], _, rfl, rfl⟩

theorem tryMemoryAccessHandler_simulates_ldrsh :
    let bytes : Nat → U8 := fun i => if i = 4 then 0x34 else 0xff
    let sys : SysRegs := { (default : SysRegs) with
      esrEl2 := 0x91748000, hpfarFipa := 1, farEl2 := 0xffff000000000004 }
    ∃ rs' bytes' log,
      exec deviceHandler bytes (tryMemoryAccessHandler byteEnv sys default) = some ((.ok (), rs'), bytes', log) ∧
        guestView id bytes' rs' = (Transfer.load .u16 true true 20).execute 4 (guestView id bytes default) :=
  tryMemoryAccessHandler_simulates byteEnv byteEnv_built
    (List.mem_singleton.2 rfl) (byteArrayHandler_byteDevice _) (Transfer.load .u16 true true 20) 0x1004
    (by decide) (by decide) ⟨by decide, by decide, by decide, by decide, by decide⟩ default (by decide) _

/-! ## Where a callback's access lies -/

section Bounds

/-- The whole access lies in the region its first byte is in. -/
def WithinRegion (registry : MemoryAccessHandlerRegistry σ) (ipa offset : U64) (width : MemoryAccessWidth) : Prop :=
  ∃ region ∈ registry.regions.items, region.Contains ipa ∧ offset = region.offsetOf ipa ∧
    offset.toNat + width.bits / 8 ≤ region.size.toNat

def withinRegions (registry : MemoryAccessHandlerRegistry σ) : Prog.Protocol (Eff σ) Eff.Resp Unit where
  allow _ e := match e with
    | .callRead _ access => WithinRegion registry access.ipa access.offset access.width
    | .callWrite _ access => WithinRegion registry access.ipa access.offset access.width
    | _ => True
  next _ _ _ := ()

/-- **A trap that is dispatched and runs out of its region**: the page of the fault is the region's last, and the access
begins too near the page's end. -/
structure CrossesEnd (registry : MemoryAccessHandlerRegistry σ) (sys : SysRegs) (region : MemoryAccessRegion σ) : Prop where
  isv : issIsv (esrIss sys.esrEl2) = true
  mem : region ∈ registry.regions.items
  contains : region.Contains sys.faultIpa
  handled : (if issWnr (esrIss sys.esrEl2) then region.handler.write.isSome else region.handler.read.isSome) = true
  last_page : region.endIpa.toNat ≤ sys.faultIpa.toNat + pageSize
  crosses : pageSize < sys.farEl2.toNat % pageSize + (decodeMemoryAccessWidth (esrIss sys.esrEl2)).bits / 8

theorem faultIpa_mod_pageSize (sys : SysRegs) : sys.faultIpa.toNat % pageSize = sys.farEl2.toNat % pageSize := by
  have hpage : pageSize = 4096 := rfl
  rw [SysRegs.faultIpa, toNat_decodeFaultIpa, hpage]
  omega

theorem MemoryAccessWidth.bits_div_le (width : MemoryAccessWidth) : width.bits / 8 ≤ 8 := by cases width <;> decide

theorem offset_add_le_iff {region : MemoryAccessRegion σ} {sys : SysRegs} (hin : region.Contains sys.faultIpa)
    (width : MemoryAccessWidth) :
    (region.offsetOf sys.faultIpa).toNat + width.bits / 8 ≤ region.size.toNat ↔
      ¬ (region.endIpa.toNat ≤ sys.faultIpa.toNat + pageSize ∧ pageSize < sys.farEl2.toNat % pageSize + width.bits / 8) := by
  have hoff := MemoryAccessRegion.toNat_offsetOf hin.1
  have hbytes := width.bits_div_le
  have hmod := faultIpa_mod_pageSize sys
  have hend := region.end_eq
  have hbase := region.base_aligned
  have hsize := region.size_pages
  unfold Stage2Range.Contains at hin
  unfold pageSize at *
  rw [hoff]
  omega

theorem decodeMemoryAccess_fields {iss : U32} {hpfarFipa farVa : U64} {rs : GuestRegisterState}
    {decoded : DecodedMemoryAccess} (h : decodeMemoryAccess iss hpfarFipa farVa rs.readGpr = some decoded) :
    issIsv iss = true ∧ decoded.width = decodeMemoryAccessWidth iss ∧ ∀ handler : MemoryAccessHandler σ,
      handler.handles decoded.kind = if issWnr iss then handler.write.isSome else handler.read.isSome := by
  cases hisv : issIsv iss with
  | false =>
    rw [decodeMemoryAccess_of_not_isv hisv] at h
    cases h
  | true =>
    rw [decodeMemoryAccess_of_isv hisv] at h
    cases h
    refine ⟨rfl, rfl, fun handler => ?_⟩
    cases issWnr iss <;> rfl

theorem within_iff_not_crosses {registry : MemoryAccessHandlerRegistry σ} (hord : registry.Ordered) {sys : SysRegs}
    {rs : GuestRegisterState} {decoded : DecodedMemoryAccess} {m : MemoryAccessHandlerMatch σ}
    (hdec : decodeMemoryAccess (esrIss sys.esrEl2) sys.hpfarFipa sys.farEl2 rs.readGpr = some decoded)
    (hfind : registry.find decoded.ipa = some m) (hh : m.region.handler.handles decoded.kind = true) :
    WithinRegion registry decoded.ipa m.offset decoded.width ↔ ¬ ∃ region, CrossesEnd registry sys region := by
  obtain ⟨hisv, hwidth, hhandles⟩ := decodeMemoryAccess_fields (σ := σ) hdec
  have hipa : decoded.ipa = sys.faultIpa := (decodeMemoryAccess_eq_some hdec).1
  obtain ⟨hmem, hin, hoff⟩ := (MemoryAccessHandlerRegistry.find_eq_some_iff hord _ _).1 hfind
  rw [hipa] at hin hoff ⊢
  rw [hoff, hwidth]
  constructor
  · rintro ⟨g, hg, hgin, -, hle⟩ ⟨g', hc⟩
    rw [hord.unique hmem hg hin hgin] at hle
    rw [hord.unique hc.mem hg hc.contains hgin] at hc
    exact (offset_add_le_iff hgin _).1 hle ⟨hc.last_page, hc.crosses⟩
  · intro hno
    exact ⟨m.region, hmem, hin, rfl,
      (offset_add_le_iff hin _).2 fun h => hno ⟨m.region, hisv, hmem, hin, hhandles _ ▸ hh, h.1, h.2⟩⟩

theorem advanceGuestPc_within (registry : MemoryAccessHandlerRegistry σ) (rs : GuestRegisterState) :
    Prog.Obeys (withinRegions registry) (fun _ _ => True) () (advanceGuestPc rs >>= fun rs =>
      (pure (.ok (), rs) : Hyp σ (Except Unit Unit × GuestRegisterState))) := by
  unfold advanceGuestPc
  split
  · trivial
  · exact ⟨trivial, fun r => r.elim⟩

/-- **A callback is only called for an access inside its region, unless** the access leaves the region's last page. -/
theorem dispatch_within_iff [IdMap M] (env : Env M σ) (hbuilt : env.config.Built) (sys : SysRegs)
    (rs : GuestRegisterState) :
    Prog.Obeys (withinRegions env.config.memoryAccessHandlers) (fun _ _ => True) () (tryMemoryAccessHandler env sys rs) ↔
      ¬ ∃ region, CrossesEnd env.config.memoryAccessHandlers sys region := by
  have hord := hbuilt.ordered
  cases dispatch env sys rs with
  | refused heq hno =>
    rw [heq]
    refine iff_of_true trivial ?_
    rintro ⟨region, h⟩
    have hdec := decodeMemoryAccess_of_isv h.isv sys.hpfarFipa sys.farEl2 rs
    have hfind := (MemoryAccessHandlerRegistry.find_eq_some_iff hord sys.faultIpa
      ⟨region, region.offsetOf sys.faultIpa⟩).2 ⟨h.mem, h.contains, rfl⟩
    have hhandles := (decodeMemoryAccess_fields hdec).2.2 region.handler
    rw [hno _ _ hdec hfind, h.handled] at hhandles
    cases hhandles
  | read decoded m handler hdec hfind hk hh =>
    rw [tryMemoryAccessHandler_read hdec hfind hk hh,
      ← within_iff_not_crosses hord hdec hfind (by rw [hk, MemoryAccessHandler.handles, hh]; rfl)]
    refine ⟨fun h => h.1, fun h => ⟨h, fun r => ?_⟩⟩
    cases r with
    | fault => trivial
    | value v => exact advanceGuestPc_within _ _
  | write decoded m handler v hdec hfind hk hh =>
    rw [tryMemoryAccessHandler_write hdec hfind hk hh,
      ← within_iff_not_crosses hord hdec hfind (by rw [hk, MemoryAccessHandler.handles, hh]; rfl)]
    refine ⟨fun h => h.1, fun h => ⟨h, fun r => ?_⟩⟩
    cases r with
    | fault => trivial
    | handled => exact advanceGuestPc_within _ _

end Bounds

theorem dispatch_within_iff_byteEnv :
    let sys : SysRegs := { (default : SysRegs) with
      esrEl2 := 0x91d48000, hpfarFipa := 1, farEl2 := 0xffff000000000ff8 }
    (∃ rs' handler, exec deviceHandler (fun _ => 0) (tryMemoryAccessHandler byteEnv sys default) =
      some ((.ok (), rs'), (fun _ => 0), [⟨.callRead handler ⟨0x1ff8, 0xff8, .u64⟩, .value 0⟩])) ∧
    Prog.Obeys (withinRegions byteEnv.config.memoryAccessHandlers) (fun _ _ => True) ()
      (tryMemoryAccessHandler byteEnv sys default) := by
  refine ⟨⟨_, _, rfl⟩, (dispatch_within_iff byteEnv byteEnv_built _ _).2 ?_⟩
  rintro ⟨region, h⟩
  exact absurd h.crosses (by decide)

/-- `ldr x20` four bytes before the end of the page: the callback is asked for eight bytes there. -/
theorem dispatch_runs_past_page :
    let sys : SysRegs := { (default : SysRegs) with
      esrEl2 := 0x91d48000, hpfarFipa := 1, farEl2 := 0xffff000000000ffc }
    (∃ rs' handler, exec deviceHandler (fun _ => 0) (tryMemoryAccessHandler byteEnv sys default) =
      some ((.ok (), rs'), (fun _ => 0), [⟨.callRead handler ⟨0x1ffc, 0xffc, .u64⟩, .value 0⟩])) ∧
    ¬ WithinRegion byteEnv.config.memoryAccessHandlers 0x1ffc 0xffc .u64 := by
  refine ⟨⟨_, _, rfl⟩, ?_⟩
  rintro ⟨region, hmem, -, -, hle⟩
  rw [List.mem_singleton.1 hmem] at hle
  exact absurd hle (by decide)

end Ritm
