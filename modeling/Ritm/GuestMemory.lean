import Ritm.Boot
import Ritm.El2Visits
/-!
# GuestMemory — guests and RITM over one physical memory

Between the machine's steps the guests of any cores load and store, a byte at a time.  A core translates as its registers
say: without stage 2 an access goes where its address says, with stage 2 the walk reads the tables from the very memory
the stores go to.  At a step of the machine RITM leaves in its own bytes what it computes from them, which may be anything;
the tables, which are among them, are written before the payload starts and never again.

In every run without CPU_DEFAULT_SUSPEND and SYSTEM_SUSPEND, and in every interleaving, the guests' accesses can be left
out and RITM does not notice, and no guest's access depends on RITM's bytes.  Other bus masters are not part of the
machine.
-/
namespace Ritm

open Lib (run Meets)

variable {M σ : Type} {n : Nat}

abbrev Memory := U64 → U8

/-! ## Translation -/

/-- The `S2AP` bits of a stage-2 descriptor. -/
def Stage2Attributes.readable (attributes : Stage2Attributes) : Bool := attributes.getLsbD 6

def Stage2Attributes.writable (attributes : Stage2Attributes) : Bool := attributes.getLsbD 7

/-- **What is relied on**: the walk of the hardware, and the bytes the tables of `idmap` are in.  While those hold what
`IdMap` left there, the walk finds what `IdMap` mapped.  The tables are among the bytes that are RITM's, and those are
not mapped. -/
structure Guard [IdMap M] (idmap : M) where
  walk : Memory → (root ipa : U64) → Option (U64 × Stage2Attributes)
  isPrivate : U64 → Bool
  isTable : U64 → Bool
  built : Memory
  walk_eq : ∀ memory, (∀ address, isTable address = true → memory address = built address) → ∀ ipa,
    walk memory (IdMap.rootAddress idmap) ipa = (IdMap.lookup idmap ipa).map fun attributes => (ipa, attributes)
  isPrivate_of_isTable : ∀ address, isTable address = true → isPrivate address = true
  hidden : ∀ ipa attributes, IdMap.lookup idmap ipa = some attributes → isPrivate ipa = false

namespace Guard

variable [IdMap M] {idmap : M} (guard : Guard idmap)

/-- Where an access of a core with the registers `sys` goes; with stage 2 off, anywhere and for anything. -/
def translate (sys : SysRegs) (memory : Memory) (ipa : U64) : Option (U64 × Stage2Attributes) :=
  if sys.hcrEl2.getLsbD 0 then guard.walk memory sys.vttbrEl2 ipa else some (ipa, BitVec.allOnes 64)

def Intact (memory : Memory) : Prop := ∀ address, guard.isTable address = true → memory address = guard.built address

def load (sys : SysRegs) (memory : Memory) (ipa : U64) : Option U8 :=
  match guard.translate sys memory ipa with
  | some (address, attributes) => if attributes.readable then some (memory address) else none
  | none => none

def store (sys : SysRegs) (memory : Memory) (ipa : U64) (value : U8) : Option Memory :=
  match guard.translate sys memory ipa with
  | some (address, attributes) => if attributes.writable then some (Function.update memory address value) else none
  | none => none

def ownBytes (memory : Memory) : Memory := fun address => if guard.isPrivate address then memory address else 0

/-- RITM computes from its bytes what it leaves in them at a step; the tables stay. -/
def writeOwn (memory : Memory) (own : Memory → Memory) : Memory := fun address =>
  if guard.isPrivate address && !guard.isTable address then own (guard.ownBytes memory) address else memory address

end Guard

/-! ## Steps -/

inductive Act (n : Nat) where
  | machine (choice : Choice n) (own : Memory → Memory)
  | load (i : Fin n) (ipa : U64)
  | store (i : Fin n) (ipa : U64) (value : U8)

structure World (σ : Type) (maxCores n : Nat) where
  machine : Machine σ maxCores n
  memory : Memory

namespace Act

def isMachine : Act n → Bool
  | machine .. => true
  | _ => false

def NoDefaultSuspend : Act n → Prop
  | machine choice _ => choice.NoDefaultSuspend
  | _ => True

instance : (act : Act n) → Decidable act.NoDefaultSuspend
  | machine choice _ => inferInstanceAs (Decidable choice.NoDefaultSuspend)
  | load .. | store .. => isTrue trivial

inductive SameButOwn : Act n → Act n → Prop where
  | machine (choice : Choice n) (own own' : Memory → Memory) : SameButOwn (machine choice own) (machine choice own')
  | load (i : Fin n) (ipa : U64) : SameButOwn (load i ipa) (load i ipa)
  | store (i : Fin n) (ipa : U64) (value : U8) : SameButOwn (store i ipa value) (store i ipa value)

theorem SameButOwn.noDefaultSuspend {act act' : Act n} (h : act.SameButOwn act') (hc : act.NoDefaultSuspend) :
    act'.NoDefaultSuspend := by
  cases h with
  | machine => exact hc
  | load | store => trivial

end Act

namespace World

variable [IdMap M] {env : Env M σ} (guard : Guard env.config.idmap) (topo : Topology n)

def step (w : World σ env.maxCores n) : Act n → Option (World σ env.maxCores n)
  | .machine choice own =>
    (w.machine.step env topo choice).map fun machine => ⟨machine, guard.writeOwn w.memory own⟩
  | .load i _ => if (w.machine.cores i).mode.isGuest then some w else none
  | .store i ipa value =>
    if (w.machine.cores i).mode.isGuest then
      some { w with memory := (guard.store (w.machine.cores i).sys w.memory ipa value).getD w.memory }
    else none

def see (w : World σ env.maxCores n) : Act n → List (Fin n × U64 × Option U8)
  | .machine .. => []
  | .load i ipa => [(i, ipa, guard.load (w.machine.cores i).sys w.memory ipa)]
  | .store i ipa value =>
    [(i, ipa, (guard.store (w.machine.cores i).sys w.memory ipa value).map fun _ => value)]

def boot (env : Env M σ) (topo : Topology n) (b : Boot σ n) (memory : Memory) : World σ env.maxCores n :=
  ⟨.boot env topo b, memory⟩

/-- **What holds in every run without the two calls.** -/
structure Guarded (w : World σ env.maxCores n) : Prop where
  confined : Machine.Confined env topo w.machine
  intact : guard.Intact w.memory

end World

/-! ## One access -/

namespace Guard

variable [IdMap M] {env : Env M σ} {guard : Guard env.config.idmap} {memory memory' : Memory} {mpidr : U64}
  {sys : SysRegs}

theorem translate_eq (hready : GuestReady env mpidr sys) (hintact : guard.Intact memory) (ipa : U64) :
    guard.translate sys memory ipa = (IdMap.lookup env.config.idmap ipa).map fun attributes => (ipa, attributes) := by
  rw [translate, if_pos hready.vm, hready.tables]
  exact guard.walk_eq memory hintact ipa

theorem translate_public (hready : GuestReady env mpidr sys) (hintact : guard.Intact memory) {ipa address : U64}
    {attributes : Stage2Attributes} (h : guard.translate sys memory ipa = some (address, attributes)) :
    guard.isPrivate address = false := by
  rw [translate_eq hready hintact, Option.map_eq_some_iff] at h
  obtain ⟨_, hlookup, heq⟩ := h
  cases heq
  exact guard.hidden _ _ hlookup

theorem store_private (hready : GuestReady env mpidr sys) (hintact : guard.Intact memory) {ipa : U64} {value : U8}
    {address : U64} (hprivate : guard.isPrivate address = true) :
    ((guard.store sys memory ipa value).getD memory) address = memory address := by
  unfold store
  split
  · rename_i target attributes htranslate
    have hpublic := translate_public hready hintact htranslate
    have hne : address ≠ target := fun h => by
      rw [h, hpublic] at hprivate
      cases hprivate
    split
    · exact Function.update_of_ne hne value memory
    · rfl
  · rfl

theorem Intact.store (hready : GuestReady env mpidr sys) (hintact : guard.Intact memory) (ipa : U64) (value : U8) :
    guard.Intact ((guard.store sys memory ipa value).getD memory) := by
  intro address htable
  rw [store_private hready hintact (guard.isPrivate_of_isTable address htable)]
  exact hintact address htable

theorem Intact.writeOwn (hintact : guard.Intact memory) (own : Memory → Memory) :
    guard.Intact (guard.writeOwn memory own) := by
  intro address htable
  rw [Guard.writeOwn, htable, Bool.not_true, Bool.and_false, if_neg Bool.false_ne_true]
  exact hintact address htable

def SamePublic (guard : Guard env.config.idmap) (memory memory' : Memory) : Prop :=
  ∀ address, guard.isPrivate address = false → memory' address = memory address

theorem SamePublic.writeOwn (h : guard.SamePublic memory memory') (own own' : Memory → Memory) :
    guard.SamePublic (guard.writeOwn memory own) (guard.writeOwn memory' own') := by
  intro address hpublic
  simp only [Guard.writeOwn, hpublic, Bool.false_and, if_neg Bool.false_ne_true]
  exact h address hpublic

section Same

variable (hready : GuestReady env mpidr sys) (hintact : guard.Intact memory) (hintact' : guard.Intact memory')
  (hsame : guard.SamePublic memory memory')

include hready hintact hintact' in
theorem translate_same (ipa : U64) : guard.translate sys memory' ipa = guard.translate sys memory ipa := by
  rw [translate_eq hready hintact, translate_eq hready hintact']

include hready hintact hintact' hsame

theorem load_same (ipa : U64) : guard.load sys memory' ipa = guard.load sys memory ipa := by
  unfold load
  rw [translate_same hready hintact hintact']
  cases htranslate : guard.translate sys memory ipa with
  | none => rfl
  | some target =>
    dsimp only
    rw [hsame target.1 (translate_public hready hintact htranslate)]

theorem store_same (ipa : U64) (value : U8) :
    ((guard.store sys memory' ipa value).map fun _ => value) = ((guard.store sys memory ipa value).map fun _ => value) ∧
      guard.SamePublic ((guard.store sys memory ipa value).getD memory)
        ((guard.store sys memory' ipa value).getD memory') := by
  unfold store
  rw [translate_same hready hintact hintact']
  cases guard.translate sys memory ipa with
  | none => exact ⟨rfl, hsame⟩
  | some target =>
    dsimp only
    split
    · refine ⟨rfl, fun address hpublic => ?_⟩
      show Function.update memory' target.1 value address = Function.update memory target.1 value address
      by_cases haddress : address = target.1
      · rw [haddress, Function.update_self, Function.update_self]
      · rw [Function.update_of_ne haddress, Function.update_of_ne haddress]
        exact hsame address hpublic
    · exact ⟨rfl, hsame⟩

end Same

end Guard

/-! ## One step -/

namespace World

variable [IdMap M] {env : Env M σ} {guard : Guard env.config.idmap} {topo : Topology n}
  {w w' v : World σ env.maxCores n}

theorem Guarded.ready (h : Guarded guard topo w) {i : Fin n} (hguest : (w.machine.cores i).mode.isGuest = true) :
    GuestReady env (topo.mpidr i) (w.machine.cores i).sys :=
  h.confined.isolated.guest i (Mode.eq_guest hguest)

inductive Stepped (guard : Guard env.config.idmap) (topo : Topology n) (w : World σ env.maxCores n) :
    Act n → World σ env.maxCores n → Prop where
  | machine {choice : Choice n} {machine : Machine σ env.maxCores n} (own : Memory → Memory)
      (h : w.machine.step env topo choice = some machine) :
      Stepped guard topo w (.machine choice own) ⟨machine, guard.writeOwn w.memory own⟩
  | load {i : Fin n} (ipa : U64) (h : (w.machine.cores i).mode.isGuest = true) : Stepped guard topo w (.load i ipa) w
  | store {i : Fin n} (ipa : U64) (value : U8) (h : (w.machine.cores i).mode.isGuest = true) :
      Stepped guard topo w (.store i ipa value)
        { w with memory := (guard.store (w.machine.cores i).sys w.memory ipa value).getD w.memory }

theorem step_cases {act : Act n} (h : w.step guard topo act = some w') : Stepped guard topo w act w' := by
  cases act with
  | machine choice own =>
    obtain ⟨machine, hmachine, heq⟩ := Option.map_eq_some_iff.1 h
    cases heq
    exact .machine own hmachine
  | load i ipa =>
    rw [step] at h
    split at h
    · rename_i hguest
      cases h
      exact .load ipa hguest
    · cases h
  | store i ipa value =>
    rw [step] at h
    split at h
    · rename_i hguest
      cases h
      exact .store ipa value hguest
    · cases h

theorem Guarded.step (h : Guarded guard topo w) {act : Act n} (hc : act.NoDefaultSuspend)
    (hstep : w.step guard topo act = some w') : Guarded guard topo w' := by
  cases step_cases hstep with
  | machine own hmachine => exact ⟨h.confined.step hc (Machine.step_cases hmachine), h.intact.writeOwn own⟩
  | load => exact h
  | store ipa value hguest => exact ⟨h.confined, h.intact.store (h.ready hguest) ipa value⟩

theorem guarded_boot (b : Boot σ n) {memory : Memory} (hintact : guard.Intact memory) :
    Guarded guard topo (boot env topo b memory) := ⟨Machine.confined_boot b, hintact⟩

/-! ## Integrity -/

structure SameOwn (guard : Guard env.config.idmap) (w v : World σ env.maxCores n) : Prop where
  machine : v.machine = w.machine
  memory : ∀ address, guard.isPrivate address = true → v.memory address = w.memory address

theorem SameOwn.ownBytes (h : SameOwn guard w v) : guard.ownBytes v.memory = guard.ownBytes w.memory := by
  funext address
  unfold Guard.ownBytes
  split
  · exact h.memory address ‹_›
  · rfl

theorem SameOwn.machineStep (h : SameOwn guard w v) {act : Act n} (hact : act.isMachine = true)
    (hstep : w.step guard topo act = some w') : ∃ v', v.step guard topo act = some v' ∧ SameOwn guard w' v' := by
  cases step_cases hstep with
  | @machine choice machine own hmachine =>
    refine ⟨⟨machine, guard.writeOwn v.memory own⟩, ?_, rfl, fun address hprivate => ?_⟩
    · rw [World.step, h.machine, hmachine]
      rfl
    · simp only [Guard.writeOwn, h.ownBytes, h.memory address hprivate]
  | load | store => cases hact

theorem SameOwn.access (h : SameOwn guard w v) (hw : Guarded guard topo w) {act : Act n}
    (hact : act.isMachine = false) (hstep : w.step guard topo act = some w') : SameOwn guard w' v := by
  cases step_cases hstep with
  | machine => cases hact
  | load => exact h
  | store ipa value hguest =>
    refine ⟨h.machine, fun address hprivate => (h.memory address hprivate).trans ?_⟩
    exact (Guard.store_private (hw.ready hguest) hw.intact hprivate).symm

theorem run_without_accesses {acts : List (Act n)} (hc : ∀ act ∈ acts, act.NoDefaultSuspend) (hw : Guarded guard topo w)
    (hrun : run (World.step guard topo) w acts = some w') :
    Guarded guard topo w' ∧
      ∃ v, run (World.step guard topo) w (acts.filter Act.isMachine) = some v ∧ SameOwn guard w' v := by
  obtain ⟨v, hv, hw', hsame⟩ := @Lib.run_filter _ _ (World.step guard topo) (fun _ act => act.NoDefaultSuspend)
    (fun w v => Guarded guard topo w ∧ SameOwn guard w v) Act.isMachine
    (fun w act w' v ⟨hw, hsame⟩ hc hact hstep => by
      obtain ⟨v', hv', hsame'⟩ := hsame.machineStep hact hstep
      exact ⟨v', hv', hw.step hc hstep, hsame'⟩)
    (fun w act w' v ⟨hw, hsame⟩ hc hact hstep => ⟨hw.step hc hstep, hsame.access hw hact hstep⟩)
    acts w w' w ⟨hw, rfl, fun _ _ => rfl⟩ (Lib.meets_of_forall w hc) hrun
  exact ⟨hw', v, hv, hsame⟩

/-! ## Confidentiality -/

structure SameButOwn (guard : Guard env.config.idmap) (w v : World σ env.maxCores n) : Prop where
  machine : v.machine = w.machine
  memory : guard.SamePublic w.memory v.memory

theorem SameButOwn.step (h : SameButOwn guard w v) (hw : Guarded guard topo w) (hv : Guarded guard topo v)
    {act act' : Act n} (hsame : act.SameButOwn act') (hstep : w.step guard topo act = some w') :
    ∃ v', v.step guard topo act' = some v' ∧ v.see guard act' = w.see guard act ∧ SameButOwn guard w' v' := by
  cases hsame with
  | machine choice own own' =>
    cases step_cases hstep with
    | machine _ hmachine =>
      refine ⟨⟨_, guard.writeOwn v.memory own'⟩, ?_, rfl, rfl, h.memory.writeOwn own own'⟩
      rw [World.step, h.machine, hmachine]
      rfl
  | load i ipa =>
    cases step_cases hstep with
    | load _ hguest =>
      refine ⟨v, ?_, ?_, h⟩
      · rw [World.step, h.machine, if_pos hguest]
      · rw [see, see, h.machine, Guard.load_same (hw.ready hguest) hw.intact hv.intact h.memory]
  | store i ipa value =>
    cases step_cases hstep with
    | store _ _ hguest =>
      obtain ⟨hfault, hmemory⟩ := Guard.store_same (hw.ready hguest) hw.intact hv.intact h.memory ipa value
      refine ⟨{ v with memory := (guard.store (w.machine.cores i).sys v.memory ipa value).getD v.memory }, ?_, ?_,
        h.machine, hmemory⟩
      · rw [World.step, h.machine, if_pos hguest]
      · rw [see, see, h.machine, hfault]

theorem run_same_but_own {acts acts' : List (Act n)} (hacts : List.Forall₂ Act.SameButOwn acts acts')
    (hc : ∀ act ∈ acts, act.NoDefaultSuspend) (hw : Guarded guard topo w) (hv : Guarded guard topo v)
    (hsame : SameButOwn guard w v) (hrun : run (World.step guard topo) w acts = some w') :
    ∃ v', run (World.step guard topo) v acts' = some v' ∧
      Lib.trace (World.step guard topo) (see guard) v acts' = Lib.trace (World.step guard topo) (see guard) w acts ∧
      SameButOwn guard w' v' := by
  obtain ⟨v', hv', htrace, -, -, hsame'⟩ := Lib.lockstep
    (R := fun w v => Guarded guard topo w ∧ Guarded guard topo v ∧ SameButOwn guard w v)
    (fun w act w' v act' ⟨hw, hv, hsame⟩ hact hc hstep => by
      obtain ⟨v', hv', hsee, hsame'⟩ := hsame.step hw hv hact hstep
      exact ⟨v', hv', hsee, hw.step hc hstep, hv.step (hact.noDefaultSuspend hc) hv', hsame'⟩)
    hacts ⟨hw, hv, hsame⟩ (Lib.meets_of_forall w hc) hrun
  exact ⟨v', hv', htrace, hsame'⟩

end World

/-! ## The image -/

namespace Qemu

/-- The bytes of the image that are not on the pages of the shared heap. -/
def Image.isPrivate (image : Image) (address : U64) : Bool :=
  decide (image.ritmStart ≤ address.toNat ∧ address.toNat < image.ritmEnd ∧
    ¬ ((heapRange image).1 ≤ address.toNat ∧ address.toNat < (heapRange image).2.1))

/-- **What is relied on**: RITM's heap, which is in the image and apart from the static of the shared heap, gave the
table whole pages, and the hardware finds in them what `IdMap` mapped. -/
structure TablePages [IdMap M] (image : Image) (idmap : M) where
  walk : Memory → (root ipa : U64) → Option (U64 × Stage2Attributes)
  pages : List Nat
  built : Memory
  walk_eq : ∀ memory : Memory,
    (∀ address : U64, alignDownToPage address.toNat ∈ pages → memory address = built address) → ∀ ipa,
      walk memory (IdMap.rootAddress idmap) ipa = (IdMap.lookup idmap ipa).map fun attributes => (ipa, attributes)
  in_image : ∀ page ∈ pages, image.ritmStart ≤ page ∧ page + pageSize ≤ image.ritmEnd
  apart : ∀ page ∈ pages, page + pageSize ≤ image.sharedHeap ∨ image.sharedHeap + sharedHeapStaticSize ≤ page

variable [IdMap M] {image : Image}

def TablePages.isTable {idmap : M} (tables : TablePages image idmap) (address : U64) : Bool :=
  decide (alignDownToPage address.toNat ∈ tables.pages)

theorem TablePages.isPrivate_of_isTable {idmap : M} (tables : TablePages image idmap) {address : U64}
    (h : tables.isTable address = true) : image.isPrivate address = true := by
  have hpage := of_decide_eq_true h
  have hin := tables.in_image _ hpage
  have hapart := tables.apart _ hpage
  refine decide_eq_true ?_
  unfold heapRange alignDownToPage alignUpToPage sharedHeapStaticSize sharedHeapSize pageSize at *
  dsimp only
  omega

variable [LawfulIdMap M]

theorem hidden_of_stage2Config {config : Stage2Config M U64} (h : stage2Config M image = some config) {ipa : U64}
    {attributes : Stage2Attributes} (hlookup : IdMap.lookup config.idmap ipa = some attributes) :
    image.isPrivate ipa = false := by
  rw [stage2Config] at h
  split at h
  · rename_i b hb
    cases h
    refine decide_eq_false fun hprivate => ?_
    obtain ⟨hlow, hhigh, hout⟩ := hprivate
    exact hout ((mapped_image_iff hb hlow hhigh).1 (Option.isSome_iff_exists.2 ⟨attributes, hlookup⟩))
  · cases h

def TablePages.guard {config : Stage2Config M U64} (tables : TablePages image config.idmap)
    (h : stage2Config M image = some config) : Guard config.idmap where
  walk := tables.walk
  isPrivate := image.isPrivate
  isTable := tables.isTable
  built := tables.built
  walk_eq memory hintact := tables.walk_eq memory fun address hpage => hintact address (decide_eq_true hpage)
  isPrivate_of_isTable _ := tables.isPrivate_of_isTable
  hidden _ _ := hidden_of_stage2Config h

def virtEnv : Env RegionTable U64 := env ((stage2Config RegionTable alignedImage).get rfl) specDecoder eightStacks

theorem stage2Config_virtEnv : stage2Config RegionTable alignedImage = some virtEnv.config := rfl

/-- A table on one page; once its first byte is overwritten, everything is mapped. -/
def onePage : TablePages alignedImage virtEnv.config.idmap where
  walk memory _ ipa :=
    if memory 0x40300000 = 1 then (IdMap.lookup virtEnv.config.idmap ipa).map fun attributes => (ipa, attributes)
    else some (ipa, BitVec.allOnes 64)
  pages := [0x40300000]
  built _ := 1
  walk_eq memory hbuilt ipa := if_pos (hbuilt 0x40300000 (by decide))
  in_image := by decide
  apart := by decide

def virtBoot : Boot U64 3 := { bareBoot with device := 0 }

/-- The payload tries to overwrite the table and to read RITM's memory, and uses its own. -/
def intrudingRun (own : Memory → Memory) : List (Act 3) :=
  [.machine (.run core0) own, .store core0 0x40300000 0, .load core0 0x40400000, .store core0 0x44000000 5,
    .machine (.smcTrap core0 0xC4000003 1 0x48000000 7) own, .machine (.run core0) own]

section Runs

variable (image) (env : Env M U64) (henv : stage2Config M image = some env.config)
  (tables : TablePages image env.config.idmap) (topo : Topology n) (b : Boot U64 n)

/-- **RITM does not notice what guests do to memory**: leave out every load and store of a run, and the machine ends in
the same state, with the same in every byte of the image that is not on the shared heap's pages.  The tables that
enforce it are there too, and are as they were built. -/
theorem guest_accesses_unnoticed (memory : Memory)
    (hbuilt : ∀ address, tables.isTable address = true → memory address = tables.built address) (acts : List (Act n))
    (hc : ∀ act ∈ acts, act.NoDefaultSuspend) (w : World U64 env.maxCores n)
    (hrun : run (World.step (tables.guard henv) topo) (.boot env topo b memory) acts = some w) :
    (∃ v, run (World.step (tables.guard henv) topo) (.boot env topo b memory) (acts.filter Act.isMachine) = some v ∧
      v.machine = w.machine ∧ ∀ address, image.isPrivate address = true → v.memory address = w.memory address) ∧
    ∀ address, tables.isTable address = true → w.memory address = tables.built address := by
  have hboot : World.Guarded (tables.guard henv) topo (.boot env topo b memory) := World.guarded_boot b hbuilt
  obtain ⟨hw, v, hv, hsame⟩ := World.run_without_accesses hc hboot hrun
  exact ⟨⟨v, hv, hsame.machine, hsame.memory⟩, hw.intact⟩

theorem guest_accesses_unnoticed_intruding : ∃ w,
    run (World.step (onePage.guard stage2Config_virtEnv) threeCores) (.boot virtEnv threeCores virtBoot fun _ => 1)
      (intrudingRun fun _ _ => 2) = some w ∧ w.memory 0x40300000 = 1 := by
  obtain ⟨w, hw⟩ := Option.isSome_iff_exists.1 (show
    (run (World.step (onePage.guard stage2Config_virtEnv) threeCores) (.boot virtEnv threeCores virtBoot fun _ => 1)
      (intrudingRun fun _ _ => 2)).isSome = true by decide +kernel)
  have h := guest_accesses_unnoticed alignedImage virtEnv stage2Config_virtEnv onePage threeCores virtBoot (fun _ => 1)
    (fun _ _ => rfl) (intrudingRun fun _ _ => 2) (by decide +kernel) w hw
  exact ⟨w, hw, h.2 0x40300000 (by decide)⟩

/-- **No guest's access depends on RITM's bytes**: let the image hold anything else at boot, but for the tables, and let
RITM leave anything else there at each step.  Every load gives the same byte, every access that faults still does. -/
theorem guest_accesses_independent (memory memory' : Memory)
    (hbuilt : ∀ address, tables.isTable address = true → memory address = tables.built address)
    (hbuilt' : ∀ address, tables.isTable address = true → memory' address = tables.built address)
    (hsame : ∀ address, image.isPrivate address = false → memory' address = memory address) (acts acts' : List (Act n))
    (hacts : List.Forall₂ Act.SameButOwn acts acts') (hc : ∀ act ∈ acts, act.NoDefaultSuspend)
    (w : World U64 env.maxCores n)
    (hrun : run (World.step (tables.guard henv) topo) (.boot env topo b memory) acts = some w) :
    ∃ w', run (World.step (tables.guard henv) topo) (.boot env topo b memory') acts' = some w' ∧
      w'.machine = w.machine ∧
      Lib.trace (World.step (tables.guard henv) topo) (World.see (tables.guard henv)) (.boot env topo b memory') acts' =
        Lib.trace (World.step (tables.guard henv) topo) (World.see (tables.guard henv)) (.boot env topo b memory) acts := by
  have hboot : World.Guarded (tables.guard henv) topo (.boot env topo b memory) := World.guarded_boot b hbuilt
  have hboot' : World.Guarded (tables.guard henv) topo (.boot env topo b memory') := World.guarded_boot b hbuilt'
  obtain ⟨w', hw', htrace, hsame'⟩ := World.run_same_but_own hacts hc hboot hboot' ⟨rfl, hsame⟩ hrun
  exact ⟨w', hw', hsame'.machine, htrace⟩

end Runs

theorem guest_accesses_independent_intruding : ∃ w,
    run (World.step (onePage.guard stage2Config_virtEnv) threeCores) (.boot virtEnv threeCores virtBoot fun _ => 1)
      (intrudingRun fun _ _ => 2) = some w ∧
    ∃ w', run (World.step (onePage.guard stage2Config_virtEnv) threeCores)
        (.boot virtEnv threeCores virtBoot fun address => if address = 0x40400000 then 7 else 1)
        (intrudingRun fun _ _ => 3) = some w' ∧ w'.machine = w.machine := by
  obtain ⟨w, hw⟩ := Option.isSome_iff_exists.1 (show
    (run (World.step (onePage.guard stage2Config_virtEnv) threeCores) (.boot virtEnv threeCores virtBoot fun _ => 1)
      (intrudingRun fun _ _ => 2)).isSome = true by decide +kernel)
  have htable : ∀ address : U64, onePage.isTable address = true → address ≠ 0x40400000 := by
    rintro _ h rfl
    exact absurd h (by decide)
  have hprivate : ∀ address : U64, alignedImage.isPrivate address = false → address ≠ 0x40400000 := by
    rintro _ h rfl
    exact absurd h (by decide)
  obtain ⟨w', hw', hmachine, -⟩ := guest_accesses_independent alignedImage virtEnv stage2Config_virtEnv onePage threeCores
    virtBoot (fun _ => 1) (fun address => if address = 0x40400000 then 7 else 1) (fun _ _ => rfl)
    (fun address h => if_neg (htable address h)) (fun address h => if_neg (hprivate address h)) (intrudingRun fun _ _ => 2)
    (intrudingRun fun _ _ => 3)
    (.cons (.machine ..) (.cons (.store ..) (.cons (.load ..) (.cons (.store ..) (.cons (.machine ..)
      (.cons (.machine ..) .nil)))))) (by decide +kernel) w hw
  exact ⟨w, hw, w', hw', hmachine⟩

end Qemu
end Ritm
