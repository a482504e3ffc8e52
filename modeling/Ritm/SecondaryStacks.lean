import Mathlib.Data.List.Nodup
import Ritm.StackSlots
import Ritm.Suspend
/-!
# SecondaryStacks — which stack a core gets

`SECONDARY_STACKS` never moves an entry, so one key always gives one stack.  A core has two keys, though: a CPU_ON looks
its target up under the affinity the guest passed, a CPU_SUSPEND looks its own core up under MPIDR_EL1, in which bit 31
is set.  So a core that is started and then suspends has two stacks, and every other core has one.  And a CPU_ON takes a
stack for its target before firmware has said whether there is such a core, and does not give it back.
-/
namespace Ritm

open Lib (run)

variable {M σ : Type} {n : Nat}

/-! ## Looking a stack up -/

section Slot

variable {capacity slot : Nat} {stackMap stackMap' : SimpleMap U64 Unit capacity} {key : U64}

theorem mem_keys_secondaryStackSlot (h : secondaryStackSlot stackMap key = some (slot, stackMap')) (k : U64) :
    k ∈ stackMap'.keys ↔ k = key ∨ k ∈ stackMap.keys :=
  SecondaryStacks.mem_keys_getSecondaryStack h k

theorem secondaryStackSlot_some (h : secondaryStackSlot stackMap key = some (slot, stackMap')) :
    stackMap'.getMut key = some slot ∧ ∀ k s, stackMap.getMut k = some s → stackMap'.getMut k = some s :=
  ⟨SecondaryStacks.getMut_getSecondaryStack h, fun _ _ hs => (SecondaryStacks.getSecondaryStack_keeps h hs).1⟩

theorem secondaryStackSlot_none (h : secondaryStackSlot stackMap key = none) :
    key ∉ stackMap.keys ∧ stackMap.keys.length = capacity := by
  unfold secondaryStackSlot at h
  split at h
  · cases h
  · exact SimpleMap.insert_eq_none_iff.1 h

theorem keys_secondaryStackSlot_iff (h : secondaryStackSlot stackMap key = some (slot, stackMap')) :
    stackMap'.keys = stackMap.keys ↔ key ∈ stackMap.keys := by
  constructor
  · intro hkeys
    rw [← hkeys]
    exact (mem_keys_secondaryStackSlot h key).2 (.inl rfl)
  · intro hmem
    unfold secondaryStackSlot at h
    split at h
    · cases h
      rfl
    · rename_i hnew
      exact absurd hmem (SimpleMap.getMut_eq_none_iff.1 hnew)

theorem secondaryStackSlot_isSome {cores : List U64}
    (hkeys : ∀ k ∈ stackMap.keys, k ∈ cores) (hkey : key ∈ cores) (hcores : cores.length ≤ capacity) :
    ∃ slot stackMap', secondaryStackSlot stackMap key = some (slot, stackMap') :=
  SecondaryStacks.getSecondaryStack_isSome () hkeys hkey hcores

end Slot

/-! ## Calls that firmware refuses -/

structure CpuOnCall where
  fnId : U64
  mpidr : U64
  entry : EntryPoint
  x0 : U64

def CpuOnCall.Refused (call : CpuOnCall) : Prop := call.x0 ≠ 0

/-- The calls of a CPU_ON: the map hands out stacks, firmware answers the SMC. -/
def cpuOnHandler {maxCores : Nat} (x0 : U64) : Lib.Prog.Handler (Eff σ) Eff.Resp (SimpleMap U64 Unit maxCores)
  | stackMap, .getSecondaryStack mpidr => secondaryStackSlot stackMap mpidr
  | stackMap, .writeStartClosure .. => some ((), stackMap)
  | stackMap, .smc .. => some (x0, stackMap)
  | _, _ => none

/-- One CPU_ON on `SECONDARY_STACKS`; `none` is the panic. -/
def cpuOn (env : Env M σ) (stackMap : SimpleMap U64 Unit env.maxCores) (call : CpuOnCall) :
    Option (Except PsciError Unit × SimpleMap U64 Unit env.maxCores) :=
  (Lib.Prog.exec (cpuOnHandler call.x0) stackMap (psciCpuOn env call.fnId call.mpidr call.entry)).map
    (fun x => (x.1, x.2.1))

theorem cpuOn_eq (env : Env M σ) (stackMap : SimpleMap U64 Unit env.maxCores) (call : CpuOnCall) :
    cpuOn env stackMap call =
      (secondaryStackSlot stackMap call.mpidr).map (fun x => (successOrError call.x0, x.2)) := by
  unfold cpuOn
  cases hslot : secondaryStackSlot stackMap call.mpidr with
  | none =>
    have hcall : cpuOnHandler (σ := σ) call.x0 stackMap (.getSecondaryStack call.mpidr) = none := hslot
    exact congrArg (Option.map _) (Lib.Prog.exec_step_none _ hcall)
  | some x =>
    have hcall : cpuOnHandler (σ := σ) call.x0 stackMap (.getSecondaryStack call.mpidr) = some (x.1, x.2) := hslot
    exact congrArg (Option.map _) (Lib.Prog.exec_step _ hcall)

/-- **Refused calls cost nothing**: no call of the sequence panics, and one that firmware refuses leaves the keys of
`SECONDARY_STACKS` as they were. -/
def RefusalsFree (env : Env M σ) : SimpleMap U64 Unit env.maxCores → List CpuOnCall → Prop
  | _, [] => True
  | stackMap, call :: calls => ∃ result stackMap', cpuOn env stackMap call = some (result, stackMap') ∧
      (call.Refused → stackMap'.keys = stackMap.keys) ∧ RefusalsFree env stackMap' calls

/-- Every call that firmware refuses is for a target that an earlier call, or one of `named`, was for. -/
def RefusalsKnown (named : List U64) : List CpuOnCall → Prop
  | [] => True
  | call :: calls => (call.Refused → call.mpidr ∈ named) ∧ RefusalsKnown (call.mpidr :: named) calls

theorem refusalsKnown_of_free (env : Env M σ) : ∀ (calls : List CpuOnCall) {stackMap : SimpleMap U64 Unit env.maxCores}
    {named : List U64}, (∀ k ∈ stackMap.keys, k ∈ named) → RefusalsFree env stackMap calls → RefusalsKnown named calls
  | [], _, _, _, _ => trivial
  | call :: calls, stackMap, named, hnamed, ⟨result, stackMap', hcall, hkeys, hrest⟩ => by
    rw [cpuOn_eq] at hcall
    obtain ⟨⟨slot, stackMap₁⟩, hslot, heq⟩ := Option.map_eq_some_iff.1 hcall
    cases heq
    refine ⟨fun hrefused => hnamed _ ((keys_secondaryStackSlot_iff hslot).1 (hkeys hrefused)),
      refusalsKnown_of_free env calls (fun k hk => ?_) hrest⟩
    rcases (mem_keys_secondaryStackSlot hslot k).1 hk with rfl | hk
    · exact List.mem_cons_self
    · exact List.mem_cons_of_mem _ (hnamed k hk)

theorem refusalsFree_of_known (env : Env M σ) {cores : List U64} (hcores : cores.length ≤ env.maxCores) :
    ∀ (calls : List CpuOnCall) {stackMap : SimpleMap U64 Unit env.maxCores} {named : List U64},
      (∀ call ∈ calls, ¬ call.Refused → call.mpidr ∈ cores) → (∀ k ∈ stackMap.keys, k ∈ cores) →
      (∀ k ∈ named, k ∈ stackMap.keys) → RefusalsKnown named calls → RefusalsFree env stackMap calls
  | [], _, _, _, _, _, _ => trivial
  | call :: calls, stackMap, named, haccepted, hkeys, hnamed, ⟨hknown, hrest⟩ => by
    have hkey : call.mpidr ∈ cores := by
      by_cases hr : call.Refused
      · exact hkeys _ (hnamed _ (hknown hr))
      · exact haccepted call List.mem_cons_self hr
    obtain ⟨slot, stackMap', hslot⟩ := secondaryStackSlot_isSome hkeys hkey hcores
    have hmem := mem_keys_secondaryStackSlot hslot
    refine ⟨_, stackMap', by rw [cpuOn_eq, hslot]; rfl,
      fun hr => (keys_secondaryStackSlot_iff hslot).2 (hnamed _ (hknown hr)),
      refusalsFree_of_known env hcores calls (fun c hc => haccepted c (List.mem_cons_of_mem _ hc)) (fun k hk => ?_)
        (fun k hk => ?_) hrest⟩
    · rcases (hmem k).1 hk with rfl | hk
      · exact hkey
      · exact hkeys k hk
    · rcases List.mem_cons.1 hk with rfl | hk
      · exact (hmem _).2 (.inl rfl)
      · exact (hmem k).2 (.inr (hnamed k hk))

/-- **A refused CPU_ON costs nothing exactly when its target has a stack already.**  So no sequence of calls, of which
firmware accepts only those for the machine's cores, runs out of stacks, as long as every refused call is for a target
that an earlier one was for. -/
theorem cpuOn_refusals_free_iff (env : Env M σ) :
    (∀ stackMap call result stackMap', cpuOn env stackMap call = some (result, stackMap') → call.Refused →
      ((∃ e, result = .error e) ∧ (stackMap'.keys = stackMap.keys ↔ call.mpidr ∈ stackMap.keys))) ∧
    ∀ (cores : List U64) (calls : List CpuOnCall), cores.length ≤ env.maxCores →
      (∀ call ∈ calls, ¬ call.Refused → call.mpidr ∈ cores) →
      (RefusalsFree env .new calls ↔ RefusalsKnown [] calls) := by
  refine ⟨fun stackMap call result stackMap' hcall hr => ?_, fun cores calls hcores haccepted => ⟨?_, ?_⟩⟩
  · rw [cpuOn_eq] at hcall
    obtain ⟨⟨slot, stackMap₁⟩, hslot, heq⟩ := Option.map_eq_some_iff.1 hcall
    cases heq
    refine ⟨⟨_, if_neg hr⟩, keys_secondaryStackSlot_iff hslot⟩
  · refine refusalsKnown_of_free env calls ?_
    rw [SimpleMap.keys_new]
    exact fun _ hk => by cases hk
  · refine refusalsFree_of_known env hcores calls haccepted ?_ ?_
    · rw [SimpleMap.keys_new]
      exact fun _ hk => by cases hk
    · exact fun _ hk => by cases hk

def strayCalls (count : Nat) : List CpuOnCall :=
  (List.range count).map (fun k => ⟨0xc4000003, BitVec.ofNat 64 (k + 1), .entry64 0 0, -2⟩)

theorem cpuOn_refusals_free_iff_bareEnv :
    RefusalsFree bareEnv .new [⟨0xc4000003, 1, .entry64 0x48000000 7, 0⟩, ⟨0xc4000003, 1, .entry64 0x48000000 7, -4⟩] := by
  refine ((cpuOn_refusals_free_iff bareEnv).2 [1] _ (by decide) ?_).2 ?_
  · intro call hcall _
    rcases List.mem_pair.1 hcall with rfl | rfl <;> exact List.mem_singleton_self _
  · exact ⟨fun hrefused => absurd rfl hrefused, fun _ => List.mem_singleton_self _, trivial⟩

/-- One refused call has taken a slot, and the ninth finds none left. -/
theorem stray_calls_use_up_stacks :
    (∃ stackMap, cpuOn bareEnv .new ⟨0xc4000003, 1, .entry64 0 0, -2⟩ = some (.error .invalidParameters, stackMap) ∧
      stackMap.keys = [1]) ∧
    ((strayCalls 8).foldlM (fun stackMap call => (cpuOn bareEnv stackMap call).map Prod.snd) .new).isSome = true ∧
    ((strayCalls 9).foldlM (fun stackMap call => (cpuOn bareEnv stackMap call).map Prod.snd) .new).isNone = true :=
  ⟨⟨_, rfl, rfl⟩, by decide +kernel, by decide +kernel⟩

/-! ## One stack and one key for each core -/

def GuestCall.TargetExists (topo : Topology n) (call : GuestCall) : Prop :=
  call.fnId ∈ cpuOnIds → ∃ j, call.target = affinityOf (topo.mpidr j)

instance (topo : Topology n) : DecidablePred (GuestCall.TargetExists topo) := fun call =>
  inferInstanceAs (Decidable (call.fnId ∈ cpuOnIds → ∃ j, call.target = affinityOf (topo.mpidr j)))

def GuestCall.Starts (topo : Topology n) (call : GuestCall) (j : Fin n) : Prop :=
  call.fnId ∈ cpuOnIds ∧ call.target = affinityOf (topo.mpidr j)

def GuestCall.Suspends (call : GuestCall) : Prop := call.fnId ∈ cpuSuspendIds

/-- The lookup was made on behalf of core `j`: as the target of a CPU_ON, or as the core that suspends. -/
def StackLookup.For (topo : Topology n) (l : StackLookup n) (j : Fin n) : Prop :=
  l.call.Starts topo j ∨ l.call.Suspends ∧ l.caller = j

/-- **One stack for each core**: all lookups on behalf of a core gave one stack, the stacks in use are no more than the
cores, and no map ran out of room. -/
structure OneStack {maxCores : Nat} (topo : Topology n) (m : Machine σ maxCores n) : Prop where
  same : ∀ j, ∀ l ∈ m.lookups, ∀ l' ∈ m.lookups, l.For topo j → l'.For topo j →
    ∃ slot, l.slot = some slot ∧ l'.slot = some slot
  few : m.shared.stackMap.keys.length ≤ n
  room : ∀ i, (m.cores i).mode ≠ .panicked capacityExceeded

/-- No core that is the target of one of the guests' CPU_ONs makes a CPU_SUSPEND. -/
def Apart (topo : Topology n) (calls : List (Fin n × GuestCall)) : Prop :=
  ∀ c ∈ calls, ∀ c' ∈ calls, ∀ j, c.2.Starts topo j → c'.2.Suspends → c'.1 ≠ j

instance (topo : Topology n) (call : GuestCall) (j : Fin n) : Decidable (call.Starts topo j) :=
  inferInstanceAs (Decidable (_ ∧ _))

instance (call : GuestCall) : Decidable call.Suspends := inferInstanceAs (Decidable (_ ∈ _))

instance (topo : Topology n) : DecidablePred (Apart topo) := fun _ => inferInstanceAs (Decidable (∀ c ∈ _, _))

theorem Apart.mono {topo : Topology n} {calls calls' : List (Fin n × GuestCall)} (h : Apart topo calls')
    (hsub : ∀ c ∈ calls, c ∈ calls') : Apart topo calls :=
  fun c hc c' hc' => h c (hsub c hc) c' (hsub c' hc')

def Machine.served {maxCores : Nat} (m : Machine σ maxCores n) : List (Fin n × GuestCall) :=
  m.lookups.map (fun l => (l.caller, l.call))

/-- The key of a core that is started is not the key of a core that suspends: RES1. -/
theorem Topology.affinityOf_ne_mpidr (topo : Topology n) (i j : Fin n) : affinityOf (topo.mpidr i) ≠ topo.mpidr j := by
  intro heq
  have hbit := congrArg (fun x => x.getLsbD 31) heq
  have hclear : (affinityOf (topo.mpidr i)).getLsbD 31 = false := by
    rw [affinityOf, BitVec.getLsbD_and, show affinityMask.getLsbD 31 = false from by decide, Bool.and_false]
  rw [hclear, topo.res1 j] at hbit
  cases hbit

variable {env : Env M σ} {topo : Topology n} {m m' : Machine σ env.maxCores n}

def StackLookup.Keyed (topo : Topology n) (l : StackLookup n) : Prop :=
  (∃ j, l.call.Starts topo j ∧ l.key = affinityOf (topo.mpidr j)) ∨ l.call.Suspends ∧ l.key = topo.mpidr l.caller

structure Stacked (topo : Topology n) (m : Machine σ env.maxCores n) : Prop where
  keyed : ∀ l ∈ m.lookups, l.Keyed topo
  slot : ∀ l ∈ m.lookups, ∀ slot, l.slot = some slot → m.shared.stackMap.getMut l.key = some slot
  used : ∀ key ∈ m.shared.stackMap.keys, ∃ l ∈ m.lookups, l.key = key
  -- A lookup that panicked found the map full of other keys.
  full : ∀ l ∈ m.lookups, l.slot = none → ∃ keys : List U64, (l.key :: keys).Nodup ∧ keys.length = env.maxCores ∧
    ∀ k ∈ l.key :: keys, ∃ l' ∈ m.lookups, l'.key = k

theorem StackLookup.Keyed.owner {l : StackLookup n} (h : l.Keyed topo) :
    ∃ j, l.For topo j ∧ (l.key = affinityOf (topo.mpidr j) ∨ l.key = topo.mpidr j) := by
  rcases h with ⟨j, hstarts, hkey⟩ | ⟨hsuspends, hkey⟩
  · exact ⟨j, .inl hstarts, .inl hkey⟩
  · exact ⟨l.caller, .inr ⟨hsuspends, rfl⟩, .inr hkey⟩

theorem not_starts_of_suspends {call : GuestCall} {j : Fin n} (h : call.Suspends) : ¬ call.Starts topo j := by
  intro hstarts
  have hids : ∀ id ∈ cpuSuspendIds, id ∉ cpuOnIds := by simp [cpuSuspendIds, cpuOnIds]
  exact hids _ h hstarts.1

theorem GuestCall.Starts.unique {call : GuestCall} {i j : Fin n} (hi : call.Starts topo i) (hj : call.Starts topo j) :
    i = j :=
  topo.affinity_injective i j (hi.2.symm.trans hj.2)

theorem StackLookup.Keyed.key_of_for {l : StackLookup n} {j : Fin n} (h : l.Keyed topo) (hfor : l.For topo j) :
    (l.call.Starts topo j ∧ l.key = affinityOf (topo.mpidr j)) ∨
      (l.call.Suspends ∧ l.caller = j ∧ l.key = topo.mpidr j) := by
  rcases h with ⟨i, hstarts, hkey⟩ | ⟨hsuspends, hkey⟩
  · rcases hfor with hj | ⟨hsuspends, -⟩
    · obtain rfl := hstarts.unique hj
      exact .inl ⟨hj, hkey⟩
    · exact absurd hstarts (not_starts_of_suspends hsuspends)
  · rcases hfor with hj | ⟨-, rfl⟩
    · exact absurd hj (not_starts_of_suspends hsuspends)
    · exact .inr ⟨hsuspends, rfl, hkey⟩

/-- **Under the condition one core has one key.** -/
theorem Stacked.key_eq (h : Stacked topo m) (hapart : Apart topo m.served) {l l' : StackLookup n} (hl : l ∈ m.lookups)
    (hl' : l' ∈ m.lookups) {j : Fin n} (hj : l.For topo j) (hj' : l'.For topo j) : l.key = l'.key := by
  have hserved : ∀ {l}, l ∈ m.lookups → (l.caller, l.call) ∈ m.served := fun hl => List.mem_map.2 ⟨_, hl, rfl⟩
  rcases (h.keyed l hl).key_of_for hj with ⟨hstarts, hkey⟩ | ⟨hsuspends, hcaller, hkey⟩
  · rcases (h.keyed l' hl').key_of_for hj' with ⟨-, hkey'⟩ | ⟨hsuspends', hcaller', -⟩
    · exact hkey.trans hkey'.symm
    · exact absurd hcaller' (hapart _ (hserved hl) _ (hserved hl') j hstarts hsuspends')
  · rcases (h.keyed l' hl').key_of_for hj' with ⟨hstarts', -⟩ | ⟨-, -, hkey'⟩
    · exact absurd hcaller (hapart _ (hserved hl') _ (hserved hl) j hstarts' hsuspends)
    · exact hkey.trans hkey'.symm

theorem Stacked.length_le (h : Stacked topo m) (hapart : Apart topo m.served) {keys : List U64} (hnodup : keys.Nodup)
    (hkeys : ∀ k ∈ keys, ∃ l ∈ m.lookups, l.key = k) : keys.length ≤ n := by
  have haff : ∀ {l : StackLookup n} {j : Fin n}, (l.key = affinityOf (topo.mpidr j) ∨ l.key = topo.mpidr j) →
      affinityOf l.key = affinityOf (topo.mpidr j) := by
    rintro l j (hkey | hkey)
    · rw [hkey, affinityOf, affinityOf, BitVec.and_assoc, BitVec.and_self]
    · rw [hkey]
  -- two keys of one affinity are keys of one core
  have hmap : (keys.map affinityOf).Nodup := List.Nodup.map_on (fun k hk k' hk' heq => by
    obtain ⟨l, hl, rfl⟩ := hkeys k hk
    obtain ⟨l', hl', rfl⟩ := hkeys k' hk'
    obtain ⟨j, hj, hkey⟩ := (h.keyed l hl).owner
    obtain ⟨j', hj', hkey'⟩ := (h.keyed l' hl').owner
    obtain rfl := topo.affinity_injective j j' ((haff hkey).symm.trans (heq.trans (haff hkey')))
    exact h.key_eq hapart hl hl' hj hj') hnodup
  have hsub : ∀ a ∈ keys.map affinityOf, a ∈ List.ofFn (fun j => affinityOf (topo.mpidr j)) := fun a ha => by
    obtain ⟨k, hk, rfl⟩ := List.mem_map.1 ha
    obtain ⟨l, hl, rfl⟩ := hkeys k hk
    obtain ⟨j, -, hkey⟩ := (h.keyed l hl).owner
    exact List.mem_ofFn.2 ⟨j, (haff hkey).symm⟩
  calc keys.length = (keys.map affinityOf).length := (List.length_map _).symm
    _ ≤ (List.ofFn fun j => affinityOf (topo.mpidr j)).length := (hmap.subperm hsub).length_le
    _ = n := List.length_ofFn

theorem Stacked.found (h : Stacked topo m) (hn : n ≤ env.maxCores) (hapart : Apart topo m.served) {l : StackLookup n}
    (hl : l ∈ m.lookups) : ∃ slot, l.slot = some slot := by
  cases hslot : l.slot with
  | some slot => exact ⟨slot, rfl⟩
  | none =>
    obtain ⟨keys, hnodup, hlength, hkeys⟩ := h.full l hl hslot
    have := h.length_le hapart hnodup hkeys
    rw [List.length_cons, hlength] at this
    omega

def Core.RanOut (lookups : List (StackLookup n)) (core : Core σ) : Prop :=
  core.mode = .panicked capacityExceeded → ∃ l ∈ lookups, l.slot = none

theorem oneStack_iff_of_stacked (h : Stacked topo m) (hn : n ≤ env.maxCores)
    (hpanic : ∀ i, (m.cores i).RanOut m.lookups) : OneStack topo m ↔ Apart topo m.served := by
  constructor
  · intro hstack c hc c' hc' j hstarts hsuspends hcaller
    obtain ⟨l, hl, rfl⟩ := List.mem_map.1 hc
    obtain ⟨l', hl', rfl⟩ := List.mem_map.1 hc'
    have hfor : l.For topo j := .inl hstarts
    have hfor' : l'.For topo j := .inr ⟨hsuspends, hcaller⟩
    obtain ⟨slot, hs, hs'⟩ := hstack.same j l hl l' hl' hfor hfor'
    -- one slot has one key, but the two paths to it do not build the same one
    have hkeys := SimpleMap.getMut_injective (h.slot l hl slot hs) (h.slot l' hl' slot hs')
    rcases (h.keyed l hl).key_of_for hfor with ⟨-, hkey⟩ | ⟨hsuspends', -⟩
    · rcases (h.keyed l' hl').key_of_for hfor' with ⟨hstarts', -⟩ | ⟨-, -, hkey'⟩
      · exact not_starts_of_suspends hsuspends hstarts'
      · exact topo.affinityOf_ne_mpidr j j (hkey.symm.trans (hkeys.trans hkey'))
    · exact not_starts_of_suspends hsuspends' hstarts
  · intro hapart
    refine ⟨fun j l hl l' hl' hj hj' => ?_, h.length_le hapart m.shared.stackMap.keys_nodup h.used, fun i hmode => ?_⟩
    · obtain ⟨slot, hs⟩ := h.found hn hapart hl
      obtain ⟨slot', hs'⟩ := h.found hn hapart hl'
      have hfound := h.slot l hl slot hs
      rw [h.key_eq hapart hl hl' hj hj', h.slot l' hl' slot' hs'] at hfound
      cases hfound
      exact ⟨slot, hs, hs'⟩
    · obtain ⟨l, hl, hnone⟩ := hpanic i hmode
      obtain ⟨slot, hslot⟩ := h.found hn hapart hl
      cases hnone.symm.trans hslot

/-! ## Steps -/

theorem append_lookup_of_ne (lookups : List (StackLookup n)) (i : Fin n) (call : GuestCall) {e : Eff σ}
    (hne : ∀ key, e ≠ .getSecondaryStack key) (r : Option e.Resp) : lookups ++ e.lookup i call r = lookups := by
  cases e with
  | getSecondaryStack key => exact absurd rfl (hne key)
  | _ => exact List.append_nil lookups

theorem Stacked.keep (h : Stacked topo m) (hl : m'.lookups = m.lookups) (hs : m'.shared.stackMap = m.shared.stackMap) :
    Stacked topo m' := by
  obtain ⟨hkeyed, hslot, hused, hfull⟩ := h
  exact ⟨by rwa [hl], by rwa [hl, hs], by rwa [hl, hs], by rwa [hl]⟩

theorem Stacked.lookup (h : Stacked topo m) {new : StackLookup n} (hkeyed : new.Keyed topo)
    (hl : m'.lookups = m.lookups ++ [new])
    (hslot : ∀ slot, new.slot = some slot → m'.shared.stackMap.getMut new.key = some slot)
    (hkept : ∀ k s, m.shared.stackMap.getMut k = some s → m'.shared.stackMap.getMut k = some s)
    (hkeys : ∀ k ∈ m'.shared.stackMap.keys, k = new.key ∨ k ∈ m.shared.stackMap.keys)
    (hfull : new.slot = none → new.key ∉ m.shared.stackMap.keys ∧ m.shared.stackMap.keys.length = env.maxCores) :
    Stacked topo m' := by
  have hmem : ∀ {l}, l ∈ m'.lookups ↔ l ∈ m.lookups ∨ l = new := fun {l} => by
    rw [hl, List.mem_append, List.mem_singleton]
  have hused : ∀ k, (∃ l ∈ m.lookups, l.key = k) → ∃ l ∈ m'.lookups, l.key = k := fun k ⟨l, hl, hk⟩ =>
    ⟨l, hmem.2 (.inl hl), hk⟩
  refine ⟨fun l hm => ?_, fun l hm s hs => ?_, fun k hk => ?_, fun l hm hnone => ?_⟩
  · rcases hmem.1 hm with hm | rfl
    · exact h.keyed l hm
    · exact hkeyed
  · rcases hmem.1 hm with hm | rfl
    · exact hkept l.key s (h.slot l hm s hs)
    · exact hslot s hs
  · rcases hkeys k hk with rfl | hk
    · exact ⟨new, hmem.2 (.inr rfl), rfl⟩
    · exact hused k (h.used k hk)
  · rcases hmem.1 hm with hm | rfl
    · obtain ⟨keys, hnodup, hlength, hlooked⟩ := h.full l hm hnone
      exact ⟨keys, hnodup, hlength, fun k' hk' => hused k' (hlooked k' hk')⟩
    · obtain ⟨hnew, hlength⟩ := hfull hnone
      refine ⟨m.shared.stackMap.keys, List.nodup_cons.2 ⟨hnew, m.shared.stackMap.keys_nodup⟩, hlength, fun k' hk' => ?_⟩
      rcases List.mem_cons.1 hk' with rfl | hk'
      · exact ⟨l, hmem.2 (.inr rfl), rfl⟩
      · exact hused k' (h.used k' hk')

theorem lookup_keyed {core : Core σ} {i : Fin n} {key : U64} (ht : core.call.TargetExists topo)
    (ha : core.phase.Allows env (topo.mpidr i) core.call (.getSecondaryStack key)) (slot : Option Nat) :
    StackLookup.Keyed topo ⟨i, core.call, key, slot⟩ := by
  rcases ha.getSecondaryStack with ⟨-, hid, hkey, -⟩ | ⟨-, hid, hkey⟩
  · obtain ⟨j, hj⟩ := ht hid
    exact .inl ⟨j, ⟨hid, hj⟩, hkey.trans hj⟩
  · exact .inr ⟨hid, hkey⟩

theorem ranOut_fail {i : Fin n} {e : Eff σ} {message : String} (ht : Tracked topo m) (hn : n ≤ env.maxCores)
    (ha : (m.cores i).phase.Allows env (topo.mpidr i) (m.cores i).call e)
    (hp : m.shared.perform e = some (.error message)) (hmessage : message = capacityExceeded) :
    ∃ l ∈ e.lookup i (m.cores i).call none, l.slot = none := by
  cases e with
  | getSecondaryStack key => exact ⟨_, List.mem_singleton_self _, rfl⟩
  | suspendInsert key context =>
    obtain ⟨-, -, rfl, -⟩ := ha.suspendInsert
    obtain ⟨slot, contexts, hfits⟩ := ht.insert_fits hn i context
    rw [Shared.perform, hfits] at hp
    cases hp
  | panic message' =>
    cases hp
    subst hmessage
    rcases ha.panic with hmem | ⟨-, heq⟩
    · exact absurd hmem (by decide)
    · exact absurd heq (by decide)
  | _ => cases hp

variable [IdMap M]

theorem stacked_boot (b : Boot σ n) : Stacked topo (.boot env topo b) where
  keyed _ h := by cases h
  slot _ h := by cases h
  used key h := by
    have hnil : (Machine.boot env topo b).shared.stackMap.keys = [] := SimpleMap.keys_new
    rw [hnil] at h
    cases h
  full _ h := by cases h

theorem stacked_step {choice : Choice n} (hs : ∀ i, (m.cores i).Serving env (topo.mpidr i))
    (ht : ∀ i, (m.cores i).call.TargetExists topo) (h : Stacked topo m) (hstep : Step env topo m choice m') :
    Stacked topo m' := by
  cases hstep with
  | @call i e k r shared hmode hp =>
    by_cases hlookup : ∃ key, e = .getSecondaryStack key
    · obtain ⟨key, rfl⟩ := hlookup
      obtain ⟨stackMap, hslot, rfl⟩ := Shared.perform_getSecondaryStack hp
      obtain ⟨hfound, hkept⟩ := secondaryStackSlot_some hslot
      refine h.lookup (lookup_keyed (ht i) ((hs i).allows hmode) (some r)) rfl ?_ hkept
        (fun k => (mem_keys_secondaryStackSlot hslot k).1) fun hr => by cases hr
      intro slot hr
      cases hr
      exact hfound
    · have hne : ∀ key, e ≠ .getSecondaryStack key := fun key he => hlookup ⟨key, he⟩
      exact h.keep (append_lookup_of_ne m.lookups i _ hne (some r)) (Shared.perform_stacks_eq hp hne)
  | @fail i e k message hmode hp =>
    by_cases hlookup : ∃ key, e = .getSecondaryStack key
    · obtain ⟨key, rfl⟩ := hlookup
      -- a panic is recorded as a lookup without a slot
      have hslot : secondaryStackSlot m.shared.stackMap key = none := by
        rw [Shared.perform] at hp
        split at hp
        · cases hp
        · assumption
      exact h.lookup (lookup_keyed (ht i) ((hs i).allows hmode) none) rfl
        (fun _ hr => by cases hr) (fun _ _ hk => hk) (fun _ hk => .inr hk) fun _ => secondaryStackSlot_none hslot
    · exact h.keep (append_lookup_of_ne m.lookups i _ (fun key he => hlookup ⟨key, he⟩) none) rfl
  | _ => exact h.keep rfl rfl

theorem ranOut_boot (b : Boot σ n) (i : Fin n) :
    ((Machine.boot env topo b).cores i).RanOut (Machine.boot env topo b).lookups := by
  intro hmode
  unfold Machine.boot at hmode
  dsimp only at hmode
  split_ifs at hmode

theorem ranOut_step {choice : Choice n} (hs : ∀ i, (m.cores i).Serving env (topo.mpidr i)) (ht : Tracked topo m)
    (hn : n ≤ env.maxCores) (h : ∀ i, (m.cores i).RanOut m.lookups) (hstep : Step env topo m choice m') (i : Fin n) :
    (m'.cores i).RanOut m'.lookups := by
  have hmono : ∀ new i, (m.cores i).RanOut (m.lookups ++ new) := fun new i hi =>
    (h i hi).imp fun _ hl => ⟨List.mem_append_left _ hl.1, hl.2⟩
  cases hstep with
  | @call i e k r =>
    refine Machine.forall_setCore (hmono (e.lookup i (m.cores i).call (some r))) ?_ _
    nofun
  | @fail i e k message hmode hp =>
    refine Machine.forall_setCore (hmono (e.lookup i (m.cores i).call none)) ?_ _
    intro heq
    obtain ⟨l, hl, hnone⟩ := ranOut_fail ht hn ((hs i).allows hmode) hp (Mode.panicked.inj heq)
    exact ⟨l, List.mem_append_right _ hl, hnone⟩
  | @smcCpuOn i j =>
    refine Machine.forall_setCore (m := m.setCore i _) (Machine.forall_setCore h ?_) ?_ _ <;> nofun
  | @enterEl2 i =>
    refine Machine.forall_setCore h ?_ _
    intro hmode
    unfold Core.enterEl2 at hmode
    dsimp only at hmode
    split at hmode
    · cases hmode
    split at hmode <;> cases hmode
  | _ =>
    refine Machine.forall_setCore h ?_ _
    nofun

/-! ## Whose calls are looked up -/

/-- A core's latest call and the calls looked up are calls that guests made; a core that made none has the default. -/
structure Heard (calls : List (Fin n × GuestCall)) (m : Machine σ env.maxCores n) : Prop where
  latest : ∀ i, (m.cores i).call = default ∨ (i, (m.cores i).call) ∈ calls
  served : ∀ l ∈ m.lookups, (l.caller, l.call) ∈ calls

omit [IdMap M] in
theorem heard_lookup {calls : List (Fin n × GuestCall)} {i : Fin n} {e : Eff σ} (h : Heard calls m)
    (ha : (m.cores i).phase.Allows env (topo.mpidr i) (m.cores i).call e) {r : Option e.Resp} :
    ∀ l ∈ m.lookups ++ e.lookup i (m.cores i).call r, (l.caller, l.call) ∈ calls := by
  intro l hl
  rcases List.mem_append.1 hl with hl | hl
  · exact h.served l hl
  cases e with
  | getSecondaryStack key =>
    obtain rfl := List.mem_singleton.1 hl
    rcases h.latest i with hdefault | hmem
    · -- zero is no identifier of a call that looks a stack up
      rcases ha.getSecondaryStack with ⟨-, hid, -⟩ | ⟨-, hid, -⟩
      · rw [hdefault] at hid
        exact absurd hid (by decide)
      · rw [hdefault] at hid
        exact absurd hid (by decide)
    · exact hmem
  | _ => cases hl

theorem heard_step {calls : List (Fin n × GuestCall)} {choice : Choice n} (hc : ∀ c ∈ choice.guestCall, c ∈ calls)
    (hs : ∀ i, (m.cores i).Serving env (topo.mpidr i)) (h : Heard calls m) (hstep : Step env topo m choice m') :
    Heard calls m' := by
  refine ⟨Machine.guestCalls_step (P := fun i call => call = default ∨ (i, call) ∈ calls)
    (fun c hmem => .inr (hc c hmem)) h.latest hstep, ?_⟩
  cases hstep with
  | call hmode => exact heard_lookup h ((hs _).allows hmode)
  | fail hmode => exact heard_lookup h ((hs _).allows hmode)
  | _ => exact h.served

theorem heard_boot (calls : List (Fin n × GuestCall)) (b : Boot σ n) : Heard calls (Machine.boot env topo b) where
  latest _ := .inl rfl
  served _ h := by cases h

/-- **One EL2 stack for each core**, in every state of every run whose CPU_ONs target cores: exactly when no core for
which a CPU_ON was served has had a CPU_SUSPEND of its own served.  So it holds throughout a run in which no core is both
the target of a CPU_ON and one that makes a CPU_SUSPEND. -/
theorem oneStack_iff_apart (env : Env M σ) (topo : Topology n) (hn : n ≤ env.maxCores) (b : Boot σ n)
    (choices : List (Choice n)) (hc : ∀ choice ∈ choices, choice.Calls (GuestCall.TargetExists topo))
    (m : Machine σ env.maxCores n) (hrun : run (Machine.step env topo) (.boot env topo b) choices = some m) :
    (OneStack topo m ↔ Apart topo m.served) ∧
      (Apart topo (choices.filterMap Choice.guestCall) → OneStack topo m) := by
  let calls := choices.filterMap Choice.guestCall
  obtain ⟨-, -, -, hstacked, hpanic, hheard⟩ := Lib.invariant
    (I := fun m => (∀ i, (m.cores i).Serving env (topo.mpidr i)) ∧ (∀ i, (m.cores i).call.TargetExists topo) ∧
      Tracked topo m ∧ Stacked topo m ∧ (∀ i, (m.cores i).RanOut m.lookups) ∧ Heard calls m)
    (C := fun _ choice => choice.Calls (GuestCall.TargetExists topo) ∧ ∀ c ∈ choice.guestCall, c ∈ calls)
    (fun s choice s' ⟨hserving, htargets, htracked, hstacked, hpanic, hheard⟩ hchoice hs =>
      have hstep := Machine.step_cases hs
      ⟨Machine.serving_step hserving hstep, Machine.calls_step hchoice.1 htargets hstep,
        tracked_step hserving htracked hstep, stacked_step hserving htargets hstacked hstep,
        ranOut_step hserving htracked hn hpanic hstep, heard_step hchoice.2 hserving hheard hstep⟩)
    choices _ m
    ⟨Machine.serving_boot b, fun _ (hid : (default : GuestCall).fnId ∈ cpuOnIds) => absurd hid (by decide),
      tracked_boot b, stacked_boot b, ranOut_boot b, heard_boot calls b⟩
    (Lib.meets_of_forall _ fun choice hmem =>
      ⟨hc choice hmem, fun c hcall => List.mem_filterMap.2 ⟨choice, hmem, hcall⟩⟩) hrun
  have hiff := oneStack_iff_of_stacked hstacked hn hpanic
  refine ⟨hiff, fun hapart => hiff.2 (hapart.mono fun c hserved => ?_)⟩
  obtain ⟨l, hl, rfl⟩ := List.mem_map.1 hserved
  exact hheard.served l hl

def apartRun : List (Choice 3) :=
  [.run core0, .smcTrap core0 0xC4000003 1 0x48000000 7, .run core0, .run core0, .smcCpuOn core0 core1, .run core0,
    .smcTrap core0 0xC4000001 0x10000 0x49000000 8, .run core0, .run core0]

theorem oneStack_iff_apart_apartRun : ∃ m, bareRun apartRun = some m ∧
    m.lookups.map StackLookup.slot = [some 0, some 1] ∧ OneStack threeCores m := by
  have hobs : (bareRun apartRun).map (fun m => m.lookups.map StackLookup.slot) = some [some 0, some 1] := by
    decide +kernel
  obtain ⟨m, hm, hslots⟩ := Option.map_eq_some_iff.1 hobs
  have hc : ∀ choice ∈ apartRun, choice.Calls (GuestCall.TargetExists threeCores) := by decide +kernel
  have hapart : Apart threeCores (apartRun.filterMap Choice.guestCall) := by decide +kernel
  exact ⟨m, hm, hslots, (oneStack_iff_apart bareEnv threeCores (by decide) bareBoot apartRun hc m hm).2 hapart⟩

/-- Core 1 is started on the stack of key 1 and suspends on the stack of key 0x80000001. -/
theorem started_core_suspends_on_another_stack :
    (∀ choice ∈ mediatedRun, choice.Calls (GuestCall.TargetExists threeCores)) ∧
    ∃ m, bareRun mediatedRun = some m ∧
      m.lookups = [⟨core0, ⟨0xC4000003, 1, 0x48000000, 7⟩, 1, some 0⟩,
        ⟨core1, ⟨0xC4000001, 0x10000, 0x49000000, 8⟩, 0x80000001, some 1⟩] ∧
      ¬ OneStack threeCores m := by
  refine ⟨by decide +kernel, ?_⟩
  have hobs : (bareRun mediatedRun).map Machine.lookups = some [⟨core0, ⟨0xC4000003, 1, 0x48000000, 7⟩, 1, some 0⟩,
      ⟨core1, ⟨0xC4000001, 0x10000, 0x49000000, 8⟩, 0x80000001, some 1⟩] := by decide +kernel
  obtain ⟨m, hm, hlookups⟩ := Option.map_eq_some_iff.1 hobs
  refine ⟨m, hm, hlookups, fun hone => ?_⟩
  have hsame := hone.same core1
  rw [hlookups] at hsame
  have hsuspends : (0xC4000001 : U64) ∈ cpuSuspendIds := by decide
  obtain ⟨slot, h0, h1⟩ := hsame _ List.mem_cons_self _ (List.mem_cons_of_mem _ List.mem_cons_self)
    (.inl ⟨by decide, by decide⟩) (.inr ⟨hsuspends, rfl⟩)
  cases h0
  cases h1

end Ritm
