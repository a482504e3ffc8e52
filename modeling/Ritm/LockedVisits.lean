import Ritm.El2Visits
import Ritm.FineMachine
/-!
# LockedVisits — how long a core is at EL2, with the locks

A core that has taken a map's lock makes a bounded number of accesses and can always make the next one (`Inside`).  So a
visit to EL2 is bounded as well, its calls and the accesses inside them counted together, and a core at EL2 that cannot
go on waits for a lock of which the holder can, or has panicked.  A lock whose holder has panicked is never free again.
-/
namespace Ritm

open Lib (Section Mutex run)

variable {M σ : Type} {n maxCores : Nat}

/-! ## How long a lock is held -/

def FineChoice.accesses (i : Fin n) (l : MapLock) : FineChoice n → Nat
  | access i' l' => if i' = i ∧ l' = l then 1 else 0
  | _ => 0

def FineChoice.ends (i : Fin n) (l : MapLock) : FineChoice n → Bool
  | release i' l' | panic i' l' => i' == i && l' == l
  | _ => false

namespace FineMachine

section Held

variable [IdMap M] {env : Env M σ} {topo : Topology n} {f f' : FineMachine σ env.maxCores n} {i : Fin n} {l : MapLock}

theorem heldWithin_step {choice : FineChoice n} {k : Nat} (h : (f.mutex l).HeldWithin i k)
    (hends : choice.ends i l = false) (hstep : FineStep env topo f choice f') :
    choice.accesses i l ≤ k ∧ (f'.mutex l).HeldWithin i (k - choice.accesses i l) := by
  cases hstep with
  | machine | panic => exact ⟨Nat.zero_le k, h⟩
  | @acquire i' l' code mutex hcode hmutex =>
    have hl : l ≠ l' := by
      rintro rfl
      rw [h.not_acquire] at hmutex
      cases hmutex
    rw [setMutex_of_ne f mutex hl]
    exact ⟨Nat.zero_le k, h⟩
  | @access i' l' mutex hmutex =>
    by_cases hl : l = l'
    · subst hl
      obtain ⟨rfl, hk, h'⟩ := h.access hmutex
      rw [setMutex_self, FineChoice.accesses, if_pos ⟨rfl, rfl⟩]
      exact ⟨hk, h'⟩
    · rw [setMutex_of_ne f mutex hl, FineChoice.accesses, if_neg fun h' => hl h'.2.symm]
      exact ⟨Nat.zero_le k, h⟩
  | @release i' l' e k' answer mutex r hmode hrelease hr =>
    have hl : l ≠ l' := by
      rintro rfl
      rw [FineChoice.ends, h.release hrelease] at hends
      simp at hends
    rw [setMutex_of_ne f _ hl]
    exact ⟨Nat.zero_le k, h⟩

/-- A core whose next call is to use what is behind the lock goes no further until it has. -/
theorem cores_eq_of_pending {choice : FineChoice n} {code : Section l.Data l.Answer}
    (h : (f.machine.cores i).pending env.maxCores l = some code) (hends : choice.ends i l = false)
    (hstep : FineStep env topo f choice f') : f'.machine.cores i = f.machine.cores i := by
  obtain ⟨e, k, hmode, he⟩ := Core.pending_eq_some h
  cases hstep with
  | machine hlock hmachine =>
    rcases Machine.leavesInside_step hlock (Machine.step_cases hmachine) i with heq | ⟨hnot, -⟩
    · exact heq
    · exact absurd (hnot.symm.trans (Core.takesLock_of_pending h)) Bool.false_ne_true
  | acquire | access => rfl
  | @release i' l' e' k' answer mutex r hmode' hrelease hr =>
    have hi : i ≠ i' := by
      rintro rfl
      cases hmode.symm.trans hmode'
      have hl : l' ≠ l := fun hl => by simp [FineChoice.ends, hl] at hends
      rw [Eff.ofAnswer_eq_none he hl] at hr
      cases hr
    rw [Machine.answerCall, Machine.setCore_cores, Function.update_of_ne hi]
  | @panic i' l' e' k' hmode' hpanics hcode =>
    have hi : i ≠ i' := by
      rintro rfl
      cases hmode.symm.trans hmode'
      have hl : l' ≠ l := fun hl => by simp [FineChoice.ends, hl] at hends
      rw [Eff.code_unique he hl] at hcode
      cases hcode
    rw [Machine.failCall, Machine.setCore_cores, Function.update_of_ne hi]

/-- Core `i` is inside the lock, with at most `k` more accesses to make. -/
structure Inside (f : FineMachine σ env.maxCores n) (i : Fin n) (l : MapLock) (k : Nat) : Prop where
  held : (f.mutex l).HeldWithin i k
  pending : ∃ code, (f.machine.cores i).pending env.maxCores l = some code

theorem inside_acquire (hstep : FineStep env topo f (.acquire i l) f') : f'.Inside i l (3 * env.maxCores) := by
  cases hstep with
  | @acquire _ _ code mutex hcode hmutex =>
    obtain ⟨e, k, hmode, he⟩ := Core.pending_eq_some hcode
    refine ⟨?_, code, hcode⟩
    rw [setMutex_self]
    exact Mutex.heldWithin_acquire (Eff.code_within he) hmutex

theorem Inside.step {choice : FineChoice n} {k : Nat} (h : f.Inside i l k) (hends : choice.ends i l = false)
    (hstep : FineStep env topo f choice f') :
    choice.accesses i l ≤ k ∧ f'.Inside i l (k - choice.accesses i l) := by
  obtain ⟨hle, hheld⟩ := heldWithin_step h.held hends hstep
  obtain ⟨code, hcode⟩ := h.pending
  exact ⟨hle, hheld, code, by rw [cores_eq_of_pending hcode hends hstep]; exact hcode⟩

end Held

/-! ## What holds throughout a run -/

section Holders

variable [IdMap M] {env : Env M σ} {topo : Topology n} {f f' : FineMachine σ env.maxCores n} {i : Fin n} {l : MapLock}

/-- The cores follow their protocols, and whoever holds a lock has little left to do with it. -/
structure Served (env : Env M σ) (topo : Topology n) (f : FineMachine σ env.maxCores n) : Prop where
  commits : ∃ m, f.Commits m ∧ ∀ i, (m.cores i).Serving env (topo.mpidr i)
  short : ∀ l i rest, (f.mutex l).lock = .held i rest → rest.Within (3 * env.maxCores)

theorem Served.serving (h : Served env topo f) (i : Fin n) : (f.machine.cores i).Serving env (topo.mpidr i) := by
  obtain ⟨m, hm, hserving⟩ := h.commits
  rw [hm.machine]
  exact hserving i

theorem Served.step (h : Served env topo f) {choice : FineChoice n} (hstep : FineStep env topo f choice f') :
    Served env topo f' where
  commits := by
    obtain ⟨m, hm, hserving⟩ := h.commits
    obtain ⟨m', hrun, -, hm'⟩ := hm.step hstep
    exact ⟨m', hm', Machine.serving_of_run hserving hrun⟩
  short l j rest hheld := by
    cases hstep with
    | machine | panic => exact h.short l j rest hheld
    | @acquire i' l' code mutex hcode hmutex =>
      by_cases hl : l = l'
      · subst hl
        obtain ⟨e, k, -, he⟩ := Core.pending_eq_some hcode
        obtain ⟨-, rfl⟩ := Mutex.acquire_free hmutex
        rw [setMutex_self] at hheld
        cases hheld
        exact Eff.code_within he
      · rw [setMutex_of_ne f mutex hl] at hheld
        exact h.short l j rest hheld
    | @access i' l' mutex hmutex =>
      by_cases hl : l = l'
      · subst hl
        obtain ⟨write, next, hbefore, rfl⟩ := Mutex.access_held hmutex
        rw [setMutex_self] at hheld
        cases hheld
        exact ((h.short l _ _ hbefore).2 _).mono (Nat.sub_le _ 1)
      · rw [setMutex_of_ne f mutex hl] at hheld
        exact h.short l j rest hheld
    | @release i' l' e k answer mutex r hmode hrelease hr =>
      by_cases hl : l = l'
      · subst hl
        obtain ⟨-, rfl⟩ := Mutex.release_held hrelease
        rw [setMutex_self] at hheld
        split at hheld
        · cases hheld
          trivial
        · cases hheld
      · rw [setMutex_of_ne f _ hl] at hheld
        exact h.short l j rest hheld

/-- **Who holds a lock is inside it, or has panicked with it.** -/
theorem Served.holder (h : Served env topo f) {rest : Section l.Data l.Answer} (hheld : (f.mutex l).lock = .held i rest) :
    f.Inside i l (3 * env.maxCores) ∨ (f.machine.cores i).panics = true ∧ rest = .panic := by
  obtain ⟨m, hm, -⟩ := h.commits
  have hmaps := hm.maps l
  rw [Mutex.Commits, hheld] at hmaps
  rw [hm.machine]
  refine hmaps.imp_left fun hcode => ?_
  obtain ⟨code, hcode, -⟩ := hcode
  exact ⟨⟨rest, hheld, h.short l i rest hheld⟩, code, by rw [hm.machine]; exact hcode⟩

theorem Served.inside (h : Served env topo f) {rest : Section l.Data l.Answer} (hheld : (f.mutex l).lock = .held i rest)
    (hrest : rest ≠ .panic) : f.Inside i l (3 * env.maxCores) :=
  (h.holder hheld).resolve_right fun hpanicked => hrest hpanicked.2

omit [IdMap M] in
theorem Inside.not_panics {k : Nat} (h : f.Inside i l k) : ¬ (f.machine.cores i).panics = true := by
  obtain ⟨code, hcode⟩ := h.pending
  exact Core.not_panics_of_takesLock (Core.takesLock_of_pending hcode)

omit [IdMap M] in
theorem Inside.unique {l' : MapLock} {k : Nat} (h : f.Inside i l k) {code : Section l'.Data l'.Answer}
    (hcode : (f.machine.cores i).pending env.maxCores l' = some code) : l' = l := by
  obtain ⟨_, hpending⟩ := h.pending
  obtain ⟨e, _, hmode, he⟩ := Core.pending_eq_some hpending
  by_contra hne
  rw [Core.pending_eq hmode, Eff.code_unique he hne] at hcode
  cases hcode

end Holders

/-! ## Visits -/

end FineMachine

def FineChoice.stepsOf (i : Fin n) : FineChoice n → Nat
  | machine choice => choice.stepsOf i
  | acquire j _ | access j _ | release j _ | panic j _ => if j = i then 1 else 0

def FineChoice.enters (i : Fin n) : FineChoice n → Bool
  | machine choice => choice.enters i
  | _ => false

theorem Machine.stepsOf_of_takesLock [IdMap M] {env : Env M σ} {topo : Topology n} {m m' : Machine σ env.maxCores n}
    {i : Fin n} {choice : Choice n} (hlock : choice.takesLock m = false) (hi : (m.cores i).takesLock = true)
    (hstep : Step env topo m choice m') : choice.stepsOf i = 0 := by
  have hne : ∀ {j}, (m.cores j).takesLock = false → j ≠ i := fun hj heq => by
    rw [heq, hi] at hj
    cases hj
  cases hstep with
  | leave | call | fail => exact if_neg (hne hlock)
  | smcReturn hmode | smcCpuOn hmode | smcPowerDown hmode | smcOff hmode =>
    exact if_neg (hne (by rw [Core.takesLock, hmode]; rfl))
  | trap | wake | enterEl2 => rfl

namespace FineMachine

section Visits

variable [IdMap M] {env : Env M σ} {topo : Topology n} {f f' : FineMachine σ env.maxCores n} {i : Fin n} {k : Nat}

/-- Core `i` takes at most `k` more steps at EL2 before it leaves: `3 * maxCores + 2` for each call it has yet to make,
and what is left of the one it is inside. -/
inductive VisitWithin (f : FineMachine σ env.maxCores n) (i : Fin n) (k : Nat) : Prop
  | outside {s : Nat} (hout : ∀ l r, ¬ f.Inside i l r) (hs : (f.machine.cores i).VisitWithin s)
      (hk : s * (3 * env.maxCores + 2) ≤ k)
  | inside {l : MapLock} {r s : Nat} (hin : f.Inside i l r) (hs : (f.machine.cores i).VisitWithin (s + 1))
      (hk : s * (3 * env.maxCores + 2) + r + 1 ≤ k)

omit [IdMap M] in
theorem VisitWithin.frame (h : f.VisitWithin i k) (hcore : f'.machine.cores i = f.machine.cores i)
    (hlocks : ∀ l rest, (f'.mutex l).lock = .held i rest ↔ (f.mutex l).lock = .held i rest) : f'.VisitWithin i k := by
  have hinside : ∀ l r, f'.Inside i l r ↔ f.Inside i l r := fun l r => by
    constructor
    · rintro ⟨⟨rest, hheld, hwithin⟩, hpending⟩
      exact ⟨⟨rest, (hlocks l rest).1 hheld, hwithin⟩, hcore ▸ hpending⟩
    · rintro ⟨⟨rest, hheld, hwithin⟩, hpending⟩
      exact ⟨⟨rest, (hlocks l rest).2 hheld, hwithin⟩, hcore ▸ hpending⟩
  cases h with
  | outside hout hs hk => exact .outside (fun l r hin => hout l r ((hinside l r).1 hin)) (hcore ▸ hs) hk
  | inside hin hs hk => exact .inside ((hinside _ _).2 hin) (hcore ▸ hs) hk

omit [IdMap M] in
theorem held_setMutex {l : MapLock} {mutex : Mutex n l.Data l.Answer}
    (hbefore : ∀ rest, (f.mutex l).lock ≠ .held i rest) (hafter : ∀ rest, mutex.lock ≠ .held i rest) (l' : MapLock)
    (rest : Section l'.Data l'.Answer) :
    ((f.setMutex l mutex).mutex l').lock = .held i rest ↔ (f.mutex l').lock = .held i rest := by
  by_cases hl : l' = l
  · subst hl
    rw [setMutex_self]
    exact iff_of_false (hafter rest) (hbefore rest)
  · rw [setMutex_of_ne f mutex hl]

theorem visitWithin_machine (h : Served env topo f) (hv : f.VisitWithin i k) {choice : Choice n}
    {machine : Machine σ env.maxCores n} (henters : choice.enters i = false)
    (hlock : choice.takesLock f.machine = false) (hmachine : f.machine.step env topo choice = some machine) :
    choice.stepsOf i ≤ k ∧
      FineMachine.VisitWithin { f with machine := machine } i (k - choice.stepsOf i) := by
  have hstep := Machine.step_cases hmachine
  have hleaves := Machine.leavesInside_step hlock hstep i
  cases hv with
  | @outside s hout hs hk =>
    obtain ⟨hle, hs'⟩ := Machine.visitWithin_step h.serving hs henters hstep
    have hout' : ∀ l r, ¬ FineMachine.Inside { f with machine := machine } i l r := fun l r hin => by
      obtain ⟨rest, hheld, -⟩ := hin.held
      rcases h.holder hheld with hin' | ⟨hpanics, -⟩
      · exact hout l _ hin'
      · exact hin.not_panics (hleaves.panics hpanics)
    have hpaid : choice.stepsOf i + (s - choice.stepsOf i) * (3 * env.maxCores + 2) ≤ s * (3 * env.maxCores + 2) := by
      obtain ⟨d, rfl⟩ := Nat.exists_eq_add_of_le hle
      rw [Nat.add_sub_cancel_left, Nat.add_mul]
      exact Nat.add_le_add_right (Nat.le_mul_of_pos_right _ (Nat.succ_pos _)) _
    exact ⟨by omega, .outside hout' hs' (by omega)⟩
  | inside hin hs hk =>
    obtain ⟨code, hcode⟩ := hin.pending
    rw [Machine.stepsOf_of_takesLock hlock (Core.takesLock_of_pending hcode) hstep]
    have hsame := cores_eq_of_pending hcode rfl (.machine hlock hmachine)
    exact ⟨Nat.zero_le k, (VisitWithin.inside hin hs hk).frame hsame fun _ _ => .rfl⟩

theorem visitWithin_acquire {l : MapLock} {code : Section l.Data l.Answer} {mutex : Mutex n l.Data l.Answer}
    (topo : Topology n) (hv : f.VisitWithin i k) (hcode : (f.machine.cores i).pending env.maxCores l = some code)
    (hmutex : (f.mutex l).acquire i code = some mutex) : 0 < k ∧ (f.setMutex l mutex).VisitWithin i (k - 1) := by
  have hin := inside_acquire (.acquire hcode hmutex : FineStep env topo f (.acquire i l) _)
  cases hv with
  | inside hin' =>
    obtain ⟨rest, hheld, -⟩ := hin'.held
    cases hin'.unique hcode
    exact absurd hheld (Mutex.not_held_of_free (Mutex.acquire_free hmutex).1 rest)
  | @outside s hout hs hk =>
    obtain ⟨e, _, hmode, -⟩ := Core.pending_eq_some hcode
    have hpos : 0 < s := by
      rw [Core.VisitWithin, hmode] at hs
      exact Nat.lt_of_lt_of_le (Phase.stepsLeft_pos _) hs
    obtain ⟨s, rfl⟩ := Nat.exists_eq_succ_of_ne_zero (Nat.ne_of_gt hpos)
    rw [Nat.succ_mul] at hk
    exact ⟨by omega, .inside hin hs (by omega)⟩

theorem visitWithin_access {l : MapLock} {mutex : Mutex n l.Data l.Answer} (h : Served env topo f)
    (hv : f.VisitWithin i k) (hmutex : (f.mutex l).access i = some mutex) :
    0 < k ∧ (f.setMutex l mutex).VisitWithin i (k - 1) := by
  obtain ⟨write, next, hheld, -⟩ := Mutex.access_held hmutex
  have hin := h.inside hheld (by simp)
  cases hv with
  | outside hout => exact absurd hin (hout l _)
  | inside hin' hs hk =>
    obtain ⟨code, hcode⟩ := hin.pending
    cases hin'.unique hcode
    obtain ⟨hle, hin''⟩ := hin'.step rfl (.access hmutex : FineStep env topo f (.access i l) _)
    rw [FineChoice.accesses, if_pos ⟨rfl, rfl⟩] at hle hin''
    exact ⟨by omega, .inside hin'' hs (by omega)⟩

theorem visitWithin_release {l : MapLock} (h : Served env topo f) (hv : f.VisitWithin i k)
    (hstep : FineStep env topo f (.release i l) f') : 0 < k ∧ f'.VisitWithin i (k - 1) := by
  cases hstep with
  | @release _ _ e k' answer mutex r hmode hrelease hr =>
    obtain ⟨hheld, (hfree : mutex = _)⟩ := Mutex.release_held hrelease
    have hin := h.inside hheld (by simp)
    have hcore : (f.machine.answerCall i e k' r).cores i = (f.machine.cores i).answer e k' r := by
      rw [Machine.answerCall, Machine.setCore_cores, Function.update_self]
    cases hv with
    | outside hout => exact absurd hin (hout l _)
    | @inside l' r' s hin' hs hk =>
      have hs' : ((f.machine.cores i).answer e k' r).VisitWithin s := by
        rw [Core.VisitWithin, hmode] at hs
        exact Nat.le_of_lt_succ (Nat.lt_of_lt_of_le (Phase.stepsLeft_next ((h.serving i).allows hmode) r) hs)
      refine ⟨by omega, .outside (s := s) (fun l₁ r₁ hin₁ => ?_) (hcore ▸ hs') (by omega)⟩
      -- the core is inside no lock: not this one, which is free unless the core has panicked, nor another one
      obtain ⟨rest, hheld₁, -⟩ := hin₁.held
      dsimp only at hheld₁
      by_cases hl : l₁ = l
      · subst hl
        rw [setMutex_self] at hheld₁
        split at hheld₁
        · rename_i hpanics
          exact hin₁.not_panics (hcore ▸ hpanics)
        · exact Mutex.not_held_of_free (by rw [hfree]) rest hheld₁
      · rw [setMutex_of_ne f _ hl] at hheld₁
        rcases h.holder hheld₁ with hin₂ | ⟨hpanics, -⟩
        · obtain ⟨code, hcode⟩ := hin₂.pending
          exact hl (hin.unique hcode)
        · exact hin.not_panics hpanics

theorem visitWithin_panic {l : MapLock} (h : Served env topo f) (hv : f.VisitWithin i k)
    (hstep : FineStep env topo f (.panic i l) f') : 0 < k ∧ f'.VisitWithin i (k - 1) := by
  cases hstep with
  | @panic _ _ e k' hmode hpanics hcode =>
    obtain ⟨code, hcode⟩ := Option.isSome_iff_exists.1 hcode
    have hpending : (f.machine.cores i).pending env.maxCores l = some code :=
      (Core.pending_eq hmode l).trans hcode
    have hin := (h.holder (Mutex.panics_held hpanics)).resolve_right fun hpanicked =>
      Core.not_panics_of_takesLock (Core.takesLock_of_pending hpending) hpanicked.1
    have hmode' : ((f.machine.failCall i e).cores i).mode = .panicked capacityExceeded := by
      rw [Machine.failCall, Machine.setCore_cores, Function.update_self]
    have hpos : 0 < k := by
      cases hv with
      | inside _ _ hk => omega
      | outside hout => exact absurd hin (hout l _)
    refine ⟨hpos, .outside (s := 0) (fun l₁ r₁ hin₁ => ?_) ?_ (by omega)⟩
    · obtain ⟨code, hcode₁⟩ := hin₁.pending
      rw [Core.pending, hmode'] at hcode₁
      cases hcode₁
    · rw [Core.VisitWithin, hmode']
      trivial

/-- **A step of a core at EL2 is one less to take**, inside a lock and outside. -/
theorem visitWithin_step (h : Served env topo f) (hv : f.VisitWithin i k) {choice : FineChoice n}
    (henters : choice.enters i = false) (hstep : FineStep env topo f choice f') :
    choice.stepsOf i ≤ k ∧ f'.VisitWithin i (k - choice.stepsOf i) := by
  cases hstep with
  | machine hlock hmachine => exact visitWithin_machine h hv henters hlock hmachine
  | @acquire j l code mutex hcode hmutex =>
    by_cases hj : j = i
    · subst hj
      rw [FineChoice.stepsOf, if_pos rfl]
      exact visitWithin_acquire topo hv hcode hmutex
    · rw [FineChoice.stepsOf, if_neg hj]
      obtain ⟨hfree, rfl⟩ := Mutex.acquire_free hmutex
      exact ⟨Nat.zero_le k, hv.frame rfl
        (held_setMutex (Mutex.not_held_of_free hfree) (Mutex.not_held_of_held rfl hj))⟩
  | @access j l mutex hmutex =>
    by_cases hj : j = i
    · subst hj
      rw [FineChoice.stepsOf, if_pos rfl]
      exact visitWithin_access h hv hmutex
    · rw [FineChoice.stepsOf, if_neg hj]
      obtain ⟨write, next, hheld, rfl⟩ := Mutex.access_held hmutex
      exact ⟨Nat.zero_le k, hv.frame rfl
        (held_setMutex (Mutex.not_held_of_held hheld hj) (Mutex.not_held_of_held rfl hj))⟩
  | @release j l e k' answer mutex r hmode hrelease hr =>
    by_cases hj : j = i
    · subst hj
      rw [FineChoice.stepsOf, if_pos rfl]
      exact visitWithin_release h hv (.release hmode hrelease hr)
    · rw [FineChoice.stepsOf, if_neg hj]
      obtain ⟨hheld, (hfree : mutex = _)⟩ := Mutex.release_held hrelease
      refine ⟨Nat.zero_le k, hv.frame ?_ (held_setMutex (Mutex.not_held_of_held hheld hj) ?_)⟩
      · rw [Machine.answerCall, Machine.setCore_cores, Function.update_of_ne (Ne.symm hj)]
      · split
        · exact Mutex.not_held_of_held rfl hj
        · exact Mutex.not_held_of_free (by rw [hfree])
  | @panic j l e k' hmode hpanics hcode =>
    by_cases hj : j = i
    · subst hj
      rw [FineChoice.stepsOf, if_pos rfl]
      exact visitWithin_panic h hv (.panic hmode hpanics hcode)
    · rw [FineChoice.stepsOf, if_neg hj]
      refine ⟨Nat.zero_le k, hv.frame ?_ fun _ _ => .rfl⟩
      rw [Machine.failCall, Machine.setCore_cores, Function.update_of_ne (Ne.symm hj)]

/-! ## Waiting -/

end Visits

/-! ## A lock whose holder has panicked -/

section Stuck

variable [IdMap M] {env : Env M σ} {topo : Topology n} {f f' : FineMachine σ env.maxCores n} {j : Fin n} {l : MapLock}

structure Stuck (f : FineMachine σ env.maxCores n) (j : Fin n) (l : MapLock) : Prop where
  held : (f.mutex l).lock = .held j .panic
  panics : (f.machine.cores j).panics = true

theorem Stuck.step (h : f.Stuck j l) {choice : FineChoice n} (hstep : FineStep env topo f choice f') :
    f'.Stuck j l ∧ ∀ i, choice.ends i l = false := by
  cases hstep with
  | machine hlock hmachine =>
    exact ⟨⟨h.held, (Machine.leavesInside_step hlock (Machine.step_cases hmachine) j).panics h.panics⟩, fun _ => rfl⟩
  | @acquire i l' code mutex hcode hmutex =>
    have hl : l ≠ l' := by
      rintro rfl
      cases (Mutex.acquire_free hmutex).1.symm.trans h.held
    exact ⟨⟨by rw [setMutex_of_ne f mutex hl]; exact h.held, h.panics⟩, fun _ => rfl⟩
  | @access i l' mutex hmutex =>
    have hl : l ≠ l' := by
      rintro rfl
      obtain ⟨_, _, hheld, -⟩ := Mutex.access_held hmutex
      cases hheld.symm.trans h.held
    exact ⟨⟨by rw [setMutex_of_ne f mutex hl]; exact h.held, h.panics⟩, fun _ => rfl⟩
  | @release i l' e k answer mutex r hmode hrelease hr =>
    have hl : l ≠ l' := by
      rintro rfl
      cases (Mutex.release_held hrelease).1.symm.trans h.held
    have hi : j ≠ i := by
      rintro rfl
      exact Core.not_panics_of_ofAnswer hmode hr h.panics
    refine ⟨⟨?_, ?_⟩, fun i' => ?_⟩
    · dsimp only
      rw [setMutex_of_ne f _ hl]
      exact h.held
    · dsimp only
      rw [Machine.answerCall, Machine.setCore_cores, Function.update_of_ne hi]
      exact h.panics
    · simp [FineChoice.ends, Ne.symm hl]
  | @panic i l' e k hmode hpanics hcode =>
    have hi : j ≠ i := by
      rintro rfl
      obtain ⟨code, hcode⟩ := Option.isSome_iff_exists.1 hcode
      have hpending : (f.machine.cores j).pending env.maxCores l' = some code := (Core.pending_eq hmode l').trans hcode
      exact Core.not_panics_of_takesLock (Core.takesLock_of_pending hpending) h.panics
    have hl : l ≠ l' := by
      rintro rfl
      cases (Mutex.panics_held hpanics).symm.trans h.held
      exact hi rfl
    refine ⟨⟨h.held, ?_⟩, fun i' => ?_⟩
    · dsimp only
      rw [Machine.failCall, Machine.setCore_cores, Function.update_of_ne hi]
      exact h.panics
    · simp [FineChoice.ends, Ne.symm hl]

end Stuck

end FineMachine

/-! ## Results -/

end Ritm
