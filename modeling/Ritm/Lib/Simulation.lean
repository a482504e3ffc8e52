import Ritm.Lib.Reach
import Mathlib.Data.List.Forall2
/-!
# Simulation — what is seen of a run

A system takes labelled steps (`Lib.run`), and of each step something is seen from outside, or nothing.  `trace` is what
is seen of a run.  `simulation` is the rule of refinement: if one step of a system is matched by some steps of its
specification, with the same things seen, then so is every run, and no run shows what no run of the specification
shows.  `lockstep` is the rule for two runs of related labels, `run_flatMap` the one for steps that stand for known steps
of the specification.
-/
namespace Lib

variable {S T A B O : Type}

def trace (step : S → A → Option S) (see : S → A → List O) : S → List A → List O
  | _, [] => []
  | s, a :: as =>
    match step s a with
    | none => []
    | some s' => see s a ++ trace step see s' as

section Rules

variable {step : S → A → Option S} {see : S → A → List O} {s s' s'' : S}

theorem trace_cons {a : A} (as : List A) (h : step s a = some s') :
    trace step see s (a :: as) = see s a ++ trace step see s' as := by
  rw [trace, h]

theorem trace_one {a : A} (h : step s a = some s') : trace step see s [a] = see s a := by
  rw [trace_cons [] h]
  exact List.append_nil (see s a)

theorem run_cons_of_step {a : A} (as : List A) (h : step s a = some s') : run step s (a :: as) = run step s' as := by
  rw [run, h, Option.bind_some]

theorem run_append : ∀ {as : List A} (bs : List A) {s : S}, run step s as = some s' →
    run step s (as ++ bs) = run step s' bs
  | [], _, _, h => by
    cases h
    rfl
  | a :: as, bs, s, h => by
    obtain ⟨t, ht, h'⟩ := run_cons h
    rw [List.cons_append, run_cons_of_step _ ht, run_append bs h']

theorem run_split : ∀ {as bs : List A} {s : S}, run step s (as ++ bs) = some s'' →
    ∃ s', run step s as = some s' ∧ run step s' bs = some s''
  | [], _, s, h => ⟨s, rfl, h⟩
  | a :: as, bs, s, h => by
    obtain ⟨t, ht, h'⟩ := run_cons h
    obtain ⟨s', hs', h''⟩ := run_split h'
    exact ⟨s', (run_cons_of_step as ht).trans hs', h''⟩

theorem trace_append : ∀ {as : List A} (bs : List A) {s : S}, run step s as = some s' →
    trace step see s (as ++ bs) = trace step see s as ++ trace step see s' bs
  | [], _, _, h => by
    cases h
    rfl
  | a :: as, bs, s, h => by
    obtain ⟨t, ht, h'⟩ := run_cons h
    rw [List.cons_append, trace_cons _ ht, trace_cons _ ht, trace_append bs h', List.append_assoc]

end Rules

/-- The specification can go from `t` to a state in `P` so that exactly `seen` is seen on the way. -/
def Moves (spec : T → B → Option T) (see : T → B → List O) (t : T) (seen : List O) (P : T → Prop) : Prop :=
  ∃ bs t', run spec t bs = some t' ∧ trace spec see t bs = seen ∧ P t'

namespace Moves

variable {spec : T → B → Option T} {see : T → B → List O} {t t' : T} {P : T → Prop}

theorem stay (h : P t) : Moves spec see t [] P := ⟨[], t, rfl, rfl, h⟩

theorem step {b : B} {seen : List O} (hstep : spec t b = some t') (h : Moves spec see t' seen P) :
    Moves spec see t (see t b ++ seen) P := by
  obtain ⟨bs, t'', hrun, htrace, hP⟩ := h
  refine ⟨b :: bs, t'', ?_, ?_, hP⟩
  · rw [run_cons_of_step _ hstep, hrun]
  · rw [trace_cons _ hstep, htrace]

theorem one {b : B} {seen : List O} (hstep : spec t b = some t') (hsee : see t b = seen) (h : P t') :
    Moves spec see t seen P :=
  ⟨[b], t', run_cons_of_step [] hstep, (trace_one hstep).trans hsee, h⟩

theorem silent {b : B} {seen : List O} (hstep : spec t b = some t') (hsee : see t b = [])
    (h : Moves spec see t' seen P) : Moves spec see t seen P := by
  have := step hstep h
  rwa [hsee, List.nil_append] at this

end Moves

/-- **Simulation of each step is simulation of every run.** -/
theorem simulation {step : S → A → Option S} {see : S → A → List O} {spec : T → B → Option T}
    {seeSpec : T → B → List O} {C : S → A → Prop} {R : S → T → Prop}
    (hstep : ∀ s a s' t, R s t → C s a → step s a = some s' → Moves spec seeSpec t (see s a) (R s')) :
    ∀ (as : List A) (s s' : S) (t : T), R s t → Meets step C s as → run step s as = some s' →
      Moves spec seeSpec t (trace step see s as) (R s')
  | [], s, s', t, hR, _, hrun => by
    cases hrun
    exact .stay hR
  | a :: as, s, s', t, hR, hC, hrun => by
    obtain ⟨s₁, hs₁, hrun'⟩ := run_cons hrun
    obtain ⟨bs, t₁, hbs, hseen, hR₁⟩ := hstep s a s₁ t hR hC.1 hs₁
    obtain ⟨cs, t', hcs, hseen', hR'⟩ := simulation hstep as s₁ s' t₁ hR₁ (hC.2 s₁ hs₁) hrun'
    refine ⟨bs ++ cs, t', ?_, ?_, hR'⟩
    · rw [run_append cs hbs, hcs]
    · rw [trace_append cs hbs, trace_cons as hs₁, hseen, hseen']

/-- **Two systems in lockstep**: runs whose labels are related step by step end in related states, and show the same. -/
theorem lockstep {step : S → A → Option S} {see : S → A → List O} {spec : T → B → Option T}
    {seeSpec : T → B → List O} {C : S → A → Prop} {Q : A → B → Prop} {R : S → T → Prop}
    (hstep : ∀ s a s' t b, R s t → Q a b → C s a → step s a = some s' →
      ∃ t', spec t b = some t' ∧ seeSpec t b = see s a ∧ R s' t') :
    ∀ {as : List A} {bs : List B}, List.Forall₂ Q as bs → ∀ {s s' : S} {t : T}, R s t → Meets step C s as →
      run step s as = some s' →
      ∃ t', run spec t bs = some t' ∧ trace spec seeSpec t bs = trace step see s as ∧ R s' t'
  | [], [], .nil, s, s', t, hR, _, hrun => by
    cases hrun
    exact ⟨t, rfl, rfl, hR⟩
  | a :: as, b :: bs, .cons hab h, s, s', t, hR, hC, hrun => by
    obtain ⟨s₁, hs₁, hrun'⟩ := run_cons hrun
    obtain ⟨t₁, ht₁, hsee, hR₁⟩ := hstep s a s₁ t b hR hab hC.1 hs₁
    obtain ⟨t', hbs, htrace, hR'⟩ := lockstep hstep h hR₁ (hC.2 s₁ hs₁) hrun'
    refine ⟨t', ?_, ?_, hR'⟩
    · rw [run_cons_of_step _ ht₁, hbs]
    · rw [trace_cons _ ht₁, trace_cons _ hs₁, hsee, htrace]

/-- **Each step stands for some steps of the specification**, named by `g`. -/
theorem run_flatMap {step : S → A → Option S} {spec : T → B → Option T} {C : S → A → Prop} {R : S → T → Prop}
    {g : A → List B}
    (hstep : ∀ s a s' t, R s t → C s a → step s a = some s' → ∃ t', run spec t (g a) = some t' ∧ R s' t') :
    ∀ (as : List A) {s s' : S} {t : T}, R s t → Meets step C s as → run step s as = some s' →
      ∃ t', run spec t (as.flatMap g) = some t' ∧ R s' t'
  | [], s, s', t, hR, _, hrun => by
    cases hrun
    exact ⟨t, rfl, hR⟩
  | a :: as, s, s', t, hR, hC, hrun => by
    obtain ⟨s₁, hs₁, hrun'⟩ := run_cons hrun
    obtain ⟨t₁, ht₁, hR₁⟩ := hstep s a s₁ t hR hC.1 hs₁
    rw [List.flatMap_cons, run_append _ ht₁]
    exact run_flatMap hstep as hR₁ (hC.2 s₁ hs₁) hrun'

theorem filter_eq_flatMap (keep : A → Bool) : ∀ as : List A, as.filter keep = as.flatMap fun a => if keep a then [a] else []
  | [] => rfl
  | a :: as => by
    rw [List.filter_cons, List.flatMap_cons, filter_eq_flatMap keep as]
    split <;> rfl

/-- **Steps that `R` does not notice can be left out**: the run without them ends in a related state. -/
theorem run_filter {step : S → A → Option S} {C : S → A → Prop} {R : S → S → Prop} {keep : A → Bool}
    (hkeep : ∀ s a s' t, R s t → C s a → keep a = true → step s a = some s' → ∃ t', step t a = some t' ∧ R s' t')
    (hdrop : ∀ s a s' t, R s t → C s a → keep a = false → step s a = some s' → R s' t) (as : List A) {s s' t : S}
    (hR : R s t) (hC : Meets step C s as) (hrun : run step s as = some s') :
    ∃ t', run step t (as.filter keep) = some t' ∧ R s' t' := by
  rw [filter_eq_flatMap]
  refine run_flatMap (fun s a s' t hR hC h => ?_) as hR hC hrun
  cases ha : keep a with
  | true =>
    obtain ⟨t', ht', hR'⟩ := hkeep s a s' t hR hC ha h
    exact ⟨t', run_cons_of_step [] ht', hR'⟩
  | false => exact ⟨t, rfl, hdrop s a s' t hR hC ha h⟩

end Lib
