/-!
# Refine — objects that answer operations

An object in state `s` answers an operation and moves to its next state, or fails.  `run` gives it a list of operations
and returns its answers and its last state, `none` if one of them failed.

Rules: `Refines.run` (an object that matches its specification operation by operation cannot be told from it by any
list of operations), `run_progress` (an invariant under which no operation fails holds at the end),
`run_answers_of_invariant` (what an invariant says of each answer) and `run_answers` (what each answer says of the state
after it, and no later operation undoes, holds of the last state).
-/
namespace Lib
namespace Object

variable {S T A R : Type}

def run (step : S → A → Option (R × S)) : S → List A → List R × Option S
  | s, [] => ([], some s)
  | s, a :: as =>
    match step s a with
    | none => ([], none)
    | some (r, s') => (r :: (run step s' as).1, (run step s' as).2)

variable {step : S → A → Option (R × S)} {spec : T → A → Option (R × T)}

theorem run_cons_none {s : S} {a : A} (as : List A) (h : step s a = none) : run step s (a :: as) = ([], none) := by
  rw [run, h]

theorem run_cons_some {s s' : S} {a : A} {r : R} (as : List A) (h : step s a = some (r, s')) :
    run step s (a :: as) = (r :: (run step s' as).1, (run step s' as).2) := by
  rw [run, h]

/-- Related states answer alike, fail alike and stay related. -/
def Refines (Rel : S → T → Prop) (step : S → A → Option (R × S)) (spec : T → A → Option (R × T)) : Prop :=
  ∀ ⦃s : S⦄ ⦃t : T⦄, Rel s t → ∀ a, Option.Rel (fun x y => x.1 = y.1 ∧ Rel x.2 y.2) (step s a) (spec t a)

/-- **Refinement of each operation is refinement of every run.** -/
theorem Refines.run {Rel : S → T → Prop} (h : Refines Rel step spec) : ∀ (as : List A) {s : S} {t : T}, Rel s t →
    (run step s as).1 = (run spec t as).1 ∧
      ((run step s as).2 = none ∧ (run spec t as).2 = none ∨
        ∃ s' t', (run step s as).2 = some s' ∧ (run spec t as).2 = some t' ∧ Rel s' t')
  | [], s, t, hst => ⟨rfl, .inr ⟨s, t, rfl, rfl, hst⟩⟩
  | a :: as, s, t, hst => by
    have hstep := h hst a
    cases hs : step s a with
    | none =>
      rw [hs] at hstep
      cases ht : spec t a with
      | none =>
        rw [run_cons_none as hs, run_cons_none as ht]
        exact ⟨rfl, .inl ⟨rfl, rfl⟩⟩
      | some y =>
        rw [ht] at hstep
        cases hstep
    | some x =>
      rw [hs] at hstep
      cases ht : spec t a with
      | none =>
        rw [ht] at hstep
        cases hstep
      | some y =>
        rw [ht] at hstep
        cases hstep with
        | some hxy =>
          obtain ⟨hanswers, hlast⟩ := Refines.run h as hxy.2
          rw [run_cons_some as hs, run_cons_some as ht]
          exact ⟨List.cons_eq_cons.2 ⟨hxy.1, hanswers⟩, hlast⟩

/-- **No operation fails** under an invariant that enables the next one and is kept by it. -/
theorem run_progress {I : S → Prop} {C : A → Prop}
    (hstep : ∀ s a, I s → C a → ∃ r s', step s a = some (r, s') ∧ I s') :
    ∀ (as : List A) {s : S}, I s → (∀ a ∈ as, C a) → ∃ rs s', run step s as = (rs, some s') ∧ I s'
  | [], s, hs, _ => ⟨[], s, rfl, hs⟩
  | a :: as, s, hs, hC => by
    obtain ⟨r, s₁, ha, hs₁⟩ := hstep s a hs (hC a List.mem_cons_self)
    obtain ⟨rs, s', has, hs'⟩ := run_progress hstep as hs₁ fun b hb => hC b (List.mem_cons_of_mem a hb)
    refine ⟨r :: rs, s', ?_, hs'⟩
    rw [run_cons_some as ha, has]

theorem run_keeps {J : S → Prop} (hkeep : ∀ s a r s', J s → step s a = some (r, s') → J s') :
    ∀ (as : List A) {s s' : S}, J s → (run step s as).2 = some s' → J s'
  | [], _, _, hs, h => Option.some.inj h ▸ hs
  | a :: as, s, s', hs, h => by
    cases ha : step s a with
    | none =>
      rw [run_cons_none as ha] at h
      cases h
    | some x =>
      rw [run_cons_some as ha] at h
      exact run_keeps hkeep as (hkeep s a x.1 x.2 hs ha) h

theorem run_answers {J : R → S → Prop} (hans : ∀ s a r s', step s a = some (r, s') → J r s')
    (hkeep : ∀ q s a r s', J q s → step s a = some (r, s') → J q s') :
    ∀ (as : List A) {s s' : S}, (run step s as).2 = some s' → ∀ q ∈ (run step s as).1, J q s'
  | [], _, _, _, q, hq => by cases hq
  | a :: as, s, s', h, q, hq => by
    cases ha : step s a with
    | none =>
      rw [run_cons_none as ha] at h
      cases h
    | some x =>
      rw [run_cons_some as ha] at h hq
      rcases List.mem_cons.1 hq with rfl | hq
      · exact run_keeps (hkeep x.1) as (hans s a x.1 x.2 ha) h
      · exact run_answers hans hkeep as h q hq

theorem run_answers_of_invariant {I : S → Prop} {P : R → Prop}
    (hstep : ∀ s a r s', I s → step s a = some (r, s') → I s' ∧ P r) :
    ∀ (as : List A) {s : S}, I s → ∀ r ∈ (run step s as).1, P r
  | [], _, _, r, hr => by cases hr
  | a :: as, s, hs, r, hr => by
    cases ha : step s a with
    | none =>
      rw [run_cons_none as ha] at hr
      cases hr
    | some x =>
      obtain ⟨hs', hx⟩ := hstep s a x.1 x.2 hs ha
      rw [run_cons_some as ha] at hr
      rcases List.mem_cons.1 hr with rfl | hr
      · exact hx
      · exact run_answers_of_invariant hstep as hs' r hr

end Object
end Lib
