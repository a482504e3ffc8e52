/-!
# Prog — code as a tree of calls

`Prog E R α` is code that computes an `α` and, on the way, makes calls `e : E` on something outside it (other
processors, firmware, devices), each answered by a value of `R e`.  Between two calls the code is a pure function, so
the calls are the points where other code may run in between.

Two readings of a tree:
- `exec`: the code runs to its end with every call answered by one handler, and returns its log of calls;
- `Obeys`: whatever the answers are, the calls follow a protocol, whose phase says what has been called so far.
  `obeys_bind` is the sequencing rule, `Obeys.mono` the rule of consequence.
-/
namespace Lib

inductive Prog (E : Type) (R : E → Type) (α : Type) where
  | ret (a : α) : Prog E R α
  | step (e : E) (k : R e → Prog E R α) : Prog E R α

namespace Prog

variable {E : Type} {R : E → Type} {α β : Type}

def bind : Prog E R α → (α → Prog E R β) → Prog E R β
  | .ret a, f => f a
  | .step e k, f => .step e (fun r => (k r).bind f)

instance : Monad (Prog E R) where
  pure := .ret
  bind := bind

def call (e : E) : Prog E R (R e) := .step e .ret

@[simp] theorem pure_eq (a : α) : (pure a : Prog E R α) = .ret a := rfl

@[simp] theorem ret_bind (a : α) (f : α → Prog E R β) : (Prog.ret a >>= f) = f a := rfl

@[simp] theorem step_bind (e : E) (k : R e → Prog E R α) (f : α → Prog E R β) :
    (Prog.step e k >>= f) = .step e (fun r => k r >>= f) := rfl

@[simp] theorem call_bind (e : E) (f : R e → Prog E R β) : (call e >>= f) = .step e f := rfl

theorem bind_assoc {γ : Type} (f : α → Prog E R β) (g : β → Prog E R γ) : ∀ p : Prog E R α,
    (p >>= f >>= g) = p >>= fun a => f a >>= g
  | .ret _ => rfl
  | .step e k => by
    simp only [step_bind]
    exact congrArg (Prog.step e) (funext fun r => bind_assoc f g (k r))

/-! ## Protocols -/

/-- A protocol: which calls a phase allows, and the phase after a call and its answer. -/
structure Protocol (E : Type) (R : E → Type) (Ph : Type) where
  allow : Ph → E → Prop
  next : Ph → (e : E) → R e → Ph

variable {Ph : Type} {P : Protocol E R Ph}

/-- **Every call of the code is allowed**, from phase `ph` on and under every answer, and `Q` holds of the phase and the
result at the end. -/
def Obeys (P : Protocol E R Ph) (Q : Ph → α → Prop) : Ph → Prog E R α → Prop
  | ph, .ret a => Q ph a
  | ph, .step e k => P.allow ph e ∧ ∀ r, Obeys P Q (P.next ph e r) (k r)

@[simp] theorem obeys_ret (Q : Ph → α → Prop) (ph : Ph) (a : α) : Obeys P Q ph (.ret a) ↔ Q ph a := Iff.rfl

@[simp] theorem obeys_step (Q : Ph → α → Prop) (ph : Ph) (e : E) (k : R e → Prog E R α) :
    Obeys P Q ph (.step e k) ↔ P.allow ph e ∧ ∀ r, Obeys P Q (P.next ph e r) (k r) := Iff.rfl

theorem Obeys.mono {Q Q' : Ph → α → Prop} (hQ : ∀ ph a, Q ph a → Q' ph a) :
    ∀ (p : Prog E R α) (ph : Ph), Obeys P Q ph p → Obeys P Q' ph p
  | .ret a, ph, h => hQ ph a h
  | .step _ k, _, h => ⟨h.1, fun r => Obeys.mono hQ (k r) _ (h.2 r)⟩

/-- **Sequencing**: the first part obeys the protocol up to where the second takes over. -/
theorem obeys_bind (Q : Ph → β → Prop) (f : α → Prog E R β) : ∀ (p : Prog E R α) (ph : Ph),
    Obeys P Q ph (p >>= f) ↔ Obeys P (fun ph' a => Obeys P Q ph' (f a)) ph p
  | .ret _, _ => Iff.rfl
  | .step e k, ph => by
    rw [step_bind, obeys_step, obeys_step]
    exact and_congr_right fun _ => forall_congr' fun r => obeys_bind Q f (k r) (P.next ph e r)

def calls (A : E → Prop) : Protocol E R Unit where
  allow _ e := A e
  next _ _ _ := ()

/-! ## Runs against a handler -/

abbrev Handler (E : Type) (R : E → Type) (S : Type) := S → (e : E) → Option (R e × S)

/-- The code run to its end: its result, the last state and its calls with their answers, in order. -/
def exec {S : Type} (h : Handler E R S) : S → Prog E R α → Option (α × S × List (Σ e, R e))
  | s, .ret a => some (a, s, [])
  | s, .step e k =>
    match h s e with
    | none => none
    | some (r, s') => (exec h s' (k r)).map (fun x => (x.1, x.2.1, ⟨e, r⟩ :: x.2.2))

variable {S : Type} {h : Handler E R S}

@[simp] theorem exec_ret (s : S) (a : α) : exec h s (.ret a : Prog E R α) = some (a, s, []) := rfl

theorem exec_step {s s' : S} {e : E} {r : R e} (k : R e → Prog E R α) (he : h s e = some (r, s')) :
    exec h s (.step e k) = (exec h s' (k r)).map (fun x => (x.1, x.2.1, ⟨e, r⟩ :: x.2.2)) := by
  rw [exec, he]

theorem exec_step_none {s : S} {e : E} (k : R e → Prog E R α) (he : h s e = none) : exec h s (.step e k) = none := by
  rw [exec, he]

theorem exec_bind (f : α → Prog E R β) : ∀ {p : Prog E R α} {s s' : S} {a : α} {log : List (Σ e, R e)},
    exec h s p = some (a, s', log) →
    exec h s (p >>= f) = (exec h s' (f a)).map (fun y => (y.1, y.2.1, log ++ y.2.2))
  | .ret a, s, _, _, _, hp => by
    cases hp
    rw [ret_bind]
    exact Option.map_id.symm ▸ rfl
  | .step e k, s, _, _, _, hp => by
    rw [exec] at hp
    split at hp
    · cases hp
    rename_i r s₁ he
    obtain ⟨⟨a, s', log⟩, hk, heq⟩ := Option.map_eq_some_iff.1 hp
    cases heq
    rw [step_bind, exec_step _ he, exec_bind f hk, Option.map_map]
    rfl

theorem exec_bind_none (f : α → Prog E R β) : ∀ {p : Prog E R α} {s : S}, exec h s p = none → exec h s (p >>= f) = none
  | .step e k, s, hp => by
    rw [step_bind, exec]
    rw [exec] at hp
    split at hp
    · rfl
    · simp only [exec_bind_none f (Option.map_eq_none_iff.1 hp), Option.map_none]

def Replays (h : Handler E R S) : S → List (Σ e, R e) → S → Prop
  | s, [], s' => s' = s
  | s, c :: log, s' => ∃ s₁, h s c.1 = some (c.2, s₁) ∧ Replays h s₁ log s'

theorem replays_append {s₁ s₂ : S} {log' : List (Σ e, R e)} (h' : Replays h s₁ log' s₂) :
    ∀ {log : List (Σ e, R e)} {s : S}, Replays h s log s₁ → Replays h s (log ++ log') s₂
  | [], s, hlog => by
    cases hlog
    exact h'
  | _ :: _, s, ⟨t, ht, hlog⟩ => ⟨t, ht, replays_append h' hlog⟩

theorem Obeys.of_exec {Q : Ph → α → Prop} : ∀ {p : Prog E R α} {ph : Ph} {s s' : S} {a : α} {log : List (Σ e, R e)},
    Obeys P Q ph p → exec h s p = some (a, s', log) → ∃ ph', Q ph' a
  | .ret _, ph, _, _, _, _, hp, he => by
    cases he
    exact ⟨ph, hp⟩
  | .step e k, _, s, _, _, _, hp, he => by
    rw [exec] at he
    split at he
    · cases he
    rename_i r s₁ _
    obtain ⟨⟨a, s', log⟩, hk, heq⟩ := Option.map_eq_some_iff.1 he
    cases heq
    exact Obeys.of_exec (hp.2 r) hk

end Prog
end Lib
