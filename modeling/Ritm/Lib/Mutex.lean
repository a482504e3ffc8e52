/-!
# Mutex — critical sections under a spin lock

Data behind a lock.  What a thread does while it holds the lock is a `Section`, which accesses the data one step at a
time; between two accesses the other threads take steps of their own, but none that is inside.  `Section.run` is the
section in one go.  `Commits` is the invariant that lets the steps be taken for one: the data as the last section left it
is known, and what the holder has yet to do to the data as it is now is the whole of its section on the data as it was.
A section may panic; its lock is then never released.
-/
namespace Lib

variable {D R Q : Type} {n : Nat}

inductive Section (D R : Type) where
  | done (answer : R)
  | access (write : D → D) (next : D → Section D R)
  | panic

namespace Section

def run : Section D R → D → Option (R × D)
  | done answer, d => some (answer, d)
  | access write next, d => (next d).run (write d)
  | panic, _ => none

def bind : Section D R → (R → Section D Q) → Section D Q
  | done answer, f => f answer
  | access write next, f => access write fun d => (next d).bind f
  | panic, _ => panic

theorem run_bind (f : R → Section D Q) : ∀ (code : Section D R) (d : D),
    (code.bind f).run d = (code.run d).bind fun r => (f r.1).run r.2
  | done _, _ => rfl
  | access write next, d => run_bind f (next d) (write d)
  | panic, _ => rfl

def Within : Section D R → (k : Nat) → Prop
  | done _, _ | panic, _ => True
  | access _ next, k => 0 < k ∧ ∀ d, (next d).Within (k - 1)

theorem Within.mono : ∀ {code : Section D R} {k k' : Nat}, code.Within k → k ≤ k' → code.Within k'
  | done _, _, _, _, _ | panic, _, _, _, _ => trivial
  | access _ _, _, _, h, hk => ⟨Nat.lt_of_lt_of_le h.1 hk, fun d => (h.2 d).mono (Nat.sub_le_sub_right hk 1)⟩

theorem Within.bind {f : R → Section D Q} {k' : Nat} (hf : ∀ r, (f r).Within k') :
    ∀ {code : Section D R} {k : Nat}, code.Within k → (code.bind f).Within (k + k')
  | done r, k, _ => (hf r).mono (Nat.le_add_left k' k)
  | panic, _, _ => trivial
  | access _ _, k, h => by
    refine ⟨Nat.lt_of_lt_of_le h.1 (Nat.le_add_right k k'), fun d => ?_⟩
    rw [Nat.sub_add_comm h.1]
    exact (h.2 d).bind hf

end Section

inductive Lock (n : Nat) (D R : Type) where
  | free
  | held (holder : Fin n) (rest : Section D R)

structure Mutex (n : Nat) (D R : Type) where
  data : D
  lock : Lock n D R

namespace Mutex

def acquire (m : Mutex n D R) (i : Fin n) (code : Section D R) : Option (Mutex n D R) :=
  match m.lock with
  | .free => some { m with lock := .held i code }
  | .held .. => none

def access (m : Mutex n D R) (i : Fin n) : Option (Mutex n D R) :=
  match m.lock with
  | .held holder (.access write next) => if holder = i then some ⟨write m.data, .held i (next m.data)⟩ else none
  | _ => none

def release (m : Mutex n D R) (i : Fin n) : Option (R × Mutex n D R) :=
  match m.lock with
  | .held holder (.done answer) => if holder = i then some (answer, { m with lock := .free }) else none
  | _ => none

def keep (m : Mutex n D R) (i : Fin n) : Mutex n D R := { m with lock := .held i .panic }

def panics (m : Mutex n D R) (i : Fin n) : Bool :=
  match m.lock with
  | .held holder .panic => holder == i
  | _ => false

theorem acquire_free {m m' : Mutex n D R} {i : Fin n} {code : Section D R} (h : m.acquire i code = some m') :
    m.lock = .free ∧ m' = { m with lock := .held i code } := by
  unfold acquire at h
  split at h
  · rename_i hfree
    cases h
    exact ⟨hfree, rfl⟩
  · cases h

theorem access_held {m m' : Mutex n D R} {i : Fin n} (h : m.access i = some m') :
    ∃ write next, m.lock = .held i (.access write next) ∧ m' = ⟨write m.data, .held i (next m.data)⟩ := by
  unfold access at h
  split at h
  · rename_i holder write next hheld
    split at h
    · rename_i hholder
      cases h
      subst hholder
      exact ⟨write, next, hheld, rfl⟩
    · cases h
  · cases h

theorem release_held {m : Mutex n D R} {i : Fin n} {r : R × Mutex n D R} (h : m.release i = some r) :
    m.lock = .held i (.done r.1) ∧ r.2 = { m with lock := .free } := by
  unfold release at h
  split at h
  · rename_i holder answer hheld
    split at h
    · rename_i hholder
      cases h
      subst hholder
      exact ⟨hheld, rfl⟩
    · cases h
  · cases h

theorem panics_held {m : Mutex n D R} {i : Fin n} (h : m.panics i = true) : m.lock = .held i .panic := by
  unfold panics at h
  split at h
  · rename_i holder hheld
    rw [hheld, beq_iff_eq.1 h]
  · cases h

theorem not_held_of_free {m : Mutex n D R} {i : Fin n} (h : m.lock = .free) (rest : Section D R) :
    m.lock ≠ .held i rest := by
  rw [h]
  simp

theorem not_held_of_held {m : Mutex n D R} {i j : Fin n} {rest : Section D R} (h : m.lock = .held j rest) (hj : j ≠ i)
    (rest' : Section D R) : m.lock ≠ .held i rest' := by
  rw [h]
  simp [hj]

/-- The last section that was finished left `d`.  `whole` says which section a thread is to run, and `stuck` which
threads have panicked. -/
def Commits (m : Mutex n D R) (d : D) (whole : Fin n → Option (Section D R)) (stuck : Fin n → Prop) : Prop :=
  match m.lock with
  | .free => m.data = d
  | .held holder rest => (∃ code, whole holder = some code ∧ rest.run m.data = code.run d) ∨ stuck holder ∧ rest = .panic

section Rules

variable {m m' : Mutex n D R} {d : D} {whole whole' : Fin n → Option (Section D R)} {stuck stuck' : Fin n → Prop}
  {i : Fin n}

theorem Commits.congr (h : m.Commits d whole stuck) (hwhole : ∀ j code, whole j = some code → whole' j = some code)
    (hstuck : ∀ j, stuck j → stuck' j) : m.Commits d whole' stuck' := by
  unfold Commits at h ⊢
  split
  · rename_i hfree
    rwa [hfree] at h
  · rename_i holder rest hheld
    rw [hheld] at h
    rcases h with ⟨code, hcode, hrun⟩ | ⟨hholder, hrest⟩
    · exact .inl ⟨code, hwhole holder code hcode, hrun⟩
    · exact .inr ⟨hstuck holder hholder, hrest⟩

theorem Commits.acquire (h : m.Commits d whole stuck) {code : Section D R} (hcode : whole i = some code)
    (hm : m.acquire i code = some m') : m'.Commits d whole stuck := by
  obtain ⟨hfree, rfl⟩ := acquire_free hm
  rw [Commits, hfree] at h
  exact .inl ⟨code, hcode, congrArg code.run h⟩

theorem Commits.access (h : m.Commits d whole stuck) (hm : m.access i = some m') : m'.Commits d whole stuck := by
  obtain ⟨write, next, hheld, rfl⟩ := access_held hm
  rw [Commits, hheld] at h
  exact .inl (h.resolve_right nofun)

/-- **A section takes effect when its lock is released**, and then all of it. -/
theorem Commits.release (h : m.Commits d whole stuck) {answer : R} (hm : m.release i = some (answer, m')) :
    ∃ code, whole i = some code ∧ code.run d = some (answer, m'.data) ∧ m'.lock = .free := by
  obtain ⟨hheld, rfl⟩ := release_held hm
  rw [Commits, hheld] at h
  obtain ⟨code, hcode, hrun⟩ := h.resolve_right nofun
  exact ⟨code, hcode, hrun.symm, rfl⟩

theorem Commits.keep (hi : stuck i) : (m.keep i).Commits d whole stuck := .inr ⟨hi, rfl⟩

theorem Commits.of_free (h : m.lock = .free) : m.Commits m.data whole stuck := by
  rw [Commits, h]

theorem Commits.panic (h : m.Commits d whole stuck) (hm : m.panics i = true) {code : Section D R}
    (hcode : whole i = some code) (hnot : ¬ stuck i) (hi : stuck' i) : code.run d = none ∧ m.Commits d whole' stuck' := by
  have hheld := panics_held hm
  rw [Commits, hheld] at h
  obtain ⟨code', hcode', hrun⟩ := h.resolve_right fun h' => hnot h'.1
  rw [hcode] at hcode'
  cases hcode'
  refine ⟨hrun.symm, ?_⟩
  rw [Commits, hheld]
  exact .inr ⟨hi, rfl⟩

end Rules

/-! ## How long a lock is held -/

def HeldWithin (m : Mutex n D R) (i : Fin n) (k : Nat) : Prop :=
  ∃ rest, m.lock = .held i rest ∧ rest.Within k

section Held

variable {m m' : Mutex n D R} {i j : Fin n} {k : Nat}

theorem heldWithin_acquire {code : Section D R} (hcode : code.Within k) (hm : m.acquire i code = some m') :
    m'.HeldWithin i k := by
  obtain ⟨-, rfl⟩ := acquire_free hm
  exact ⟨code, rfl, hcode⟩

theorem HeldWithin.not_acquire (h : m.HeldWithin i k) (code : Section D R) : m.acquire j code = none := by
  obtain ⟨rest, hrest, -⟩ := h
  rw [acquire, hrest]

theorem HeldWithin.access (h : m.HeldWithin i k) (hm : m.access j = some m') :
    j = i ∧ 0 < k ∧ m'.HeldWithin i (k - 1) := by
  obtain ⟨rest, hrest, hwithin⟩ := h
  obtain ⟨write, next, hheld, rfl⟩ := access_held hm
  cases hrest.symm.trans hheld
  exact ⟨rfl, hwithin.1, next m.data, rfl, hwithin.2 m.data⟩

theorem HeldWithin.release (h : m.HeldWithin i k) {r : R × Mutex n D R} (hm : m.release j = some r) : j = i := by
  obtain ⟨rest, hrest, -⟩ := h
  cases hrest.symm.trans (release_held hm).1
  rfl

end Held

end Mutex

end Lib
