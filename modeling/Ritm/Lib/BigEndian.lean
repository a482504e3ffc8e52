import Mathlib.Algebra.Ring.Nat
/-!
# BigEndian — numbers as bytes, the most significant first
-/
namespace Lib

def toBe : Nat → Nat → List (BitVec 8)
  | 0, _ => []
  | n + 1, v => BitVec.ofNat 8 (v / 256 ^ n) :: toBe n v

def ofBe : List (BitVec 8) → Nat
  | [] => 0
  | b :: rest => b.toNat * 256 ^ rest.length + ofBe rest

@[simp] theorem toBe_length : ∀ n v : Nat, (toBe n v).length = n
  | 0, _ => rfl
  | n + 1, v => by rw [toBe, List.length_cons, toBe_length n]

theorem ofBe_lt : ∀ bytes : List (BitVec 8), ofBe bytes < 256 ^ bytes.length
  | [] => Nat.one_pos
  | b :: rest => by
    have hrest := ofBe_lt rest
    have hb : b.toNat + 1 ≤ 256 := b.isLt
    calc b.toNat * 256 ^ rest.length + ofBe rest
        < b.toNat * 256 ^ rest.length + 256 ^ rest.length := Nat.add_lt_add_left hrest _
      _ = (b.toNat + 1) * 256 ^ rest.length := (Nat.succ_mul _ _).symm
      _ ≤ 256 * 256 ^ rest.length := Nat.mul_le_mul_right _ hb
      _ = 256 ^ (rest.length + 1) := (Nat.pow_succ').symm

theorem ofBe_lt_of_length_le {bytes : List (BitVec 8)} {n : Nat} (h : bytes.length ≤ n) : ofBe bytes < 256 ^ n :=
  Nat.lt_of_lt_of_le (ofBe_lt bytes) (Nat.pow_le_pow_right (by decide) h)

/-- **Reading back what was written** gives the number, reduced to its width. -/
theorem ofBe_toBe : ∀ n v : Nat, ofBe (toBe n v) = v % 256 ^ n
  | 0, v => by rw [Nat.pow_zero, Nat.mod_one]; rfl
  | n + 1, v => by
    have hbyte : (BitVec.ofNat 8 (v / 256 ^ n)).toNat = v / 256 ^ n % 256 := BitVec.toNat_ofNat ..
    rw [toBe, ofBe, ofBe_toBe n, toBe_length, hbyte, Nat.mod_pow_succ, Nat.mul_comm, Nat.add_comm]

theorem toBe_add (n v : Nat) : ∀ m : Nat, toBe (m + n) v = toBe m (v / 256 ^ n) ++ toBe n v
  | 0 => by rw [Nat.zero_add]; rfl
  | m + 1 => by
    rw [Nat.add_right_comm, toBe, toBe, toBe_add n v m, Nat.div_div_eq_div_mul, ← Nat.pow_add, Nat.add_comm n m,
      List.cons_append]

end Lib
