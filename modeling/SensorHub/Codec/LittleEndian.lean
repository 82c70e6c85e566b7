import Mathlib.Tactic

set_option autoImplicit false

/-!
# Little-endian bytes of a number

* `toLE k n`: the `k` low bytes of `n`, least significant first; `length_toLE`.
* `ofLE bs`: the number written by `bs`; **`ofLE_toLE`**: nothing is lost below `256 ^ k`.
-/

namespace LittleEndian

/-- The `k` low bytes of `n`, least significant first. -/
def toLE : ℕ → ℕ → List UInt8
  | 0, _ => []
  | k + 1, n => UInt8.ofNat n :: toLE k (n / 256)

/-- The number written by `bs`, least significant byte first. -/
def ofLE : List UInt8 → ℕ
  | [] => 0
  | b :: bs => b.toNat + 256 * ofLE bs

@[simp] theorem length_toLE (k n : ℕ) : (toLE k n).length = k := by
  induction k generalizing n with
  | zero => rfl
  | succ k ih => rw [toLE, List.length_cons, ih]

/-- **Reading back.** -/
theorem ofLE_toLE {k n : ℕ} (h : n < 256 ^ k) : ofLE (toLE k n) = n := by
  induction k generalizing n with
  | zero => simp only [pow_zero, Nat.lt_one_iff] at h; rw [h]; rfl
  | succ k ih =>
      have hq : n / 256 < 256 ^ k := by
        rw [pow_succ] at h
        exact Nat.div_lt_of_lt_mul (by rwa [Nat.mul_comm])
      rw [toLE, ofLE, ih hq, UInt8.toNat_ofNat']
      exact Nat.mod_add_div n 256

end LittleEndian
