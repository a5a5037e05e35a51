/-
# Buffers of bits

A buffer is an endless row of bits; a field of it is read as a big-endian number.
-/

import Mathlib.Data.List.Basic
import Mathlib.Order.Nat
import Mathlib.Algebra.Ring.Nat
import Mathlib.Tactic.Ring

abbrev Buffer := ℕ → Bool

namespace Buffer

/-- The number in the `n` bits at `off`, big-endian. -/
def bits (b : Buffer) (off : ℕ) : ℕ → ℕ
  | 0 => 0
  | n + 1 => 2 * b.bits off n + (b (off + n)).toNat

/-- The buffer without its first `k` bits. -/
def drop (b : Buffer) (k : ℕ) : Buffer := fun i => b (k + i)

def ofOctets (octets : List ℕ) : Buffer := fun i => (octets.getD (i / 8) 0).testBit (7 - i % 8)

theorem bits_lt (b : Buffer) (off n : ℕ) : b.bits off n < 2 ^ n := by
  induction n with
  | zero => simp [bits]
  | succ n ih =>
      have := Bool.toNat_lt (b (off + n))
      simp only [bits, Nat.pow_succ]
      omega

theorem bits_congr {b c : Buffer} {off n : ℕ} (h : ∀ i < n, b (off + i) = c (off + i)) :
    b.bits off n = c.bits off n := by
  induction n with
  | zero => rfl
  | succ n ih =>
    simp only [bits, h n (Nat.lt_succ_self n), ih fun i hi => h i (Nat.lt_succ_of_lt hi)]

theorem bits_eq_of_agree {b c : Buffer} {avail off n : ℕ} (h : ∀ i < avail, b i = c i)
    (hle : off + n ≤ avail) : b.bits off n = c.bits off n :=
  bits_congr fun i hi => h (off + i) (by omega)

end Buffer
