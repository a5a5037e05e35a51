/-
# Octets in memory

A buffer is a function from positions to octets. A program copies octets into it and out of it, and
reads an integer from it, least significant octet first.
-/

import Mathlib.Data.List.Basic
import Mathlib.Data.UInt
import Mathlib.Tactic.Ring

namespace Octets

open Function

abbrev Memory := ℕ → UInt8

/-- `memcpy` out of a buffer. -/
def read (m : Memory) : ℕ → ℕ → List UInt8
  | _, 0 => []
  | off, n + 1 => m off :: read m (off + 1) n

/-- `memcpy` into a buffer. -/
def write (m : Memory) : ℕ → List UInt8 → Memory
  | _, [] => m
  | off, b :: bs => update (write m (off + 1) bs) off b

section Copy

variable (m : Memory)

@[simp]
theorem length_read (off n : ℕ) : (read m off n).length = n := by
  induction n generalizing off with
  | zero => rfl
  | succ n ih => rw [read, List.length_cons, ih]

theorem write_of_out {off j : ℕ} (bs : List UInt8) (h : j < off ∨ off + bs.length ≤ j) :
    write m off bs j = m j := by
  induction bs generalizing off with
  | nil => rfl
  | cons b bs ih =>
    rw [List.length_cons] at h
    have hne : j ≠ off := by omega
    rw [write, update_of_ne hne]
    exact ih (by omega)

theorem write_update {i off : ℕ} (b : UInt8) (bs : List UInt8) (h : i < off) :
    write (update m i b) off bs = update (write m off bs) i b := by
  induction bs generalizing off with
  | nil => rfl
  | cons c bs ih => rw [write, ih (by omega), write, update_comm (by omega)]

theorem write_append (off : ℕ) (bs bs' : List UInt8) :
    write m off (bs ++ bs') = write (write m off bs) (off + bs.length) bs' := by
  induction bs generalizing off with
  | nil => rfl
  | cons b bs ih =>
    rw [List.cons_append, write, ih, write, write_update _ b bs' (by rw [List.length_cons]; omega),
      List.length_cons, Nat.add_assoc, Nat.add_comm 1]

theorem read_congr {m m' : Memory} {off n : ℕ} (h : ∀ j, off ≤ j → j < off + n → m' j = m j) :
    read m' off n = read m off n := by
  induction n generalizing off with
  | zero => rfl
  | succ n ih =>
    have hhead : m' off = m off := h off (Nat.le_refl off) (by omega)
    have htail : read m' (off + 1) n = read m (off + 1) n :=
      ih fun j hj hlt => h j (by omega) (by omega)
    rw [read, read, hhead, htail]

theorem read_write (off : ℕ) (bs : List UInt8) : read (write m off bs) off bs.length = bs := by
  induction bs generalizing off with
  | nil => rfl
  | cons b bs ih =>
    have htail : read (write m off (b :: bs)) (off + 1) bs.length = bs := by
      refine (read_congr fun j hj _ => ?_).trans (ih (off + 1))
      exact update_of_ne (by omega) ..
    rw [List.length_cons, read, htail, write, update_self]

end Copy

/-- The `w` low-order octets of an integer, the least significant one first. -/
def littleEndian : ℕ → ℕ → List UInt8
  | 0, _ => []
  | w + 1, n => UInt8.ofNat n :: littleEndian w (n / 256)

def value : List UInt8 → ℕ
  | [] => 0
  | b :: bs => b.toNat + 256 * value bs

@[simp]
theorem length_littleEndian (w n : ℕ) : (littleEndian w n).length = w := by
  induction w generalizing n with
  | zero => rfl
  | succ w ih => rw [littleEndian, List.length_cons, ih]

theorem value_littleEndian {w n : ℕ} (h : n < 256 ^ w) : value (littleEndian w n) = n := by
  induction w generalizing n with
  | zero =>
    have : n = 0 := by simpa using h
    exact this.symm
  | succ w ih =>
    have hdiv : n / 256 < 256 ^ w := by
      rw [Nat.pow_succ] at h
      exact Nat.div_lt_of_lt_mul (by rwa [Nat.mul_comm] at h)
    have hmod : (UInt8.ofNat n).toNat = n % 256 := UInt8.toNat_ofNat'
    rw [littleEndian, value, ih hdiv, hmod]
    exact Nat.mod_add_div n 256

/-- **Octets are determined by the integer that they stand for.** -/
theorem littleEndian_value (bs : List UInt8) : littleEndian bs.length (value bs) = bs := by
  induction bs with
  | nil => rfl
  | cons b bs ih =>
    have hb : b.toNat < 256 := b.toNat_lt
    have hdiv : (b.toNat + 256 * value bs) / 256 = value bs := by omega
    have hmod : UInt8.ofNat (b.toNat + 256 * value bs) = b := by
      apply UInt8.toNat_inj.mp
      rw [UInt8.toNat_ofNat']
      omega
    rw [List.length_cons, value, littleEndian, hdiv, ih, hmod]

/-- A `uint32_t` at a position. -/
def word (m : Memory) (off : ℕ) : ℕ := value (read m off 4)

theorem word_congr {m m' : Memory} {off : ℕ} (h : ∀ j, off ≤ j → j < off + 4 → m' j = m j) :
    word m' off = word m off :=
  congrArg value (read_congr h)

theorem word_const (b : UInt8) (off : ℕ) : word (fun _ => b) off = b.toNat * 0x01010101 := by
  simp only [word, read, value]
  omega

theorem word_write {m : Memory} {off n : ℕ} (h : n < 2 ^ 32) :
    word (write m off (littleEndian 4 n)) off = n := by
  have hread := read_write m off (littleEndian 4 n)
  rw [length_littleEndian] at hread
  rw [word, hread]
  exact value_littleEndian h

abbrev Pattern := List (UInt8 → Bool)

def Shows (m : Memory) : ℕ → Pattern → Prop
  | _, [] => True
  | off, t :: p => t (m off) = true ∧ Shows m (off + 1) p

def exactly (bs : List UInt8) : Pattern := bs.map fun b c => c == b

@[simp]
theorem length_exactly (bs : List UInt8) : (exactly bs).length = bs.length := by
  simp [exactly]

theorem shows_append {m : Memory} {off : ℕ} {p q : Pattern} :
    Shows m off (p ++ q) ↔ Shows m off p ∧ Shows m (off + p.length) q := by
  induction p generalizing off with
  | nil => exact (iff_of_eq (true_and _)).symm
  | cons t p ih =>
    have hoff : off + (t :: p).length = off + 1 + p.length := by
      rw [List.length_cons]
      omega
    rw [List.cons_append, Shows, Shows, ih, hoff, and_assoc]

theorem shows_congr {m m' : Memory} {off : ℕ} {p : Pattern}
    (h : ∀ j, off ≤ j → j < off + p.length → m' j = m j) (hp : Shows m off p) :
    Shows m' off p := by
  induction p generalizing off with
  | nil => trivial
  | cons t p ih =>
    rw [List.length_cons] at h
    refine ⟨?_, ih (fun j hj hlt => h j (by omega) (by omega)) hp.2⟩
    rw [h off (Nat.le_refl off) (by omega)]
    exact hp.1

theorem shows_take {m : Memory} {off : ℕ} {p : Pattern} (n : ℕ) (hp : Shows m off p) :
    Shows m off (p.take n) := by
  rw [← List.take_append_drop n p] at hp
  exact (shows_append.mp hp).1

theorem shows_exactly_iff {m : Memory} {off : ℕ} {bs : List UInt8} :
    Shows m off (exactly bs) ↔ read m off bs.length = bs := by
  induction bs generalizing off with
  | nil => exact iff_of_true trivial rfl
  | cons b bs ih =>
    change (m off == b) = true ∧ Shows m (off + 1) (exactly bs) ↔ _
    rw [ih, beq_iff_eq, List.length_cons, read, List.cons.injEq]

theorem shows_map_range {m : Memory} {off n : ℕ} {f : ℕ → UInt8 → Bool} :
    Shows m off ((List.range n).map f) ↔ ∀ j < n, f j (m (off + j)) = true := by
  induction n with
  | zero => exact iff_of_true trivial fun j hj => absurd hj (Nat.not_lt_zero j)
  | succ n ih =>
    rw [List.range_succ, List.map_append, shows_append, ih, List.length_map, List.length_range]
    constructor
    · rintro ⟨hlt, heq, -⟩ j hj
      rcases Nat.lt_succ_iff_lt_or_eq.mp hj with hj | rfl
      · exact hlt j hj
      · exact heq
    · intro h
      exact ⟨fun j hj => h j (Nat.lt_succ_of_lt hj), h n (Nat.lt_succ_self n), trivial⟩

theorem shows_littleEndian_iff {m : Memory} {off n : ℕ} (h : n < 2 ^ 32) :
    Shows m off (exactly (littleEndian 4 n)) ↔ word m off = n := by
  rw [shows_exactly_iff, length_littleEndian]
  constructor
  · intro hread
    rw [word, hread]
    exact value_littleEndian h
  · intro hword
    have hread := littleEndian_value (read m off 4)
    rw [length_read] at hread
    rw [← hread]
    exact congrArg (littleEndian 4) hword

theorem shows_write_exactly (m : Memory) (off : ℕ) (bs : List UInt8) :
    Shows (write m off bs) off (exactly bs) :=
  shows_exactly_iff.mpr (read_write m off bs)

end Octets
