/-
# Copying bits

`copybits` with `decode_bits` and `encode_bits`, in `libpfcp/src/enc_dec_bits.c` and, the same text,
in `libgtpv2c/src/enc_dec_bits.c`.
-/

import Spgw.Lib.Buffer
import Mathlib.Data.BitVec
import Mathlib.Tactic.IntervalCases

namespace Spgw.Codec.CopyBits

open Function

abbrev Memory := ℕ → BitVec 8

/-- The bits of a memory, the most significant one of an octet first. -/
def bitsIn (m : Memory) : Buffer := fun p => (m (p / 8)).getMsbD (p % 8)

def maskBits : ℕ → BitVec 8
  | 0 => 0x55 | 1 => 0x80 | 2 => 0xc0 | 3 => 0xe0 | 4 => 0xf0 | 5 => 0xf8 | 6 => 0xfc | 7 => 0xfe
  | _ => 0xff

def xorMaskBits : ℕ → BitVec 8
  | 0 => 0xff | 1 => 0x7f | 2 => 0x3f | 3 => 0x1f | 4 => 0x0f | 5 => 0x07 | 6 => 0x03 | 7 => 0x01
  | _ => 0x00

def copyStartBits (n md : ℕ) (destination byte : BitVec 8) : ℕ × BitVec 8 × BitVec 8 :=
  if 8 - md ≤ n then (n - (8 - md), destination &&& maskBits md, byte)
  else (0, destination &&& (maskBits md ||| xorMaskBits (md + n + 1)), byte &&& maskBits (md + n))

/-- The loop over whole octets: `next` is the octet for a position of the source. -/
def copyLoop (next : ℕ → BitVec 8) : ℕ → ℕ → ℕ → Memory → Memory
  | 0, _, _, dest => dest
  | k + 1, ps, pd, dest => copyLoop next k (ps + 1) (pd + 1) (update dest pd (next ps))

/-- The loop and the bits that are left behind it. -/
def copyRest (next : ℕ → BitVec 8) (n ps pd : ℕ) (dest : Memory) : Memory :=
  let dest := copyLoop next (n / 8) ps pd dest
  if 0 < n % 8 then
    update dest (pd + n / 8)
      ((dest (pd + n / 8) &&& xorMaskBits (n % 8)) ||| (next (ps + n / 8) &&& maskBits (n % 8)))
  else dest

/-- The first octet with `byte`, and the rest. -/
def copyFrom (next : ℕ → BitVec 8) (byte : BitVec 8) (n md ps pd : ℕ) (dest : Memory) : Memory :=
  let start := copyStartBits n md (dest pd) byte
  copyRest next start.1 ps (pd + 1) (update dest pd (start.2.1 ||| start.2.2))

/-- Two octets of the source, shifted. -/
def joined (src : Memory) (left right p : ℕ) : BitVec 8 := src p <<< left ||| src (p + 1) >>> right

def copybits (src : Memory) (srcOffset n : ℕ) (dest : Memory) (destOffset : ℕ) : Memory :=
  let ps := srcOffset / 8
  let pd := destOffset / 8
  let ms := srcOffset % 8
  let md := destOffset % 8
  if n < 1 then dest
  else if md < ms then
    let next := joined src (ms - md) (8 - (ms - md))
    copyFrom next (next ps &&& xorMaskBits md) n md (ps + 1) pd dest
  else if ms < md then
    copyFrom (joined src (8 - (md - ms)) (md - ms)) (src ps >>> (md - ms) &&& xorMaskBits md) n md ps
      pd dest
  else if 0 < ms then copyFrom src (xorMaskBits md &&& src ps) n md (ps + 1) pd dest
  else copyRest src n ps pd dest

theorem getMsbD_maskBits {k i : ℕ} (hi : i < 8) :
    (maskBits k).getMsbD i = if k = 0 then decide (i % 2 = 1) else decide (i < k) := by
  match k with
  | 0 | 1 | 2 | 3 | 4 | 5 | 6 | 7 => interval_cases i <;> rfl
  | k + 8 =>
    have hmask : maskBits (k + 8) = 0xff := rfl
    rw [hmask, if_neg (by omega), decide_eq_true (by omega : i < k + 8)]
    interval_cases i <;> rfl

theorem getMsbD_xorMaskBits {k i : ℕ} (hi : i < 8) :
    (xorMaskBits k).getMsbD i = decide (k ≤ i) := by
  match k with
  | 0 | 1 | 2 | 3 | 4 | 5 | 6 | 7 => interval_cases i <;> rfl
  | k + 8 =>
    have hmask : xorMaskBits (k + 8) = 0 := rfl
    rw [hmask, decide_eq_false (by omega : ¬ k + 8 ≤ i)]
    exact BitVec.getMsbD_zero

theorem copyLoop_apply (next : ℕ → BitVec 8) (k ps pd : ℕ) (dest : Memory) (i : ℕ) :
    copyLoop next k ps pd dest i =
      if pd ≤ i ∧ i < pd + k then next (ps + (i - pd)) else dest i := by
  induction k generalizing ps pd dest with
  | zero => rw [copyLoop, if_neg (by omega)]
  | succ k ih =>
    rw [copyLoop, ih]
    by_cases hi : i = pd
    · subst hi
      rw [if_neg (by omega), if_pos (by omega), update_self, Nat.sub_self, Nat.add_zero]
    · rw [update_of_ne hi]
      by_cases hin : pd ≤ i ∧ i < pd + (k + 1)
      · rw [if_pos (by omega), if_pos hin]
        congr 1
        omega
      · rw [if_neg (by omega), if_neg hin]

theorem copyRest_of_ne {next : ℕ → BitVec 8} {n ps pd : ℕ} {dest : Memory} {i : ℕ}
    (hi : i ≠ pd + n / 8) :
    copyRest next n ps pd dest i = copyLoop next (n / 8) ps pd dest i := by
  unfold copyRest
  split_ifs
  · exact update_of_ne hi ..
  · rfl

theorem bitsIn_copyRest (next : ℕ → BitVec 8) (n ps pd : ℕ) (dest : Memory) (p : ℕ) :
    bitsIn (copyRest next n ps pd dest) p =
      if 8 * pd ≤ p ∧ p < 8 * pd + n then (next (ps + (p / 8 - pd))).getMsbD (p % 8)
      else bitsIn dest p := by
  have hp : p % 8 < 8 := Nat.mod_lt p (by decide)
  unfold bitsIn
  by_cases hlast : p / 8 = pd + n / 8
  · -- The octet with the bits that are left.
    have hin : (8 * pd ≤ p ∧ p < 8 * pd + n) ↔ p % 8 < n % 8 := by omega
    have hout : ¬ (pd ≤ p / 8 ∧ p / 8 < pd + n / 8) := by omega
    simp only [copyRest, copyLoop_apply, hin]
    by_cases hrest : 0 < n % 8
    · rw [if_pos hrest, hlast, update_self, if_neg (by omega), Nat.add_sub_cancel_left,
        BitVec.getMsbD_or, BitVec.getMsbD_and, BitVec.getMsbD_and, getMsbD_maskBits hp,
        getMsbD_xorMaskBits hp, if_neg (by omega)]
      by_cases hbit : p % 8 < n % 8
      · simp [hbit]
      · simp [hbit, Nat.not_lt.mp hbit]
    · rw [if_neg hrest, copyLoop_apply, if_neg hout, if_neg (by omega)]
  · rw [copyRest_of_ne hlast, copyLoop_apply]
    by_cases hin : pd ≤ p / 8 ∧ p / 8 < pd + n / 8
    · rw [if_pos hin, if_pos (by omega)]
    · rw [if_neg hin, if_neg (by omega)]

/-- The bits of the first octet: those of the field are added to some of the old ones if the octet
is a new one, and the bit behind a field that ends here is lost. -/
theorem getMsbD_copyStartBits {n md i : ℕ} (hn : 0 < n) (hmd : md < 8) (hi : i < 8)
    (d byte : BitVec 8) (hbyte : i < md → byte.getMsbD i = false) :
    ((copyStartBits n md d byte).2.1 ||| (copyStartBits n md d byte).2.2).getMsbD i =
      if md ≤ i ∧ i < md + n then byte.getMsbD i || (decide (md = 0 ∧ i % 2 = 1) && d.getMsbD i)
      else d.getMsbD i && !decide (i = md + n ∧ ¬(md = 0 ∧ i % 2 = 1)) := by
  unfold copyStartBits
  split_ifs with hlong hin hin
  · simp only [BitVec.getMsbD_or, BitVec.getMsbD_and, getMsbD_maskBits hi]
    by_cases hzero : md = 0
    · simp [hzero, Bool.or_comm, Bool.and_comm]
    · simp [hzero, Nat.not_lt.mpr hin.1]
  · have hlt : i < md := by omega
    simp only [BitVec.getMsbD_or, BitVec.getMsbD_and, getMsbD_maskBits hi, hbyte hlt]
    have hne : i ≠ md + n := by omega
    simp [Nat.ne_of_gt (Nat.zero_lt_of_lt hlt), hlt, hne]
  · simp only [BitVec.getMsbD_or, BitVec.getMsbD_and, getMsbD_maskBits hi, getMsbD_xorMaskBits hi,
      if_neg (by omega : ¬ md + n = 0), decide_eq_true hin.2, Bool.and_true,
      decide_eq_false (by omega : ¬ md + n + 1 ≤ i), Bool.or_false]
    by_cases hzero : md = 0
    · simp [hzero, Bool.or_comm, Bool.and_comm]
    · simp [hzero, Nat.not_lt.mpr hin.1]
  · simp only [BitVec.getMsbD_or, BitVec.getMsbD_and, getMsbD_maskBits hi, getMsbD_xorMaskBits hi,
      if_neg (by omega : ¬ md + n = 0)]
    by_cases hlt : i < md
    · have hne : i ≠ md + n := by omega
      simp [hbyte hlt, Nat.ne_of_gt (Nat.zero_lt_of_lt hlt), hlt, hne]
    · have hout : ¬ i < md + n := by omega
      have hend : md + n + 1 ≤ i ↔ ¬ i = md + n := by omega
      rw [decide_eq_false hout, Bool.and_false, Bool.or_false]
      congr 1
      by_cases hzero : md = 0
      · by_cases hodd : i % 2 = 1
        · simp [hzero, hodd]
        · rw [if_pos hzero, decide_eq_false hodd, Bool.false_or]
          simp only [hend]
          simp [hodd]
      · rw [if_neg hzero, decide_eq_false hlt, Bool.false_or]
        simp only [hend]
        simp [hzero]

theorem copyStartBits_fst (n md : ℕ) (d byte : BitVec 8) :
    (copyStartBits n md d byte).1 = n - (8 - md) := by
  unfold copyStartBits
  split_ifs
  · rfl
  · exact (Nat.sub_eq_zero_of_le (by omega)).symm

theorem bitsIn_octet (m : Memory) (q : ℕ) {i : ℕ} (hi : i < 8) :
    bitsIn m (8 * q + i) = (m q).getMsbD i := by
  rw [bitsIn, show (8 * q + i) / 8 = q by omega, show (8 * q + i) % 8 = i by omega]

theorem getMsbD_joined {src : Memory} {left right : ℕ} (h : left + right = 8) (hleft : 0 < left)
    (p : ℕ) {i : ℕ} (hi : i < 8) :
    (joined src left right p).getMsbD i = bitsIn src (8 * p + (left + i)) := by
  rw [joined, BitVec.getMsbD_or, BitVec.getMsbD_shiftLeft, BitVec.getMsbD_ushiftRight]
  by_cases hlow : left + i < 8
  · have hright : i < right := by omega
    rw [bitsIn_octet src p hlow, Nat.add_comm]
    simp [hright]
  · have hright : ¬ i < right := by omega
    rw [show 8 * p + (left + i) = 8 * (p + 1) + (i - right) by omega,
      bitsIn_octet src (p + 1) (by omega), BitVec.getMsbD_of_ge _ _ (by omega)]
    simp [hi, hright]

/-- The bits after a copy of `n` bits `T` to `off`; `started` tells that `copy_start_bits` was
called. -/
def copied (T : ℕ → Bool) (started : Bool) (old : Buffer) (n off : ℕ) : Buffer := fun p =>
  if off ≤ p ∧ p < off + n then
    T (p - off) || (started && decide (off % 8 = 0 ∧ p < off + 8 ∧ p % 2 = 1) && old p)
  else old p && !(started && decide (off % 8 + n < 8 ∧ p = off + n ∧ ¬(off % 8 = 0 ∧ p % 2 = 1)))

theorem bitsIn_copyFrom {next : ℕ → BitVec 8} {byte : BitVec 8} {n md ps pd : ℕ} {dest : Memory}
    {T : ℕ → Bool} (hn : 0 < n) (hmd : md < 8) (hlow : ∀ i < md, byte.getMsbD i = false)
    (hbyte : ∀ i, md ≤ i → i < 8 → byte.getMsbD i = T (i - md))
    (hnext : ∀ k i, i < 8 → (next (ps + k)).getMsbD i = T (8 - md + 8 * k + i)) (p : ℕ) :
    bitsIn (copyFrom next byte n md ps pd dest) p =
      copied T true (bitsIn dest) n (8 * pd + md) p := by
  have hp : p % 8 < 8 := Nat.mod_lt p (by decide)
  have hoff : (8 * pd + md) % 8 = md := by omega
  unfold copyFrom
  rw [bitsIn_copyRest, copyStartBits_fst, copied, hoff]
  by_cases hfirst : p / 8 = pd
  · -- The first octet.
    have hin : (8 * pd + md ≤ p ∧ p < 8 * pd + md + n) ↔ md ≤ p % 8 ∧ p % 8 < md + n := by omega
    have hleak : (md = 0 ∧ p < 8 * pd + md + 8 ∧ p % 2 = 1) ↔ md = 0 ∧ p % 8 % 2 = 1 := by omega
    have hlost : (md + n < 8 ∧ p = 8 * pd + md + n ∧ ¬(md = 0 ∧ p % 2 = 1)) ↔
        p % 8 = md + n ∧ ¬(md = 0 ∧ p % 8 % 2 = 1) := by omega
    rw [if_neg (by omega), bitsIn, hfirst, update_self,
      getMsbD_copyStartBits hn hmd hp (dest pd) byte (hlow _)]
    simp only [hin, hleak, hlost, Bool.true_and]
    have hold : bitsIn dest p = (dest pd).getMsbD (p % 8) := by rw [bitsIn, hfirst]
    rw [hold]
    by_cases hfield : md ≤ p % 8 ∧ p % 8 < md + n
    · rw [if_pos hfield, if_pos hfield, hbyte _ hfield.1 hp, show p - (8 * pd + md) = p % 8 - md by omega]
    · rw [if_neg hfield, if_neg hfield]
  · have hkeep : bitsIn (update dest pd ((copyStartBits n md (dest pd) byte).2.1 |||
        (copyStartBits n md (dest pd) byte).2.2)) p = bitsIn dest p := by
      rw [bitsIn, update_of_ne hfirst, bitsIn]
    have hleak : ¬(md = 0 ∧ p < 8 * pd + md + 8 ∧ p % 2 = 1 ∧ 8 * pd + md ≤ p) := by omega
    have hlost : ¬(md + n < 8 ∧ p = 8 * pd + md + n ∧ ¬(md = 0 ∧ p % 2 = 1)) := by omega
    rw [hkeep, decide_eq_false hlost]
    by_cases hfield : 8 * pd + md ≤ p ∧ p < 8 * pd + md + n
    · have hnot : ¬(md = 0 ∧ p < 8 * pd + md + 8 ∧ p % 2 = 1) := by omega
      rw [if_pos (by omega), if_pos hfield, decide_eq_false hnot, hnext _ _ hp,
        show 8 - md + 8 * (p / 8 - (pd + 1)) + p % 8 = p - (8 * pd + md) by omega]
      simp
    · rw [if_neg (by omega), if_neg hfield]
      simp

/-- **The bits after `copybits`.** -/
theorem bitsIn_copybits {n : ℕ} (hn : 0 < n) (src : Memory) (so : ℕ) (dest : Memory) (off p : ℕ) :
    bitsIn (copybits src so n dest off) p =
      copied (fun j => bitsIn src (so + j)) (decide (so % 8 ≠ 0 ∨ off % 8 ≠ 0)) (bitsIn dest) n off
        p := by
  obtain ⟨ps, ms, hms, rfl⟩ : ∃ ps ms, ms < 8 ∧ so = 8 * ps + ms :=
    ⟨so / 8, so % 8, Nat.mod_lt so (by decide), (Nat.div_add_mod so 8).symm⟩
  obtain ⟨pd, md, hmd, rfl⟩ : ∃ pd md, md < 8 ∧ off = 8 * pd + md :=
    ⟨off / 8, off % 8, Nat.mod_lt off (by decide), (Nat.div_add_mod off 8).symm⟩
  have hlow : ∀ (x : BitVec 8), ∀ i < md, (x &&& xorMaskBits md).getMsbD i = false := by
    intro x i hi
    rw [BitVec.getMsbD_and, getMsbD_xorMaskBits (by omega), decide_eq_false (by omega), Bool.and_false]
  have hhigh : ∀ (x : BitVec 8) (i : ℕ), md ≤ i → i < 8 →
      (x &&& xorMaskBits md).getMsbD i = x.getMsbD i := by
    intro x i hle hi
    rw [BitVec.getMsbD_and, getMsbD_xorMaskBits hi, decide_eq_true hle, Bool.and_true]
  unfold copybits
  simp only [if_neg (by omega : ¬ n < 1), show (8 * ps + ms) / 8 = ps by omega,
    show (8 * ps + ms) % 8 = ms by omega, show (8 * pd + md) / 8 = pd by omega,
    show (8 * pd + md) % 8 = md by omega]
  split_ifs with hgt hlt hpos
  · rw [decide_eq_true (by omega : ms ≠ 0 ∨ md ≠ 0)]
    refine bitsIn_copyFrom hn hmd (hlow _) (fun i hle hi => ?_) (fun k i hi => ?_) p
    · rw [hhigh _ i hle hi, getMsbD_joined (by omega) (by omega) _ hi,
        show 8 * ps + (ms - md + i) = 8 * ps + ms + (i - md) by omega]
    · rw [getMsbD_joined (by omega) (by omega) _ hi,
        show 8 * (ps + 1 + k) + (ms - md + i) = 8 * ps + ms + (8 - md + 8 * k + i) by omega]
  · rw [decide_eq_true (by omega : ms ≠ 0 ∨ md ≠ 0)]
    refine bitsIn_copyFrom hn hmd (hlow _) (fun i hle hi => ?_) (fun k i hi => ?_) p
    · have hnot : ¬ i < md - ms := by omega
      rw [hhigh _ i hle hi, BitVec.getMsbD_ushiftRight, decide_eq_true hi, decide_eq_false hnot,
        show 8 * ps + ms + (i - md) = 8 * ps + (i - (md - ms)) by omega,
        bitsIn_octet src ps (by omega)]
      rfl
    · rw [getMsbD_joined (by omega) (by omega) _ hi,
        show 8 * (ps + k) + (8 - (md - ms) + i) = 8 * ps + ms + (8 - md + 8 * k + i) by omega]
  · rw [decide_eq_true (by omega : ms ≠ 0 ∨ md ≠ 0), BitVec.and_comm]
    refine bitsIn_copyFrom hn hmd (hlow _) (fun i hle hi => ?_) (fun k i hi => ?_) p
    · rw [hhigh _ i hle hi, ← bitsIn_octet src ps hi,
        show 8 * ps + i = 8 * ps + ms + (i - md) by omega]
    · rw [← bitsIn_octet src _ hi,
        show 8 * (ps + 1 + k) + i = 8 * ps + ms + (8 - md + 8 * k + i) by omega]
  · obtain ⟨rfl, rfl⟩ : ms = 0 ∧ md = 0 := by omega
    have hp : p % 8 < 8 := Nat.mod_lt p (by decide)
    rw [bitsIn_copyRest, decide_eq_false (by simp), copied]
    simp only [Nat.add_zero, Bool.false_and, Bool.or_false, Bool.not_false, Bool.and_true]
    by_cases hin : 8 * pd ≤ p ∧ p < 8 * pd + n
    · rw [if_pos hin, if_pos hin, ← bitsIn_octet src _ hp,
        show 8 * (ps + (p / 8 - pd)) + p % 8 = 8 * ps + (p - 8 * pd) by omega]
    · rw [if_neg hin, if_neg hin]

/-- The width of a field. -/
structure Width where
  bits : ℕ
  one_le : 1 ≤ bits
  le : bits ≤ 64

structure Field extends Width where
  value : ℕ
  value_lt : value < 2 ^ bits

/-- `byte_val.val8` after the octets have been swapped, and what lies behind it on the stack. -/
def val8 (behind : Memory) (value : ℕ) : Memory := fun k =>
  if k < 8 then BitVec.ofNat 8 (value / 2 ^ (8 * (7 - k))) else behind k

def encodeBits (behind : Memory) (f : Field) (destination : Memory) (offset : ℕ) : Memory :=
  copybits (val8 behind f.value) (64 - f.bits) f.bits destination offset

def decodeBits (source : Memory) (offset : ℕ) (w : Width) : ℕ :=
  (bitsIn (copybits source offset w.bits (fun _ => 0) (64 - w.bits))).bits 0 64

/-- A field with the bits of a number, the most significant first. -/
def fieldBit (f : Field) (j : ℕ) : Bool := f.value.testBit (f.bits - 1 - j)

theorem bitsIn_val8 (behind : Memory) (f : Field) {j : ℕ} (hj : j < f.bits) :
    bitsIn (val8 behind f.value) (64 - f.bits + j) = fieldBit f j := by
  have hle := f.le
  obtain ⟨q, i, hi, heq⟩ : ∃ q i, i < 8 ∧ 64 - f.bits + j = 8 * q + i :=
    ⟨_, _, Nat.mod_lt _ (by decide), (Nat.div_add_mod (64 - f.bits + j) 8).symm⟩
  rw [heq, bitsIn_octet _ q hi, val8, if_pos (by omega), BitVec.getMsbD_eq_getLsbD,
    BitVec.getLsbD_ofNat, decide_eq_true hi, decide_eq_true (by omega : 8 - 1 - i < 8),
    Nat.testBit_div_two_pow, fieldBit, Bool.true_and, Bool.true_and]
  congr 1
  omega

/-- The bits after `encode_bits`. -/
theorem bitsIn_encodeBits (behind : Memory) (f : Field) (dest : Memory) (off p : ℕ) :
    bitsIn (encodeBits behind f dest off) p =
      copied (fieldBit f) (decide (f.bits % 8 ≠ 0 ∨ off % 8 ≠ 0)) (bitsIn dest) f.bits off p := by
  have hone := f.one_le
  have hle := f.le
  have hstart : ((64 - f.bits) % 8 ≠ 0 ∨ off % 8 ≠ 0) ↔ (f.bits % 8 ≠ 0 ∨ off % 8 ≠ 0) := by omega
  rw [encodeBits, bitsIn_copybits hone]
  simp only [copied, hstart]
  by_cases hin : off ≤ p ∧ p < off + f.bits
  · rw [if_pos hin, if_pos hin, bitsIn_val8 behind f (by omega)]
  · rw [if_neg hin, if_neg hin]

/-- The addressed bits become the value, and every other bit stays. -/
def SetsExactly (behind : Memory) (f : Field) (dest : Memory) (off : ℕ) : Prop :=
  ∀ p, bitsIn (encodeBits behind f dest off) p =
    if off ≤ p ∧ p < off + f.bits then fieldBit f (p - off) else bitsIn dest p

/-- What lies in the first octet does no harm: a field that starts an octet without filling octets
has no old bit at an odd place of it that its own bit does not cover, and behind a field that ends
in the octet there is a zero (or, at an odd place behind one that starts the octet, anything). -/
def Harmless (f : Field) (dest : Memory) (off : ℕ) : Prop :=
  (off % 8 = 0 → f.bits % 8 ≠ 0 → ∀ j < min f.bits 8, j % 2 = 1 → bitsIn dest (off + j) = true →
    fieldBit f j = true) ∧
  (off % 8 + f.bits < 8 → bitsIn dest (off + f.bits) = true → off % 8 = 0 ∧ f.bits % 2 = 1)

theorem setsExactly_of_harmless {behind : Memory} {f : Field} {dest : Memory} {off : ℕ}
    (h : Harmless f dest off) : SetsExactly behind f dest off := by
  have hone := f.one_le
  obtain ⟨hleak, hlost⟩ := h
  intro p
  simp only [bitsIn_encodeBits, copied]
  by_cases hin : off ≤ p ∧ p < off + f.bits
  · rw [if_pos hin, if_pos hin]
    obtain ⟨j, rfl⟩ := Nat.exists_eq_add_of_le hin.1
    rw [Nat.add_sub_cancel_left]
    by_cases hbad : (f.bits % 8 ≠ 0 ∨ off % 8 ≠ 0) ∧
        (off % 8 = 0 ∧ off + j < off + 8 ∧ (off + j) % 2 = 1) ∧ bitsIn dest (off + j) = true
    · obtain ⟨hstart, ⟨hoff, hlt, hodd⟩, hold⟩ := hbad
      rw [hleak hoff (by omega) j (by omega) (by omega) hold, Bool.true_or]
    · have hnone : (decide (f.bits % 8 ≠ 0 ∨ off % 8 ≠ 0) &&
          decide (off % 8 = 0 ∧ off + j < off + 8 ∧ (off + j) % 2 = 1) &&
          bitsIn dest (off + j)) = false := by
        rw [Bool.eq_false_iff]
        intro htrue
        simp only [Bool.and_eq_true, decide_eq_true_eq] at htrue
        exact hbad ⟨htrue.1.1, htrue.1.2, htrue.2⟩
      rw [hnone, Bool.or_false]
  · rw [if_neg hin, if_neg hin]
    by_cases hbad : off % 8 + f.bits < 8 ∧ p = off + f.bits ∧ ¬(off % 8 = 0 ∧ p % 2 = 1)
    · obtain ⟨hend, rfl, hnot⟩ := hbad
      have hold : bitsIn dest (off + f.bits) = false := by
        rw [Bool.eq_false_iff]
        intro htrue
        have := hlost hend htrue
        omega
      rw [hold, Bool.false_and]
    · rw [decide_eq_false hbad, Bool.and_false, Bool.not_false, Bool.and_true]

/-- **`encode_bits` sets the addressed bits and no others exactly if the old contents of the first
octet are harmless.** -/
theorem setsExactly_iff (behind : Memory) (f : Field) (dest : Memory) (off : ℕ) :
    SetsExactly behind f dest off ↔ Harmless f dest off := by
  have hone := f.one_le
  constructor
  · intro h
    simp only [SetsExactly, bitsIn_encodeBits, copied] at h
    refine ⟨fun hoff hw j hj hodd hold => ?_, fun hend hold => ?_⟩
    · have hbit := h (off + j)
      rw [if_pos (by omega), if_pos (by omega), decide_eq_true (Or.inl hw),
        decide_eq_true (by omega : off % 8 = 0 ∧ off + j < off + 8 ∧ (off + j) % 2 = 1), hold,
        Nat.add_sub_cancel_left] at hbit
      simpa using hbit.symm
    · by_contra hnot
      have hbit := h (off + f.bits)
      rw [if_neg (by omega), if_neg (by omega), hold,
        decide_eq_true (by omega : f.bits % 8 ≠ 0 ∨ off % 8 ≠ 0),
        decide_eq_true (by omega : off % 8 + f.bits < 8 ∧ off + f.bits = off + f.bits ∧
          ¬(off % 8 = 0 ∧ (off + f.bits) % 2 = 1))] at hbit
      simp at hbit
  · exact setsExactly_of_harmless

/-- On ones: behind a field of two bits a bit is lost, and a field of twelve zeros does not take the
bit at place 1 away. -/
theorem not_setsExactly_ones : ∃ f g : Field, f.bits = 2 ∧ g.bits = 12 ∧ g.value = 0 ∧ ∀ behind,
    (bitsIn (encodeBits behind f (fun _ => 0xff) 2) 4 = false ∧
      bitsIn (encodeBits behind g (fun _ => 0xff) 0) 1 = true) ∧
    ¬ SetsExactly behind f (fun _ => 0xff) 2 ∧ ¬ SetsExactly behind g (fun _ => 0xff) 0 := by
  refine ⟨⟨⟨2, by decide, by decide⟩, 3, by decide⟩, ⟨⟨12, by decide, by decide⟩, 0, by decide⟩, rfl,
    rfl, rfl, fun behind => ?_⟩
  refine (fun hbits => ⟨hbits, fun h => ?_, fun h => ?_⟩) ?_
  · rw [bitsIn_encodeBits, bitsIn_encodeBits]
    decide
  · exact absurd ((h 4).symm.trans hbits.1) (by decide)
  · exact absurd ((h 1).symm.trans hbits.2) (by decide)

theorem bits_of_zeros {b c : Buffer} {m n off : ℕ} (hzero : ∀ i < m, b i = false)
    (hbits : ∀ j < n, b (m + j) = c (off + j)) : b.bits 0 (m + n) = c.bits off n := by
  induction n with
  | zero =>
    clear hbits
    induction m with
    | zero => rfl
    | succ m ih =>
      have hprev : b.bits 0 m = 0 := ih fun i hi => hzero i (Nat.lt_succ_of_lt hi)
      change 2 * b.bits 0 m + (b (0 + m)).toNat = 0
      rw [hprev, Nat.zero_add, Nat.zero_add, hzero m (Nat.lt_succ_self m)]
      rfl
  | succ n ih =>
    rw [← Nat.add_assoc, Buffer.bits, Buffer.bits, ih fun j hj => hbits j (Nat.lt_succ_of_lt hj),
      Nat.zero_add, hbits n (Nat.lt_succ_self n)]

/-- The number that the bits of `v` stand for. -/
theorem bits_of_testBit {b : Buffer} {off n v : ℕ} (h : ∀ j < n, b (off + j) = v.testBit (n - 1 - j)) :
    b.bits off n = v % 2 ^ n := by
  induction n generalizing v with
  | zero => rw [Buffer.bits, Nat.pow_zero, Nat.mod_one]
  | succ n ih =>
    have hhigh : b.bits off n = v / 2 % 2 ^ n := by
      refine ih fun j hj => ?_
      rw [h j (Nat.lt_succ_of_lt hj), show n + 1 - 1 - j = n - 1 - j + 1 by omega, Nat.testBit_succ]
    have hlow : (b (off + n)).toNat = v % 2 := by
      rw [h n (Nat.lt_succ_self n), Nat.add_sub_cancel, Nat.sub_self, Nat.testBit_zero]
      rcases Nat.mod_two_eq_zero_or_one v with h | h <;> simp [h]
    rw [Buffer.bits, hhigh, hlow, Nat.pow_succ', Nat.mod_mul]
    omega

theorem bitsIn_zero (p : ℕ) : bitsIn (fun _ => 0) p = false := BitVec.getMsbD_zero

theorem decodeBits_eq (source : Memory) (off : ℕ) (w : Width) :
    decodeBits source off w = (bitsIn source).bits off w.bits := by
  have hone := w.one_le
  have hle := w.le
  have hcopy : ∀ p, bitsIn (copybits source off w.bits (fun _ => 0) (64 - w.bits)) p =
      if 64 - w.bits ≤ p ∧ p < 64 - w.bits + w.bits then bitsIn source (off + (p - (64 - w.bits)))
      else false := by
    intro p
    simp only [bitsIn_copybits hone, copied, bitsIn_zero, Bool.and_false, Bool.or_false, Bool.false_and]
  have hsplit : 64 = 64 - w.bits + w.bits := by omega
  unfold decodeBits
  rw [hsplit]
  refine bits_of_zeros (fun i hi => ?_) (fun j hj => ?_)
  · rw [← hsplit, hcopy, if_neg (by omega)]
  · rw [← hsplit, hcopy, if_pos (by omega), Nat.add_sub_cancel_left]

/-- Fields one after the other; `behind` is what lies on the stack at each call. -/
def encodeAll (behind : ℕ → Memory) : List Field → ℕ → Memory → Memory
  | [], _, dest => dest
  | f :: fs, off, dest =>
    encodeAll behind fs (off + f.bits) (encodeBits (behind off) f dest off)

/-- The numbers that are decoded at the same offsets. -/
def decodeAll (source : Memory) : List Field → ℕ → List ℕ
  | [], _ => []
  | f :: fs, off => decodeBits source off f.toWidth :: decodeAll source fs (off + f.bits)

/-- In front of zeros `encode_bits` is exact. -/
theorem setsExactly_of_zeros {behind : Memory} {f : Field} {dest : Memory} {off : ℕ}
    (h : ∀ p, off ≤ p → bitsIn dest p = false) : SetsExactly behind f dest off := by
  refine setsExactly_of_harmless ⟨fun _ _ j _ _ hold => ?_, fun _ hold => ?_⟩
  · rw [h (off + j) (Nat.le_add_right off j)] at hold
    exact absurd hold (by decide)
  · rw [h (off + f.bits) (Nat.le_add_right off f.bits)] at hold
    exact absurd hold (by decide)

/-- What the calls leave in front of them, and what is decoded. -/
theorem decodeAll_encodeAll {behind : ℕ → Memory} {fs : List Field} {dest : Memory} {off : ℕ}
    (h : ∀ p, off ≤ p → bitsIn dest p = false) :
    (∀ p < off, bitsIn (encodeAll behind fs off dest) p = bitsIn dest p) ∧
      decodeAll (encodeAll behind fs off dest) fs off = fs.map (·.value) := by
  induction fs generalizing dest off with
  | nil => exact ⟨fun _ _ => rfl, rfl⟩
  | cons f fs ih =>
    have hset : SetsExactly (behind off) f dest off := setsExactly_of_zeros h
    have hnext : ∀ p, off + f.bits ≤ p → bitsIn (encodeBits (behind off) f dest off) p = false := by
      intro p hp
      rw [hset p, if_neg (by omega), h p (by omega)]
    obtain ⟨hfront, hrest⟩ := ih hnext
    refine ⟨fun p hp => ?_, ?_⟩
    · rw [encodeAll, hfront p (by omega), hset p, if_neg (by omega)]
    · have hvalue : decodeBits (encodeAll behind (f :: fs) off dest) off f.toWidth = f.value := by
        rw [decodeBits_eq, encodeAll]
        refine (bits_of_testBit fun j hj => ?_).trans (Nat.mod_eq_of_lt f.value_lt)
        rw [hfront _ (by omega), hset, if_pos (by omega), Nat.add_sub_cancel_left, fieldBit]
      rw [decodeAll, hvalue, List.map_cons]
      exact congrArg _ hrest

/-- **`decode_bits` returns the number formed by the bits it is asked for, and fields that are
encoded one after the other into zeros come back.** -/
theorem decode_and_roundTrip :
    (∀ source off w, decodeBits source off w = (bitsIn source).bits off w.bits) ∧
      ∀ behind fs, decodeAll (encodeAll behind fs 0 fun _ => 0) fs 0 = fs.map (·.value) :=
  ⟨decodeBits_eq, fun _ _ => (decodeAll_encodeAll fun p _ => bitsIn_zero p).2⟩

end Spgw.Codec.CopyBits
