/-
# Strings in memory

A C string starts at position 0 of a buffer and ends before the first octet that is zero.
-/

import Spgw.Lib.Octets
import Mathlib.Data.List.GetD
import Mathlib.Data.List.TakeWhile

namespace Octets

open Function

variable {m m' : Memory}

theorem write_apply {off j : ℕ} (bs : List UInt8) (h : off ≤ j) :
    write m off bs j = bs.getD (j - off) (m j) := by
  induction bs generalizing off with
  | nil => rfl
  | cons b bs ih =>
    rw [write]
    by_cases hoff : j = off
    · rw [hoff, update_self, Nat.sub_self, List.getD_cons_zero]
    · have hsub : j - off = j - (off + 1) + 1 := by omega
      rw [update_of_ne hoff, ih (by omega), hsub, List.getD_cons_succ]

theorem write_zero_apply (bs : List UInt8) (j : ℕ) : write m 0 bs j = bs.getD j (m j) :=
  write_apply bs (Nat.zero_le j)

theorem write_zero_concat {bs : List UInt8} {b : UInt8} (hb : m' bs.length = b)
    (h : ∀ j, bs.length < j → m' j = m j) : write m' 0 bs = write m 0 (bs ++ [b]) := by
  funext j
  rw [write_zero_apply, write_zero_apply]
  rcases Nat.lt_trichotomy j bs.length with hj | rfl | hj
  · rw [List.getD_append _ _ _ _ hj, List.getD_eq_getElem _ _ hj, List.getD_eq_getElem _ _ hj]
  · rw [List.getD_append_right _ _ _ _ (Nat.le_refl _), Nat.sub_self, List.getD_cons_zero,
      List.getD_eq_default _ _ (Nat.le_refl _), hb]
  · have hlen : (bs ++ [b]).length ≤ j := by
      rw [List.length_append, List.length_singleton]
      exact hj
    rw [List.getD_eq_default _ _ (Nat.le_of_lt hj), List.getD_eq_default _ _ hlen, h j hj]

theorem read_add (m : Memory) (off n k : ℕ) :
    read m off (n + k) = read m off n ++ read m (off + n) k := by
  induction n generalizing off with
  | zero => rw [Nat.zero_add]; rfl
  | succ n ih => rw [Nat.succ_add, read, ih, read, List.cons_append, Nat.add_assoc, Nat.add_comm 1]

def padded (bs : List UInt8) : Memory := write (fun _ => 0) 0 bs

theorem padded_apply (bs : List UInt8) (j : ℕ) : padded bs j = bs.getD j 0 := write_zero_apply bs j

/-- `strlen` on a buffer of `cap` octets: nothing when it would read behind the end. -/
def strlen (cap : ℕ) (m : Memory) : Option ℕ := (List.range cap).find? fun i => m i = 0

theorem strlen_eq_some_iff {cap n : ℕ} :
    strlen cap m = some n ↔ n < cap ∧ m n = 0 ∧ ∀ j < n, m j ≠ 0 := by
  rw [strlen, List.find?_range_eq_some, List.mem_range]
  simp only [decide_eq_true_eq, Bool.not_eq_true', decide_eq_false_iff_not]
  exact ⟨fun h => ⟨h.2.1, h.1, h.2.2⟩, fun h => ⟨h.2.1, h.1, h.2.2⟩⟩

theorem strlen_eq_none_iff {cap : ℕ} : strlen cap m = none ↔ ∀ j < cap, m j ≠ 0 := by
  rw [strlen, List.find?_eq_none]
  simp only [List.mem_range, decide_eq_true_eq]

theorem getD_ne_zero {bs : List UInt8} (h0 : 0 ∉ bs) {j : ℕ} (hj : j < bs.length) (d : UInt8) :
    bs.getD j d ≠ 0 := by
  rw [List.getD_eq_getElem _ _ hj]
  exact fun h => h0 (h ▸ List.getElem_mem hj)

theorem strlen_write {cap : ℕ} {bs : List UInt8} (h0 : 0 ∉ bs) (hend : m bs.length = 0)
    (hcap : bs.length < cap) : strlen cap (write m 0 bs) = some bs.length := by
  refine strlen_eq_some_iff.mpr ⟨hcap, ?_, fun j hj => ?_⟩
  · rw [write_zero_apply, List.getD_eq_default _ _ (Nat.le_refl _), hend]
  · rw [write_zero_apply]
    exact getD_ne_zero h0 hj _

theorem strlen_write_eq_none {cap : ℕ} {bs : List UInt8} (h0 : 0 ∉ bs) (hcap : cap ≤ bs.length) :
    strlen cap (write m 0 bs) = none := by
  refine strlen_eq_none_iff.mpr fun j hj => ?_
  rw [write_zero_apply]
  exact getD_ne_zero h0 (Nat.lt_of_lt_of_le hj hcap) _

/-- `strcmp` on buffers of `i + k` octets that agree on the first `i`: whether the strings are
the same, nothing when they still agree at the end of the buffers. -/
def strcmp (m m' : Memory) (i : ℕ) : ℕ → Option Bool
  | 0 => none
  | k + 1 =>
    if m i ≠ m' i then some false
    else if m i = 0 then some true
    else strcmp m m' (i + 1) k

def cstr (bs : List UInt8) : List UInt8 := bs.takeWhile (· ≠ 0)

theorem cstr_eq_self {bs : List UInt8} (h0 : 0 ∉ bs) : cstr bs = bs :=
  List.takeWhile_eq_self_iff.mpr fun _ hb => decide_eq_true fun h => h0 (h ▸ hb)

theorem zero_notMem_cstr (bs : List UInt8) : 0 ∉ cstr bs := fun h => by
  have := List.mem_takeWhile_imp h
  simp at this

theorem cstr_eq_ite (bs : List UInt8) :
    cstr bs = if bs.getD 0 0 = 0 then [] else bs.getD 0 0 :: cstr bs.tail := by
  cases bs with
  | nil => rfl
  | cons b bs =>
    rw [List.getD_cons_zero, List.tail_cons]
    split_ifs with hb
    · rw [hb]
      rfl
    · exact List.takeWhile_cons_of_pos (decide_eq_true hb)

theorem cstr_eq_cstr_iff {a b : List UInt8} : cstr a = cstr b ↔
      a.getD 0 0 = b.getD 0 0 ∧ (a.getD 0 0 = 0 ∨ cstr a.tail = cstr b.tail) := by
  rw [cstr_eq_ite a, cstr_eq_ite b]
  split_ifs with ha hb hb
  · simp only [ha, hb, true_or, and_self]
  · exact ⟨False.elim, fun h => hb (h.1.symm.trans ha)⟩
  · exact ⟨False.elim, fun h => ha (h.1.trans hb)⟩
  · rw [List.cons.injEq, or_iff_right ha]

theorem getD_tail (bs : List UInt8) (j : ℕ) : bs.tail.getD j 0 = bs.getD (j + 1) 0 := by
  cases bs <;> rfl

/-- **Strings are the same if `strcmp` says so** -/
theorem strcmp_eq {i k : ℕ} {a b : List UInt8} (ha : ∀ j, m (i + j) = a.getD j 0)
    (hb : ∀ j, m' (i + j) = b.getD j 0) (hk : (cstr b).length < k) :
    strcmp m m' i k = some (decide (cstr a = cstr b)) := by
  induction k generalizing i a b with
  | zero => omega
  | succ k ih =>
    have hma : m i = a.getD 0 0 := ha 0
    have hmb : m' i = b.getD 0 0 := hb 0
    rw [strcmp, hma, hmb]
    simp only [cstr_eq_cstr_iff (a := a)]
    by_cases hhead : a.getD 0 0 = b.getD 0 0
    · rw [if_neg (not_not.mpr hhead)]
      by_cases hz : a.getD 0 0 = 0
      · rw [if_pos hz, decide_eq_true ⟨hhead, Or.inl hz⟩]
      · rw [cstr_eq_ite, if_neg (hhead ▸ hz), List.length_cons] at hk
        have hrec : strcmp m m' (i + 1) k = some (decide (cstr a.tail = cstr b.tail)) := by
          refine ih (fun j => ?_) (fun j => ?_) (by omega)
          · rw [Nat.add_assoc, Nat.add_comm 1, ha, getD_tail]
          · rw [Nat.add_assoc, Nat.add_comm 1, hb, getD_tail]
        rw [if_neg hz, hrec]
        refine congrArg some (decide_eq_decide.mpr ?_)
        exact ⟨fun h => ⟨hhead, Or.inr h⟩, fun h => h.2.resolve_left hz⟩
    · rw [if_pos hhead, decide_eq_false fun h => hhead h.1]

theorem strcmp_padded {cap : ℕ} {a b : List UInt8} (hcap : (cstr b).length < cap) :
    strcmp (padded a) (padded b) 0 cap = some (decide (cstr a = cstr b)) :=
  strcmp_eq (fun j => by rw [Nat.zero_add, padded_apply])
    (fun j => by rw [Nat.zero_add, padded_apply]) hcap

theorem update_padded_of_lt {bs : List UInt8} {j : ℕ} (b : UInt8) (h : j < bs.length) :
    update (padded bs) j b = padded (bs.set j b) := by
  funext i
  rw [update_apply, padded_apply, padded_apply, List.getD_eq_getElem?_getD,
    List.getD_eq_getElem?_getD, List.getElem?_set]
  by_cases hi : i = j
  · subst hi
    rw [if_pos rfl, if_pos rfl, if_pos h, Option.getD_some]
  · rw [if_neg hi, if_neg (Ne.symm hi)]

theorem update_padded_length (bs : List UInt8) (b : UInt8) :
    update (padded bs) bs.length b = padded (bs ++ [b]) := by
  rw [padded, padded, write_append, Nat.zero_add]
  rfl

theorem padded_concat_zero (bs : List UInt8) : padded (bs ++ [0]) = padded bs := by
  rw [← update_padded_length]
  refine update_eq_self_iff.mpr ?_
  rw [padded_apply, List.getD_eq_default _ _ (Nat.le_refl _)]

theorem update_padded_zero {bs : List UInt8} {j : ℕ} (h : bs.length ≤ j + 1) :
    update (padded bs) j 0 = padded (bs.take j) := by
  funext i
  rw [update_apply, padded_apply, padded_apply, List.getD_eq_getElem?_getD,
    List.getD_eq_getElem?_getD, List.getElem?_take]
  rcases Nat.lt_trichotomy i j with hi | rfl | hi
  · rw [if_neg (Nat.ne_of_lt hi), if_pos hi]
  · rw [if_pos rfl, if_neg (Nat.lt_irrefl i), Option.getD_none]
  · rw [if_neg (Nat.ne_of_gt hi), if_neg (Nat.lt_asymm hi), List.getElem?_eq_none (by omega)]

end Octets
