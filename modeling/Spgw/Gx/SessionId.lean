/-
# The session id of Gx

`gen_sess_id_string` and `retrieve_call_id` of `cp/gx/gx_interface.c`, with `int_to_str` of
`cp/pfcp/common/pfcp_init.c`: a timestamp of fourteen characters followed by the call id in decimal.
-/

import Mathlib.Data.List.TakeWhile
import Mathlib.Data.UInt
import Mathlib.Algebra.Ring.Nat

namespace Spgw.Gx

/-- The first loop of `int_to_str`: the digits of `val`, the last one first. -/
def tmpBuf : ℕ → ℕ → List UInt8
  | 0, _ => []
  | turns + 1, val => if val = 0 then [] else .ofNat (val % 10 + 48) :: tmpBuf turns (val / 10)

/-- The second loop, up to the terminator. That of a number of ten digits is in the octet behind
`tmp_buf`, which nothing else uses. -/
def intToStr (val : ℕ) : List UInt8 := (tmpBuf 10 val).reverse

def genSessIdString (timestamp : List UInt8) (value : ℕ) : Option (List UInt8) :=
  if intToStr value = [] then none else some (timestamp ++ intToStr value)

/-- `atoi` on a string that starts with digits: their decimal value modulo `2 ^ 32`. -/
def atoi (s : List UInt8) : ℕ :=
  (s.takeWhile fun c => 48 ≤ c ∧ c ≤ 57).foldl (fun v c => v * 10 + (c.toNat - 48)) 0 % 2 ^ 32

/-- `retrieve_call_id` on a string of at least `TIMESTAMP_LEN` characters; none if it returns -1. -/
def retrieveCallId (str : List UInt8) : Option ℕ :=
  let callId := atoi (str.drop 14)
  if callId = 0 then none else some callId

/-- A call id: a `uint32_t` other than 0. -/
structure CallId where
  val : ℕ
  pos : 0 < val
  lt : val < 2 ^ 32

structure Timestamp where
  chars : List UInt8
  length_eq : chars.length = 14

theorem toNat_digit (val : ℕ) : (UInt8.ofNat (val % 10 + 48)).toNat = val % 10 + 48 := by
  rw [UInt8.toNat_ofNat']
  omega

theorem digit_of_mem_tmpBuf {turns val : ℕ} {c : UInt8} (h : c ∈ tmpBuf turns val) :
    48 ≤ c ∧ c ≤ 57 := by
  induction turns generalizing val with
  | zero => simp [tmpBuf] at h
  | succ turns ih =>
    by_cases hval : val = 0
    · simp [tmpBuf, hval] at h
    · rw [tmpBuf, if_neg hval, List.mem_cons] at h
      rcases h with rfl | h
      · simp only [UInt8.le_iff_toNat_le, toNat_digit]
        exact ⟨Nat.le_add_left _ _, by simp; omega⟩
      · exact ih h

theorem foldl_reverse_tmpBuf {turns val : ℕ} (h : val < 10 ^ turns) :
    (tmpBuf turns val).reverse.foldl (fun v c => v * 10 + (c.toNat - 48)) 0 = val := by
  induction turns generalizing val with
  | zero =>
    have : val = 0 := by simpa using h
    simp [tmpBuf, this]
  | succ turns ih =>
    by_cases hval : val = 0
    · simp [tmpBuf, hval]
    · have hdiv : val / 10 < 10 ^ turns := by
        rw [Nat.pow_succ] at h
        omega
      rw [tmpBuf, if_neg hval, List.reverse_cons, List.foldl_append, ih hdiv, List.foldl_cons,
        List.foldl_nil, toNat_digit]
      omega

theorem atoi_intToStr {val : ℕ} (h : val < 2 ^ 32) : atoi (intToStr val) = val := by
  have hdigits : (intToStr val).takeWhile (fun c => 48 ≤ c ∧ c ≤ 57) = intToStr val := by
    rw [List.takeWhile_eq_self_iff]
    intro c hc
    exact decide_eq_true (digit_of_mem_tmpBuf (List.mem_reverse.mp hc))
  rw [atoi, hdigits, intToStr, foldl_reverse_tmpBuf (Nat.lt_trans h (by decide)), Nat.mod_eq_of_lt h]

theorem genSessIdString_eq (ts : Timestamp) (id : CallId) :
    genSessIdString ts.chars id.val = some (ts.chars ++ intToStr id.val) := by
  have hne : intToStr id.val ≠ [] := by
    intro h
    have hatoi := atoi_intToStr id.lt
    rw [h] at hatoi
    exact Nat.ne_of_lt id.pos hatoi
  rw [genSessIdString, if_neg hne]

theorem retrieve_append (ts : Timestamp) (id : CallId) :
    retrieveCallId (ts.chars ++ intToStr id.val) = some id.val := by
  have hdrop : (ts.chars ++ intToStr id.val).drop 14 = intToStr id.val := by
    rw [← ts.length_eq, List.drop_left]
  simp only [retrieveCallId, hdrop, atoi_intToStr id.lt, if_neg (Nat.ne_of_gt id.pos)]

/-- **Every call id comes back from its session id**, so that no two call ids share one. -/
theorem retrieve_genSessId (ts : Timestamp) (id : CallId) :
    (genSessIdString ts.chars id.val).bind retrieveCallId = some id.val ∧
      ∀ id' : CallId, genSessIdString ts.chars id.val = genSessIdString ts.chars id'.val →
        id.val = id'.val := by
  refine ⟨?_, fun id' hsame => ?_⟩
  · rw [genSessIdString_eq, Option.bind_some, retrieve_append]
  · rw [genSessIdString_eq, genSessIdString_eq, Option.some.injEq] at hsame
    have hback := retrieve_append ts id'
    rw [← hsame, retrieve_append ts id, Option.some.injEq] at hback
    exact hback

end Spgw.Gx
