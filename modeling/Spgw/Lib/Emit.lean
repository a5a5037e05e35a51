/-
# Writing nested elements into a buffer

An *element* is a header, with a type and a length of two octets each, and what belongs to it:
octets, or, in a group, further elements.
-/

import Mathlib.Tactic.Cases
import Spgw.Lib.Octets

namespace Emit

open Octets

def twoOctets (n : ℕ) : List UInt8 := [UInt8.ofNat (n / 256), UInt8.ofNat n]

def ofTwo (a b : UInt8) : ℕ := a.toNat * 256 + b.toNat

theorem ofTwo_ofNat {n : ℕ} (h : n < 65536) : ofTwo (UInt8.ofNat (n / 256)) (UInt8.ofNat n) = n := by
  simp only [ofTwo, UInt8.toNat_ofNat']
  omega

def packed (fields : List (ℕ × ℕ)) : List UInt8 :=
  (littleEndian ((fields.map Prod.fst).sum / 8)
    (fields.foldl (fun acc field => acc * 2 ^ field.1 + field.2 % 2 ^ field.1) 0)).reverse

@[simp]
theorem length_packed (fields : List (ℕ × ℕ)) :
    (packed fields).length = (fields.map Prod.fst).sum / 8 := by
  rw [packed, List.length_reverse, length_littleEndian]

inductive Elements
  | nil
  | leaf (type len : ℕ) (payload : List UInt8) (rest : Elements)
  | group (type len : ℕ) (inner : Elements) (rest : Elements)

def header (type len : ℕ) : List UInt8 := twoOctets type ++ twoOctets len

theorem length_header (type len : ℕ) : (header type len).length = 4 := rfl

namespace Elements

def append : Elements → Elements → Elements
  | .nil, others => others
  | .leaf type len payload rest, others => .leaf type len payload (rest.append others)
  | .group type len inner rest, others => .group type len inner (rest.append others)

instance : Append Elements := ⟨append⟩

def join : List Elements → Elements
  | [] => .nil
  | e :: es => e ++ join es

def octets : Elements → List UInt8
  | .nil => []
  | .leaf type len payload rest =>
    (if len = 0 then [] else header type len ++ payload) ++ rest.octets
  | .group type len inner rest =>
    (if len = 0 then [] else header type len ++ inner.octets) ++ rest.octets

def prune : Elements → Elements
  | .nil => .nil
  | .leaf type len payload rest =>
    if len = 0 then rest.prune else .leaf type len payload rest.prune
  | .group type len inner rest =>
    if len = 0 then rest.prune else .group type len inner.prune rest.prune

def size : Elements → ℕ
  | .nil => 0
  | .leaf _ len _ rest => (if len = 0 then 0 else len + 4) + rest.size
  | .group _ len _ rest => (if len = 0 then 0 else len + 4) + rest.size

def WellFormed (isGroup : ℕ → Bool) : Elements → Prop
  | .nil => True
  | .leaf type len payload rest =>
    (len = 0 ∨ len = payload.length ∧ type < 65536 ∧ isGroup type = false) ∧ rest.WellFormed isGroup
  | .group type len inner rest =>
    (len = 0 ∨ len = inner.octets.length ∧ type < 65536 ∧ isGroup type = true ∧
      inner.WellFormed isGroup) ∧ rest.WellFormed isGroup

section Append

variable {isGroup : ℕ → Bool} {e e' : Elements}

@[simp]
theorem leaf_append (type len : ℕ) (payload : List UInt8) (rest e : Elements) :
    Elements.leaf type len payload rest ++ e = .leaf type len payload (rest ++ e) := rfl

@[simp]
theorem group_append (type len : ℕ) (inner rest e : Elements) :
    Elements.group type len inner rest ++ e = .group type len inner (rest ++ e) := rfl

@[simp]
theorem size_append (e e' : Elements) : (e ++ e').size = e.size + e'.size := by
  induction e with
  | nil => exact (Nat.zero_add _).symm
  | leaf type len payload rest ih => rw [leaf_append, size, size, ih, Nat.add_assoc]
  | group type len inner rest _ ih => rw [group_append, size, size, ih, Nat.add_assoc]

@[simp]
theorem wellFormed_append :
    (e ++ e').WellFormed isGroup ↔ e.WellFormed isGroup ∧ e'.WellFormed isGroup := by
  induction e with
  | nil => exact (and_iff_right trivial).symm
  | leaf type len payload rest ih => rw [leaf_append, WellFormed, WellFormed, ih, and_assoc]
  | group type len inner rest _ ih => rw [group_append, WellFormed, WellFormed, ih, and_assoc]

theorem wellFormed_join {es : List Elements} :
    (join es).WellFormed isGroup ↔ ∀ e ∈ es, e.WellFormed isGroup := by
  induction es with
  | nil => exact iff_of_true trivial (by simp)
  | cons e es ih => rw [join, wellFormed_append, ih, List.forall_mem_cons]

theorem size_join (es : List Elements) : (join es).size = (es.map size).sum := by
  induction es with
  | nil => rfl
  | cons e es ih => rw [join, size_append, ih, List.map_cons, List.sum_cons]

theorem WellFormed.length_octets (h : e.WellFormed isGroup) : e.octets.length = e.size := by
  induction e with
  | nil => rfl
  | leaf type len payload rest ih =>
    rw [octets, size, List.length_append, ih h.2]
    by_cases hlen : len = 0
    · rw [if_pos hlen, if_pos hlen, List.length_nil]
    · obtain ⟨heq, -⟩ := h.1.resolve_left hlen
      rw [if_neg hlen, if_neg hlen, List.length_append, length_header, ← heq, Nat.add_comm 4]
  | group type len inner rest _ ih =>
    rw [octets, size, List.length_append, ih h.2]
    by_cases hlen : len = 0
    · rw [if_pos hlen, if_pos hlen, List.length_nil]
    · obtain ⟨heq, -⟩ := h.1.resolve_left hlen
      rw [if_neg hlen, if_neg hlen, List.length_append, length_header, ← heq, Nat.add_comm 4]

end Append

def put (limit : ℕ) (m : Memory) (off : ℕ) (bs : List UInt8) : Option (Memory × ℕ) :=
  if off + bs.length ≤ limit then some (Octets.write m off bs, 8 * bs.length % 65536) else none

/-- The elements of a group that begins at `base`, of which `count` bits have been written. -/
def write (limit : ℕ) : Elements → Memory → ℕ → ℕ → Option (Memory × ℕ)
  | .nil, m, _, count => some (m, count)
  | .leaf type len payload rest, m, base, count =>
    if len = 0 then rest.write limit m base count
    else do
      let (m, n) ← put limit m (base + count / 8) (header type len ++ payload)
      rest.write limit m base ((count + n) % 65536)
  | .group type len inner rest, m, base, count =>
    if len = 0 then rest.write limit m base count
    else do
      let (m, n) ← put limit m (base + count / 8) (header type len)
      let (m, n) ← inner.write limit m (base + count / 8) n
      rest.write limit m base ((count + n) % 65536)

/-- The elements of a message, of which `count` octets have been written. -/
def send (limit : ℕ) : Elements → Memory → ℕ → Option (Memory × ℕ)
  | .nil, m, count => some (m, count)
  | .leaf type len payload rest, m, count =>
    if len = 0 then rest.send limit m count
    else do
      let (m, n) ← put limit m count (header type len ++ payload)
      rest.send limit m ((count + n / 8) % 65536)
  | .group type len inner rest, m, count =>
    if len = 0 then rest.send limit m count
    else do
      let (m, n) ← put limit m count (header type len)
      let (m, n) ← inner.write limit m count n
      rest.send limit m ((count + n / 8) % 65536)

section Write

variable {limit : ℕ}

def wrote (limit : ℕ) (m : Memory) (off : ℕ) (bs : List UInt8) (n : ℕ) : Option (Memory × ℕ) :=
  if off + bs.length ≤ limit then some (Octets.write m off bs, n) else none

theorem put_eq (hlimit : limit < 8192) (m : Memory) (off : ℕ) (bs : List UInt8) :
    put limit m off bs = wrote limit m off bs (8 * bs.length) := by
  unfold put wrote
  split_ifs with h
  · rw [Nat.mod_eq_of_lt (by omega)]
  · rfl

theorem wrote_bind {m : Memory} {off n n' : ℕ} {bs bs' : List UInt8} {x : Option (Memory × ℕ)}
    {f : Memory × ℕ → Option (Memory × ℕ)} (hx : x = wrote limit m off bs n)
    (hf : off + bs.length ≤ limit → f (Octets.write m off bs, n) =
      wrote limit (Octets.write m off bs) (off + bs.length) bs' n') :
    (x >>= f) = wrote limit m off (bs ++ bs') n' := by
  rw [hx, wrote, wrote, List.length_append, ← Nat.add_assoc, Octets.write_append]
  by_cases hroom : off + bs.length ≤ limit
  · rw [if_pos hroom]
    exact hf hroom
  · rw [if_neg hroom, if_neg (by omega)]
    rfl

theorem write_eq (hlimit : limit < 8192) (e : Elements) (m : Memory) (base k : ℕ)
    (hk : base + k ≤ limit) :
    e.write limit m base (8 * k) =
      wrote limit m (base + k) e.octets (8 * (k + e.octets.length)) := by
  induction e generalizing m base k with
  | nil =>
    rw [octets, wrote, List.length_nil, Nat.add_zero, if_pos hk]
    rfl
  | leaf type len payload rest ih =>
    rw [write, octets]
    by_cases hlen : len = 0
    · rw [if_pos hlen, if_pos hlen, List.nil_append]
      exact ih m base k hk
    · rw [if_neg hlen, if_neg hlen, Nat.mul_div_cancel_left k (by decide)]
      generalize header type len ++ payload = bs
      refine wrote_bind (put_eq hlimit m _ bs) fun hroom => ?_
      have hcount : (8 * k + 8 * bs.length) % 65536 = 8 * (k + bs.length) := by omega
      change rest.write limit _ base ((8 * k + 8 * bs.length) % 65536) = _
      rw [hcount, ih _ base _ (by omega), List.length_append]
      simp only [Nat.add_assoc]
  | group type len inner rest ihInner ihRest =>
    rw [write, octets]
    by_cases hlen : len = 0
    · rw [if_pos hlen, if_pos hlen, List.nil_append]
      exact ihRest m base k hk
    · rw [if_neg hlen, if_neg hlen, Nat.mul_div_cancel_left k (by decide), List.append_assoc]
      refine wrote_bind (put_eq hlimit m _ (header type len)) fun hroom => ?_
      refine wrote_bind (ihInner _ (base + k) 4 hroom) fun hinner => ?_
      rw [length_header] at hinner
      have hcount : (8 * k + 8 * (4 + inner.octets.length)) % 65536 =
          8 * (k + 4 + inner.octets.length) := by omega
      change rest.write limit _ base ((8 * k + 8 * (4 + inner.octets.length)) % 65536) = _
      rw [hcount, ihRest _ base _ (by omega), List.length_append, List.length_append, length_header]
      simp only [Nat.add_assoc]

theorem send_eq (hlimit : limit < 8192) (e : Elements) (m : Memory) (count : ℕ)
    (hcount : count ≤ limit) :
    e.send limit m count = wrote limit m count e.octets (count + e.octets.length) := by
  induction e generalizing m count with
  | nil =>
    rw [octets, wrote, List.length_nil, Nat.add_zero, if_pos hcount]
    rfl
  | leaf type len payload rest ih =>
    rw [send, octets]
    by_cases hlen : len = 0
    · rw [if_pos hlen, if_pos hlen, List.nil_append]
      exact ih m count hcount
    · rw [if_neg hlen, if_neg hlen]
      generalize header type len ++ payload = bs
      refine wrote_bind (put_eq hlimit m _ bs) fun hroom => ?_
      have hnext : (count + 8 * bs.length / 8) % 65536 = count + bs.length := by omega
      change rest.send limit _ ((count + 8 * bs.length / 8) % 65536) = _
      rw [hnext, ih _ _ hroom, List.length_append, Nat.add_assoc]
  | group type len inner rest _ ihRest =>
    rw [send, octets]
    by_cases hlen : len = 0
    · rw [if_pos hlen, if_pos hlen, List.nil_append]
      exact ihRest m count hcount
    · rw [if_neg hlen, if_neg hlen, List.append_assoc]
      refine wrote_bind (put_eq hlimit m _ (header type len)) fun hroom => ?_
      refine wrote_bind (write_eq hlimit inner _ count 4 hroom) fun hinner => ?_
      rw [length_header] at hinner
      have hnext : (count + 8 * (4 + inner.octets.length) / 8) % 65536 =
          count + 4 + inner.octets.length := by omega
      change rest.send limit _ ((count + 8 * (4 + inner.octets.length) / 8) % 65536) = _
      rw [hnext, ihRest _ _ hinner, List.length_append, List.length_append, length_header]
      simp only [Nat.add_assoc]

end Write

def parse (isGroup : ℕ → Bool) : ℕ → List UInt8 → Option Elements
  | _, [] => some .nil
  | fuel + 1, t :: t' :: l :: l' :: octets =>
    let type := ofTwo t t'
    let len := ofTwo l l'
    if octets.length < len then none
    else if isGroup type then do
      let inner ← parse isGroup fuel (octets.take len)
      let rest ← parse isGroup fuel (octets.drop len)
      return .group type len inner rest
    else do
      let rest ← parse isGroup fuel (octets.drop len)
      return .leaf type len (octets.take len) rest
  | _, _ => none

theorem parse_header {isGroup : ℕ → Bool} {fuel type : ℕ} (body octets : List UInt8)
    (htype : type < 65536) (hlen : body.length < 65536) :
    parse isGroup (fuel + 1) (header type body.length ++ body ++ octets) =
      if isGroup type then do
        let inner ← parse isGroup fuel body
        let rest ← parse isGroup fuel octets
        return .group type body.length inner rest
      else do
        let rest ← parse isGroup fuel octets
        return .leaf type body.length body rest := by
  change parse isGroup (fuel + 1) (_ :: _ :: _ :: _ :: (body ++ octets)) = _
  rw [parse, ofTwo_ofNat htype, ofTwo_ofNat hlen]
  simp

theorem parse_octets {isGroup : ℕ → Bool} {e : Elements} (h : e.WellFormed isGroup)
    (hlength : e.octets.length < 65536) {fuel : ℕ} (hfuel : e.octets.length ≤ fuel) :
    parse isGroup fuel e.octets = some e.prune := by
  induction e generalizing fuel with
  | nil => cases fuel <;> rfl
  | leaf type len payload rest ih =>
    rw [octets, prune]
    rw [octets, List.length_append] at hlength hfuel
    by_cases hlen : len = 0
    · rw [if_pos hlen, if_pos hlen, List.nil_append]
      rw [if_pos hlen, List.length_nil, Nat.zero_add] at hlength hfuel
      exact ih h.2 hlength hfuel
    · obtain ⟨rfl, htype, hkind⟩ := h.1.resolve_left hlen
      rw [if_neg hlen, List.length_append, length_header] at hlength hfuel
      obtain ⟨fuel, rfl⟩ : ∃ n, fuel = n + 1 := ⟨fuel - 1, by omega⟩
      rw [if_neg hlen, if_neg hlen, parse_header payload _ htype (by omega), hkind,
        if_neg Bool.false_ne_true, ih h.2 (by omega) (by omega)]
      rfl
  | group type len inner rest ihInner ihRest =>
    rw [octets, prune]
    rw [octets, List.length_append] at hlength hfuel
    by_cases hlen : len = 0
    · rw [if_pos hlen, if_pos hlen, List.nil_append]
      rw [if_pos hlen, List.length_nil, Nat.zero_add] at hlength hfuel
      exact ihRest h.2 hlength hfuel
    · obtain ⟨rfl, htype, hkind, hinner⟩ := h.1.resolve_left hlen
      rw [if_neg hlen, List.length_append, length_header] at hlength hfuel
      obtain ⟨fuel, rfl⟩ : ∃ n, fuel = n + 1 := ⟨fuel - 1, by omega⟩
      rw [if_neg hlen, if_neg hlen, parse_header inner.octets _ htype (by omega), hkind,
        if_pos rfl, ihInner hinner (by omega) (by omega), ihRest h.2 (by omega) (by omega)]
      rfl

end Elements

end Emit
