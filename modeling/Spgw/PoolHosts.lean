/-
# The hosts of a network and the pools

What `gen_pool` of `cpplib/ip_pool_mgmt.h` makes of a network whose mask is a run of ones.
-/

import Spgw.IpPool
import Mathlib.Algebra.Order.Ring.Nat
import Mathlib.Tactic.Ring

namespace Spgw

/-- A network: a mask of `len` ones and an address that is aligned to it. -/
structure Network where
  net : Ipv4
  len : ℕ
  len_le : len ≤ 32
  aligned : 2 ^ (32 - len) ∣ net.toNat

namespace Network

variable (n : Network)

def mask : Ipv4 := .ofNat (2 ^ 32 - 2 ^ (32 - n.len))

def size : ℕ := 2 ^ (32 - n.len)

/-- Neither the network address nor the broadcast address. -/
def IsHost (a : Ipv4) : Prop := n.net.toNat < a.toNat ∧ a.toNat + 1 < n.net.toNat + n.size

instance (a : Ipv4) : Decidable (n.IsHost a) := inferInstanceAs (Decidable (_ ∧ _))

theorem end_le : n.net.toNat + n.size ≤ 2 ^ 32 := by
  have hsplit : 2 ^ 32 = 2 ^ n.len * n.size := by
    rw [size, ← Nat.pow_add, Nat.add_sub_cancel' n.len_le]
  obtain ⟨q, hq⟩ := n.aligned
  have hlt : n.size * q < n.size * 2 ^ n.len := by
    rw [size, ← hq, Nat.mul_comm, ← size, ← hsplit]
    exact n.net.toNat_lt
  calc n.net.toNat + n.size = n.size * (q + 1) := by rw [hq, size]; ring
    _ ≤ n.size * 2 ^ n.len := Nat.mul_le_mul_left _ (Nat.lt_of_mul_lt_mul_left hlt)
    _ = 2 ^ 32 := by rw [hsplit, Nat.mul_comm]

theorem mem_hosts {a : Ipv4} :
    a ∈ (List.range' 1 (n.size - 2)).map (fun i => n.net + .ofNat i) ↔ n.IsHost a := by
  have hend := n.end_le
  simp only [List.mem_map, List.mem_range'_1]
  constructor
  · rintro ⟨i, hi, rfl⟩
    have : (n.net + .ofNat i).toNat = n.net.toNat + i := by
      rw [UInt32.toNat_add, UInt32.toNat_ofNat']
      omega
    rw [IsHost, this]
    omega
  · rintro ⟨hlow, hhigh⟩
    refine ⟨a.toNat - n.net.toNat, by omega, UInt32.toNat_inj.mp ?_⟩
    rw [UInt32.toNat_add, UInt32.toNat_ofNat']
    omega

end Network

theorem totalAddressLoop_mask_zero (fuel total : ℕ) : totalAddressLoop fuel 0 total = none := by
  induction fuel generalizing total with
  | zero => rfl
  | succ fuel ih => exact ih _

theorem totalAddressLoop_shifted {m : ℕ} (hm : m % 2 = 1) {k fuel total : ℕ} (hk : k < fuel)
    (htotal : total < 2 ^ 32) :
    totalAddressLoop fuel (m * 2 ^ k) total = some (total * 2 ^ k % 2 ^ 32) := by
  induction k generalizing fuel total with
  | zero =>
    obtain ⟨fuel, rfl⟩ := Nat.exists_eq_succ_of_ne_zero (Nat.ne_of_gt hk)
    have hodd : ¬ m * 2 ^ 0 % 2 = 0 := by omega
    rw [totalAddressLoop, if_neg hodd, Nat.pow_zero, Nat.mul_one, Nat.mod_eq_of_lt htotal]
  | succ k ih =>
    obtain ⟨fuel, rfl⟩ := Nat.exists_eq_succ_of_ne_zero (Nat.ne_of_gt (Nat.zero_lt_of_lt hk))
    have hstep : m * 2 ^ (k + 1) = 2 * (m * 2 ^ k) := by ring
    have heven : m * 2 ^ (k + 1) % 2 = 0 := by omega
    have hhalf : m * 2 ^ (k + 1) / 2 = m * 2 ^ k := by omega
    rw [totalAddressLoop, if_pos heven, hhalf,
      ih (Nat.lt_of_succ_lt_succ hk) (Nat.mod_lt _ (Nat.two_pow_pos 32)), Nat.mod_mul_mod]
    congr 2
    ring

theorem totalAddress_mask {n : Network} (h : n.len ≠ 0) : totalAddress n.mask = some n.size := by
  have hlen := n.len_le
  have hsize : n.size < 2 ^ 32 := Nat.pow_lt_pow_right Nat.one_lt_two (by omega)
  have hpos : 0 < n.size := Nat.two_pow_pos _
  -- The ones of the mask, shifted by its zeros.
  have hmask : n.mask.toNat = (2 ^ n.len - 1) * 2 ^ (32 - n.len) := by
    rw [Network.mask, UInt32.toNat_ofNat', Nat.sub_mul, ← Nat.pow_add, Nat.add_sub_cancel' hlen,
      Nat.one_mul]
    exact Nat.mod_eq_of_lt (Nat.sub_lt (Nat.two_pow_pos 32) hpos)
  have hodd : (2 ^ n.len - 1) % 2 = 1 := by
    obtain ⟨l, hl⟩ := Nat.exists_eq_succ_of_ne_zero h
    have := Nat.two_pow_pos l
    rw [hl, Nat.pow_succ]
    omega
  rw [totalAddress, hmask, totalAddressLoop_shifted hodd (by omega) (by decide), Nat.one_mul,
    ← Network.size, Nat.mod_eq_of_lt hsize]

namespace Network

variable (n : Network)

/-- `gen_pool` returns, and the queue has every host once and nothing else. -/
def FillsPool : Prop :=
  ∃ pool, genPool n.net n.mask = some pool ∧ pool.Nodup ∧ ∀ a, a ∈ pool ↔ n.IsHost a

theorem mem_hostAddresses {n : Network} (h : 2 ≤ n.size) {a : Ipv4} :
    a ∈ hostAddresses n.net n.size ↔ n.IsHost a := by
  have hend := n.end_le
  have hcount : (n.size + (2 ^ 32 - 2)) % 2 ^ 32 = n.size - 2 := by omega
  rw [hostAddresses, hcount, List.map_reverse, List.mem_reverse, n.mem_hosts]

theorem mem_hostAddresses_single {n : Network} (h : n.size = 1) :
    n.net + 1 ∈ hostAddresses n.net n.size := by
  rw [hostAddresses, h, List.map_reverse, List.mem_reverse, List.mem_map]
  exact ⟨1, List.mem_range'_1.mpr (by decide), rfl⟩

/-- **The dynamic pool has the hosts of its network exactly if the mask has between 1 and 31 ones.**
-/
theorem fillsPool_iff : n.FillsPool ↔ 1 ≤ n.len ∧ n.len ≤ 31 := by
  have hlen := n.len_le
  constructor
  · rintro ⟨pool, hpool, -, hmem⟩
    by_contra hout
    by_cases hzero : n.len = 0
    · have hmask : n.mask = 0 := by simp [mask, hzero]
      simp [genPool, totalAddress, hmask, totalAddressLoop_mask_zero] at hpool
    · have hsize : n.size = 1 := by
        rw [size, show 32 - n.len = 0 by omega, Nat.pow_zero]
      rw [genPool, totalAddress_mask hzero, Option.map_some, Option.some.injEq] at hpool
      have hhost : n.IsHost (n.net + 1) := (hmem _).mp (hpool ▸ mem_hostAddresses_single hsize)
      have := hhost.1
      have := hhost.2
      omega
  · rintro ⟨hone, hmax⟩
    have hsize : 2 ≤ n.size := Nat.pow_le_pow_right Nat.two_pos (by omega : 1 ≤ 32 - n.len)
    exact ⟨hostAddresses n.net n.size, by rw [genPool, totalAddress_mask (by omega), Option.map_some],
      nodup_hostAddresses n.net n.size, fun a => mem_hostAddresses hsize⟩

theorem zero_le_bits : 0 ≤ 32 := by decide

theorem zero_aligned : 2 ^ (32 - 0) ∣ (0 : Ipv4).toNat := by decide

def everything : Network := ⟨0, 0, zero_le_bits, zero_aligned⟩

theorem single_aligned : 2 ^ (32 - 32) ∣ (0x0a000001 : Ipv4).toNat := by decide

def single : Network := ⟨0x0a000001, 32, Nat.le_refl 32, single_aligned⟩

/-- For 0.0.0.0/0 the generation does not end; for 10.0.0.1/32 the pool has 10.0.0.2. -/
theorem not_fillsPool_extreme : ¬ everything.FillsPool ∧ ¬ single.FillsPool ∧
    genPool everything.net everything.mask = none ∧
    ∃ pool, genPool single.net single.mask = some pool ∧ 0x0a000002 ∈ pool := by
  have hnone : genPool everything.net everything.mask = none := by decide
  have hmem : 0x0a000002 ∈ hostAddresses single.net single.size := mem_hostAddresses_single rfl
  have hpool : genPool single.net single.mask = some (hostAddresses single.net single.size) := rfl
  refine ⟨?_, ?_, hnone, _, hpool, hmem⟩
  · rintro ⟨pool, hsome, -⟩
    cases hnone.symm.trans hsome
  · rintro ⟨pool, hsome, -, hhosts⟩
    obtain rfl := Option.some.inj (hpool.symm.trans hsome)
    exact absurd ((hhosts _).mp hmem).2 (by decide)

end Network

namespace StaticPool

theorem used?_addIpaddrs_eq (addrs : List Ipv4) (a : Ipv4) :
    used? ⟨some (addIpaddrs addrs)⟩ a = if a ∈ addrs then some false else none := by
  suffices h : ∀ t : IpTable, (addrs.foldl (fun t a => t.insert false (octets a)) t).find? (octets a) =
      if a ∈ addrs then some ((t.find? (octets a)).getD false) else t.find? (octets a) by
    exact h (.leaf false)
  intro t
  induction addrs generalizing t with
  | nil => rfl
  | cons b addrs ih =>
    rw [List.foldl_cons, ih]
    by_cases hab : b = a
    · subst hab
      simp [Trie.find?_insert_self]
    · have hne : octets b ≠ octets a := fun h => hab (octets_injective h)
      have hskip := t.find?_insert_of_ne (v := false) (p := octets b) (q := octets a) rfl hne
      simp [hskip, Ne.symm hab]

inductive Call
  | reserve (a : Ipv4)
  | release (a : Ipv4)

/-- `reserve_ip_node` and `release_ip_node`. -/
def call (pool : StaticPool) : Call → Bool × StaticPool
  | .reserve a => pool.reserveIpNode a
  | .release a => pool.releaseIpNode a

def after (pool : StaticPool) (calls : List Call) : StaticPool :=
  calls.foldl (fun pool c => (pool.call c).2) pool

def Call.mark (a : Ipv4) (marked : Bool) : Call → Bool
  | .reserve b => if b = a then true else marked
  | .release b => if b = a then false else marked

def marked (calls : List Call) (a : Ipv4) : Bool := calls.foldl (Call.mark a) false

/-- The pool has the hosts, each with its mark. -/
def Marks (n : Network) (mark : Ipv4 → Bool) (pool : StaticPool) : Prop :=
  ∀ a, pool.used? a = if n.IsHost a then some (mark a) else none

theorem marks_gen {n : Network} (h : n.len ≠ 0) :
    ∃ pool, gen n.net n.mask = some pool ∧ Marks n (fun _ => false) pool := by
  refine ⟨⟨some (addIpaddrs (hosts n.net n.size))⟩, ?_, fun a => ?_⟩
  · rw [gen, totalAddress_mask h, Option.map_some]
  · have hend := n.end_le
    have hpos : 0 < n.size := Nat.two_pow_pos _
    have hcount : (n.size + (2 ^ 32 - 1)) % 2 ^ 32 - 1 = n.size - 2 := by omega
    rw [used?_addIpaddrs_eq]
    refine if_congr ?_ rfl rfl
    rw [hosts, hcount, n.mem_hosts]

theorem Marks.call {n : Network} {mark : Ipv4 → Bool} {pool : StaticPool} (h : Marks n mark pool)
    (c : Call) : Marks n (fun a => c.mark a (mark a)) (pool.call c).2 := by
  intro b
  cases c with
  | reserve a =>
    have ha := h a
    by_cases hhost : n.IsHost a <;> cases hmark : mark a <;> by_cases hab : a = b <;>
      simp_all [StaticPool.call, reserveIpNode, Call.mark, used?_setUsed, Marks]
  | release a =>
    have ha := h a
    by_cases hhost : n.IsHost a <;> cases hmark : mark a <;> by_cases hab : a = b <;>
      simp_all [StaticPool.call, releaseIpNode, Call.mark, used?_setUsed, Marks]

theorem Marks.after {n : Network} {mark : Ipv4 → Bool} {pool : StaticPool} (h : Marks n mark pool)
    (calls : List Call) : Marks n (fun a => calls.foldl (Call.mark a) (mark a)) (pool.after calls) := by
  induction calls generalizing mark pool with
  | nil => exact h
  | cons c calls ih => exact ih (h.call c)

theorem Marks.reserve {n : Network} {mark : Ipv4 → Bool} {pool : StaticPool} (h : Marks n mark pool)
    (a : Ipv4) : (pool.reserveIpNode a).1 = true ↔ n.IsHost a ∧ mark a = false := by
  rw [reserveIpNode, h a]
  by_cases hhost : n.IsHost a <;> cases mark a <;> simp [hhost]

theorem Marks.release {n : Network} {mark : Ipv4 → Bool} {pool : StaticPool} (h : Marks n mark pool)
    (a : Ipv4) : (pool.releaseIpNode a).1 = true ↔ n.IsHost a ∧ mark a = true := by
  rw [releaseIpNode, h a]
  by_cases hhost : n.IsHost a <;> cases mark a <;> simp [hhost]

/-- **The static pool is the set of the hosts of its network with marks.** -/
theorem gen_refines_marks (n : Network) (h : 1 ≤ n.len) :
    ∃ pool, gen n.net n.mask = some pool ∧ ∀ calls a,
      (((pool.after calls).reserveIpNode a).1 = true ↔ n.IsHost a ∧ marked calls a = false) ∧
      (((pool.after calls).releaseIpNode a).1 = true ↔ n.IsHost a ∧ marked calls a = true) ∧
      ∀ b ≠ a, ((pool.after calls).reserveIpNode a).2.used? b = (pool.after calls).used? b ∧
        ((pool.after calls).releaseIpNode a).2.used? b = (pool.after calls).used? b := by
  obtain ⟨pool, hgen, hmarks⟩ := marks_gen (Nat.ne_of_gt h)
  refine ⟨pool, hgen, fun calls a => ?_⟩
  have hafter := hmarks.after calls
  refine ⟨hafter.reserve a, hafter.release a, fun b hb => ⟨?_, ?_⟩⟩
  · refine (hafter.call (.reserve a) b).trans ?_
    rw [hafter b]
    simp [Call.mark, Ne.symm hb]
  · refine (hafter.call (.release a) b).trans ?_
    rw [hafter b]
    simp [Call.mark, Ne.symm hb]

theorem thirty_le : 30 ≤ 32 := by decide

theorem small_aligned : 2 ^ (32 - 30) ∣ (0x0a000000 : Ipv4).toNat := by decide

def smallNetwork : Network := ⟨0x0a000000, 30, thirty_le, small_aligned⟩

/-- In 10.0.0.0/30 the address 10.0.0.1 can be reserved, and the last address cannot. -/
theorem gen_refines_marks_small : ∃ pool, gen smallNetwork.net smallNetwork.mask = some pool ∧
      ((pool.after []).reserveIpNode 0x0a000001).1 = true ∧
      ¬ ((pool.after []).reserveIpNode 0x0a000003).1 = true := by
  obtain ⟨pool, hgen, h⟩ := gen_refines_marks smallNetwork (by decide)
  refine ⟨pool, hgen, (h [] _).1.mpr (by decide), fun hres => ?_⟩
  exact absurd ((h [] _).1.mp hres).1 (by decide)

end StaticPool

end Spgw
