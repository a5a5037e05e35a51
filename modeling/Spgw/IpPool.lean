/-
# The two pools of UE addresses

`cpplib/ip_pool_mgmt.h` keeps a queue of dynamic addresses (`ue_dynamic_pool`) and a tree of static
ones, one level per octet, whose leaves carry a `used` flag (`ue_static_pool`).
-/

import Mathlib.Data.List.Nodup
import Mathlib.Data.UInt
import Spgw.Lib.Trie

namespace Spgw

/-- An IPv4 address, as `uint32_t`. -/
abbrev Ipv4 := UInt32

instance (priority := high) {p : Ipv4 → Prop} [DecidablePred p] (o : Option Ipv4) :
    Decidable (∀ a ∈ o, p a) :=
  Option.decidableForallMem o

/-- `htonl` (and `ntohl`) on a little-endian machine: the four bytes reversed. -/
def htonl (a : Ipv4) : Ipv4 :=
  .ofNat (a.toNat % 2 ^ 8 * 2 ^ 24 + a.toNat / 2 ^ 8 % 2 ^ 8 * 2 ^ 16 +
    a.toNat / 2 ^ 16 % 2 ^ 8 * 2 ^ 8 + a.toNat / 2 ^ 24)

@[inherit_doc htonl]
abbrev ntohl (a : Ipv4) : Ipv4 := htonl a

theorem toNat_htonl {a : Ipv4} {b₀ b₁ b₂ b₃ : ℕ}
    (h : a.toNat = b₃ * 2 ^ 24 + b₂ * 2 ^ 16 + b₁ * 2 ^ 8 + b₀)
    (h₀ : b₀ < 2 ^ 8) (h₁ : b₁ < 2 ^ 8) (h₂ : b₂ < 2 ^ 8) (h₃ : b₃ < 2 ^ 8) :
    (htonl a).toNat = b₀ * 2 ^ 24 + b₁ * 2 ^ 16 + b₂ * 2 ^ 8 + b₃ := by
  have e₀ : a.toNat % 2 ^ 8 = b₀ := by omega
  have e₁ : a.toNat / 2 ^ 8 % 2 ^ 8 = b₁ := by omega
  have e₂ : a.toNat / 2 ^ 16 % 2 ^ 8 = b₂ := by omega
  have e₃ : a.toNat / 2 ^ 24 = b₃ := by omega
  rw [htonl, UInt32.toNat_ofNat', e₀, e₁, e₂, e₃]
  omega

@[simp] theorem htonl_htonl (a : Ipv4) : htonl (htonl a) = a := by
  apply UInt32.toNat_inj.mp
  have ha : a.toNat < 2 ^ 32 := a.toNat_lt
  have hbytes : a.toNat = a.toNat / 2 ^ 24 * 2 ^ 24 + a.toNat / 2 ^ 16 % 2 ^ 8 * 2 ^ 16 +
      a.toNat / 2 ^ 8 % 2 ^ 8 * 2 ^ 8 + a.toNat % 2 ^ 8 := by omega
  have hswap := toNat_htonl hbytes (by omega) (by omega) (by omega) (by omega)
  rw [toNat_htonl hswap (by omega) (by omega) (by omega) (by omega)]
  exact hbytes.symm

@[simp] theorem htonl_zero : htonl 0 = 0 := by decide

theorem htonl_eq_zero {a : Ipv4} : htonl a = 0 ↔ a = 0 := by
  constructor
  · intro h
    rw [← htonl_htonl a, h, htonl_zero]
  · rintro rfl
    exact htonl_zero

/-- The first loop of `gen_pool`: the number of addresses doubles for every trailing zero of the
mask. -/
def totalAddressLoop : ℕ → ℕ → ℕ → Option ℕ
  | 0, _, _ => none
  | fuel + 1, n, total =>
    if n % 2 = 0 then totalAddressLoop fuel (n / 2) (total * 2 % 2 ^ 32) else some total

def totalAddress (mask : Ipv4) : Option ℕ := totalAddressLoop 32 mask.toNat 1

/-- The addresses the second loop of `gen_pool` pushes, in order: `net + i` for
`i = total - 2` down to `1`, in 32-bit arithmetic. -/
def hostAddresses (net : Ipv4) (total : ℕ) : List Ipv4 :=
  (List.range' 1 ((total + (2 ^ 32 - 2)) % 2 ^ 32)).reverse.map fun i => net + .ofNat i

/-- `ue_dynamic_pool::gen_pool`. -/
def genPool (net mask : Ipv4) : Option (List Ipv4) := (totalAddress mask).map (hostAddresses net)

theorem nodup_hostAddresses (net : Ipv4) (total : ℕ) : (hostAddresses net total).Nodup := by
  refine List.Nodup.map_on ?_ (List.nodup_reverse.mpr List.nodup_range')
  intro i hi j hj hij
  have hmod : (total + (2 ^ 32 - 2)) % 2 ^ 32 < 2 ^ 32 := Nat.mod_lt _ (Nat.two_pow_pos 32)
  simp only [List.mem_reverse, List.mem_range'_1] at hi hj
  have h := congrArg UInt32.toNat ((UInt32.add_right_inj net).mp hij)
  simp only [UInt32.toNat_ofNat'] at h
  omega

theorem nodup_genPool {net mask : Ipv4} {pool : List Ipv4} (h : genPool net mask = some pool) :
    pool.Nodup := by
  obtain ⟨total, -, rfl⟩ := Option.map_eq_some_iff.mp h
  exact nodup_hostAddresses net total

def getIp : List Ipv4 → Ipv4 × List Ipv4
  | [] => (0, [])
  | a :: pool => (a, pool)

def freeIp (pool : List Ipv4) (a : Ipv4) : List Ipv4 := pool ++ [a]

def acquireIp (pool : List Ipv4) : Option Ipv4 × List Ipv4 :=
  let (addr, pool) := getIp pool
  if addr = 0 then (none, pool) else (some (htonl addr), pool)

def releaseIp (pool : List Ipv4) (a : Ipv4) : List Ipv4 := freeIp pool (htonl (htonl a))

@[simp] theorem releaseIp_eq (pool : List Ipv4) (a : Ipv4) : releaseIp pool a = pool ++ [a] := by
  simp [releaseIp, freeIp]

theorem acquireIp_cases (pool : List Ipv4) : (pool = [] ∧ acquireIp pool = (none, [])) ∨
    (∃ rest, pool = 0 :: rest ∧ acquireIp pool = (none, rest)) ∨
    ∃ a rest, a ≠ 0 ∧ pool = a :: rest ∧ acquireIp pool = (some (htonl a), rest) := by
  cases pool with
  | nil => exact Or.inl ⟨rfl, rfl⟩
  | cons a rest =>
    by_cases ha : a = 0
    · exact Or.inr (Or.inl ⟨rest, by rw [ha], by simp [acquireIp, getIp, ha]⟩)
    · exact Or.inr (Or.inr ⟨a, rest, ha, rfl, by simp [acquireIp, getIp, ha]⟩)

/-- `struct ip_table`. -/
abbrev IpTable := Trie (Fin 256) Bool

def octets (a : Ipv4) : List (Fin 256) :=
  [.ofNat _ (a.toNat / 2 ^ 24), .ofNat _ (a.toNat / 2 ^ 16), .ofNat _ (a.toNat / 2 ^ 8),
    .ofNat _ a.toNat]

theorem octets_injective : Function.Injective octets := by
  intro a b h
  apply UInt32.toNat_inj.mp
  have ha : a.toNat < 2 ^ 32 := a.toNat_lt
  have hb : b.toNat < 2 ^ 32 := b.toNat_lt
  simp only [octets, List.cons.injEq, Fin.ext_iff, Fin.val_ofNat, and_true] at h
  omega

structure StaticPool where
  addrPool : Option IpTable := none

namespace StaticPool

/-- The `used` flag of an address, if it is in the pool. -/
def used? (pool : StaticPool) (a : Ipv4) : Option Bool := pool.addrPool.bind (·.find? (octets a))

def setUsed (pool : StaticPool) (a : Ipv4) (used : Bool) : StaticPool :=
  ⟨pool.addrPool.map (·.set used (octets a))⟩

/-- The addresses `ue_static_pool::gen_pool` adds, in order: `net + i` for `i = 1`
while `i < total - 1`. -/
def hosts (net : Ipv4) (total : ℕ) : List Ipv4 :=
  (List.range' 1 ((total + (2 ^ 32 - 1)) % 2 ^ 32 - 1)).map fun i => net + .ofNat i

/-- `add_ipaddr_in_pool` for each of the addresses, on a new tree. -/
def addIpaddrs (addrs : List Ipv4) : IpTable :=
  addrs.foldl (fun t a => t.insert false (octets a)) (.leaf false)

/-- `ue_static_pool::gen_pool`. -/
def gen (net mask : Ipv4) : Option StaticPool :=
  (totalAddress mask).map fun total => ⟨some (addIpaddrs (hosts net total))⟩

def reserveIpNode (pool : StaticPool) (a : Ipv4) : Bool × StaticPool :=
  match pool.used? a with
  | some false => (true, pool.setUsed a true)
  | _ => (false, pool)

def releaseIpNode (pool : StaticPool) (a : Ipv4) : Bool × StaticPool :=
  match pool.used? a with
  | some true => (true, pool.setUsed a false)
  | _ => (false, pool)

theorem used?_setUsed (pool : StaticPool) (a b : Ipv4) (u : Bool) :
    (pool.setUsed a u).used? b = if a = b then (pool.used? a).map fun _ => u else pool.used? b := by
  obtain ⟨_ | t⟩ := pool
  · simp [used?, setUsed]
  · simp [used?, setUsed, Trie.find?_set, octets_injective.eq_iff]

theorem find?_foldl_insert (addrs : List Ipv4) {t : IpTable} {p : List (Fin 256)}
    (ht : t.find? p ≠ some true) :
    (addrs.foldl (fun t a => t.insert false (octets a)) t).find? p ≠ some true := by
  induction addrs generalizing t with
  | nil => exact ht
  | cons a addrs ih =>
    refine ih ?_
    rcases t.find?_insert (v := false) (octets a) p with heq | ⟨-, heq⟩
    · rwa [heq]
    · simp [heq]

theorem used?_addIpaddrs (addrs : List Ipv4) (a : Ipv4) :
    used? ⟨some (addIpaddrs addrs)⟩ a ≠ some true := by
  have hleaf : (Trie.leaf false : IpTable).find? (octets a) ≠ some true := by
    rw [octets, Trie.find?_leaf_cons]
    simp
  exact find?_foldl_insert addrs hleaf

theorem used?_gen {net mask : Ipv4} {pool : StaticPool} (h : gen net mask = some pool) (a : Ipv4) :
    pool.used? a ≠ some true := by
  unfold gen at h
  cases htotal : totalAddress mask with
  | none => simp [htotal] at h
  | some total =>
    rw [htotal, Option.map_some] at h
    rw [← Option.some.inj h]
    exact used?_addIpaddrs (hosts net total) a

end StaticPool

end Spgw
