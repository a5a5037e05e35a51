/-
# S1-U tunnel endpoints and the TEID ranges of the UPFs

`set_s1u_sgw_gtpu_teid` (`ue.c`) gives each bearer the TEID of its tunnel from the access.
-/

import Spgw.Sx.Establish

namespace Spgw.Sx.TeidPool

variable {teids : TeidPool}

theorem s1uSgwGtpuTeid_div (teids : TeidPool) :
    teids.s1uSgwGtpuTeid / 2 ^ 24 = (teids.teidRange + teids.index) % 2 ^ 8 := by
  rw [s1uSgwGtpuTeid]
  omega

theorem s1uSgwGtpuTeid_mod (teids : TeidPool) : teids.s1uSgwGtpuTeid % 2 ^ 24 =
      (teids.sgwGtpcBaseTeid + teids.sgwGtpcTeidOffset) % 2 ^ 24 := by
  rw [s1uSgwGtpuTeid]
  omega

theorem index_eq_zero_iff : teids.index = 0 ↔ teids.teidBitmap.testBit 0 = false := by
  rw [index, List.range_succ_eq_map, List.find?_cons]
  cases h : teids.teidBitmap.testBit 0 with
  | false => simp
  | true =>
    -- The search goes on from bit 1, and 16 stands for a bitmap that is full.
    simp only [Bool.not_true, List.find?_map, Bool.true_eq_false, iff_false]
    cases List.find? _ (List.range 15) <;> simp

end Spgw.Sx.TeidPool

namespace Spgw.S1u

open Sx (TeidPool)
open Machine Function

abbrev UeId := ℕ
abbrev UpfId := ℕ

structure Tunnel where
  upf : UpfId
  advertised : Option ℕ
  s1uSgwGtpuTeid : ℕ

structure State where
  teidRange : ℕ := 0xf0
  sgwGtpcBaseTeid : ℕ := 0xC0FFEE
  sgwGtpcTeidOffset : ℕ := 0
  teidBitmap : UeId → ℕ := fun _ => 0
  advertised : UpfId → Option ℕ := fun _ => none
  tunnels : List Tunnel := []

namespace State

/-- What `set_s1u_sgw_gtpu_teid` reads for a UE. -/
def pool (s : State) (ue : UeId) : TeidPool where
  teidRange := s.teidRange
  sgwGtpcBaseTeid := s.sgwGtpcBaseTeid
  sgwGtpcTeidOffset := s.sgwGtpcTeidOffset
  teidBitmap := s.teidBitmap ue

def setPool (s : State) (ue : UeId) (teids : TeidPool) : State :=
  { s with
    teidRange := teids.teidRange
    sgwGtpcBaseTeid := teids.sgwGtpcBaseTeid
    sgwGtpcTeidOffset := teids.sgwGtpcTeidOffset
    teidBitmap := update s.teidBitmap ue teids.teidBitmap }

/-- `set_base_teid` of a SAEGWC: the identifiers start from 1 again, but the offset stays. -/
def setBaseTeid (s : State) (val : UInt8) : State :=
  { s with teidRange := val.toNat, sgwGtpcBaseTeid := val.toNat * 2 ^ 24 + 1 }

/-- `set_s1u_sgw_gtpu_teid` for a bearer of the UE that the UPF serves. -/
def setS1uSgwGtpuTeid (s : State) (ue : UeId) (upf : UpfId) : State :=
  { s.setPool ue (s.pool ue).setS1uSgwGtpuTeid with
    tunnels := s.tunnels ++ [⟨upf, s.advertised upf, (s.pool ue).s1uSgwGtpuTeid⟩] }

def setS5s8PgwGtpuTeidUsingPdn (s : State) (ue : UeId) : State := s.setPool ue (s.pool ue).takeIndex

end State

inductive Event
  /-- An accepted association, of either side; the range is there if `teidri` is not 0. -/
  | association (upf : UpfId) (teidRange : Option UInt8)
  /-- `process_pfcp_sess_est_request`: the default bearer. -/
  | defaultBearer (ue : UeId) (upf : UpfId)
  /-- `fill_dedicated_bearer_info`. -/
  | dedicatedBearer (ue : UeId) (upf : UpfId)
  | cleanupPdnContext (ue : UeId)

def step (s : State) : Event → State
  | .association upf none => { s with advertised := update s.advertised upf none }
  | .association upf (some range) =>
    { s.setBaseTeid range with
      advertised := update s.advertised upf (some range.toNat) }
  | .defaultBearer ue upf => s.setS1uSgwGtpuTeid ue upf
  | .dedicatedBearer ue upf => (s.setS5s8PgwGtpuTeidUsingPdn ue).setS1uSgwGtpuTeid ue upf
  | .cleanupPdnContext ue => { s with teidBitmap := update s.teidBitmap ue 0 }

def next (s : State) (e : Event) : Option State := some (step s e)

def initial : State := {}

/-- The top octet of a TEID is the range that its UPF advertised. -/
def State.OnRange (s : State) : Prop :=
  ∀ t ∈ s.tunnels, ∀ range, t.advertised = some range → t.s1uSgwGtpuTeid / 2 ^ 24 = range

/-- The range in use is that of the UPF, and the bearer is the first of its UE. -/
def Serving (s : State) : Event → Prop
  | .defaultBearer ue upf =>
    ∀ range, s.advertised upf = some range →
      s.teidRange = range ∧ (s.teidBitmap ue).testBit 0 = false
  | .dedicatedBearer _ upf => s.advertised upf = none
  | _ => True

structure State.Ranged (s : State) : Prop where
  range_lt : s.teidRange < 2 ^ 8
  onRange : s.OnRange

theorem State.onRange_setS1uSgwGtpuTeid_iff {s : State} {ue : UeId} {upf : UpfId} :
    (s.setS1uSgwGtpuTeid ue upf).OnRange ↔ s.OnRange ∧ ∀ range, s.advertised upf = some range →
        (s.teidRange + (s.pool ue).index) % 2 ^ 8 = range := by
  simp only [OnRange, setS1uSgwGtpuTeid, List.forall_mem_append, List.forall_mem_singleton,
    TeidPool.s1uSgwGtpuTeid_div]
  rfl

theorem ranged_step {s : State} {e : Event} (hs : s.Ranged) (he : Serving s e) :
    (step s e).Ranged := by
  cases e with
  | association upf range =>
    cases range with
    | none => exact ⟨hs.range_lt, hs.onRange⟩
    | some range => exact ⟨range.toNat_lt, hs.onRange⟩
  | defaultBearer ue upf =>
    refine ⟨hs.range_lt, State.onRange_setS1uSgwGtpuTeid_iff.mpr ⟨hs.onRange, ?_⟩⟩
    intro range hrange
    obtain ⟨hlast, hfirst⟩ := he range hrange
    have hindex : (s.pool ue).index = 0 := TeidPool.index_eq_zero_iff.mpr hfirst
    rw [hindex, Nat.add_zero, Nat.mod_eq_of_lt hs.range_lt, hlast]
  | dedicatedBearer ue upf =>
    refine ⟨hs.range_lt, State.onRange_setS1uSgwGtpuTeid_iff.mpr ⟨hs.onRange, ?_⟩⟩
    intro range hrange
    have hnone : s.advertised upf = none := he
    have hsome : s.advertised upf = some range := hrange
    rw [hnone] at hsome
    cases hsome
  | cleanupPdnContext ue => exact ⟨hs.range_lt, hs.onRange⟩

theorem ranged_initial : initial.Ranged where
  range_lt := by decide
  onRange := fun _ ht => absurd ht List.not_mem_nil

/-- **In every state of a run in which each bearer of a UPF with a range is the first of its UE,
and comes while that range is the last one advertised, every TEID has the range of its UPF as its
top octet.** -/
theorem onRange_of_guarded {es : List Event} (h : Guarded next Serving initial es) :
    ∀ s ∈ trace next initial es, s.OnRange := by
  have hranged : ∀ s ∈ trace next initial es, s.Ranged := by
    refine trace_invariant ?_ ranged_initial h
    intro s e t hs he ht
    cases ht
    exact ranged_step hs he
  exact fun s hs => (hranged s hs).onRange

/-- The conditions of the theorem are about more than one UPF: the second associates after the
first UE has its bearer, and serves the next UE. -/
theorem onRange_twoUpfs : Guarded next Serving initial [.association 0 (some 1), .defaultBearer 0 0,
        .association 1 (some 2), .defaultBearer 1 1, .cleanupPdnContext 0] ∧
      ∀ s ∈ trace next initial [.association 0 (some 1), .defaultBearer 0 0,
        .association 1 (some 2), .defaultBearer 1 1, .cleanupPdnContext 0], s.OnRange := by
  have hserving : Guarded next Serving initial [.association 0 (some 1), .defaultBearer 0 0,
      .association 1 (some 2), .defaultBearer 1 1, .cleanupPdnContext 0] := by
    simp [Guarded, next, step, Serving, initial, State.setBaseTeid, State.setS1uSgwGtpuTeid,
      State.setPool, State.pool, TeidPool.setS1uSgwGtpuTeid, TeidPool.takeIndex, update]
  exact ⟨hserving, onRange_of_guarded hserving⟩

/-- **Two UPFs with different ranges are enough.** -/
theorem not_onRange_twoUpfs :
    ∃ s, final next initial [.association 0 (some 1), .association 1 (some 2),
      .defaultBearer 0 0] = some s ∧ ¬ s.OnRange := by
  refine ⟨_, rfl, fun h => ?_⟩
  have htop := h ⟨0, some 1, 2 * 2 ^ 24 + 1⟩ (List.mem_singleton_self _) 1 rfl
  exact absurd htop (by decide)

end Spgw.S1u
